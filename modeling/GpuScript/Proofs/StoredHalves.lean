import GpuScript.Proofs.FloatFields
import GpuScript.ValueLiteral

/-!
# Numbers stored as half floats

A number that fits is stored with its exponent rebiased and the low bits of its fraction dropped.
The top exponent field of a half float stands for infinities and NaNs and the bottom one for
numbers without a leading bit, so the stored number is the given one with a shorter fraction exactly
if its exponent field lies strictly between them.
-/

namespace GpuScript.Half

/-- Whether a half float stands for a finite number with the sign and the exponent of a
single-precision number, and has its leading bit. -/
structure Keeps (value : BitVec 32) (stored : BitVec 16) : Prop where
  finite : FloatFormat.single.exponentField (widen stored) < FloatFormat.single.topExponent
  sign : FloatFormat.single.negative (widen stored) = FloatFormat.single.negative value
  exponent : FloatFormat.single.exponentField (widen stored) =
    FloatFormat.single.exponentField value
  leadingBit : FloatFormat.half.exponentField stored ≠ 0

section

variable {value : BitVec 32}

theorem fits_iff (hne : FloatFormat.single.exponentField value ≠ 0) : fits value = true ↔
    rebias ≤ FloatFormat.single.exponentField value ∧
      FloatFormat.single.exponentField value ≤ rebias + FloatFormat.half.topExponent := by
  have htop : twoPow FloatFormat.half.exponentBits = FloatFormat.half.topExponent + 1 := rfl
  rw [fits, exponent?, htop, if_neg hne]
  split
  · next h => exact iff_of_true rfl ⟨h.1, by omega⟩
  · next h => exact iff_of_false Bool.false_ne_true fun hbounds => h ⟨hbounds.1, by omega⟩

theorem fraction_lt (value : BitVec 32) :
    fraction value < twoPow FloatFormat.half.fractionBits := by
  have hlow : FloatFormat.single.fractionField value < twoPow FloatFormat.single.fractionBits :=
    Nat.mod_lt _ (twoPow_pos _)
  rw [fraction]
  split
  · exact twoPow_pos _
  · exact Nat.div_lt_of_lt_mul hlow

theorem truncate_of_fits (hne : FloatFormat.single.exponentField value ≠ 0)
    (hfits : fits value = true) : truncate value = .ok (FloatFormat.half.withSign
      (FloatFormat.single.negative value)
      ((FloatFormat.single.exponentField value - rebias) * twoPow FloatFormat.half.fractionBits +
        fraction value)) := by
  obtain ⟨hlow, hhigh⟩ := (fits_iff hne).1 hfits
  have hexponent : exponent? value =
      some (FloatFormat.single.exponentField value - rebias) := by
    have htop : twoPow FloatFormat.half.exponentBits = FloatFormat.half.topExponent + 1 := rfl
    rw [exponent?, if_neg hne, if_pos ⟨hlow, by omega⟩]
  rw [truncate, hexponent]

end

section

variable (sign : Bool) {field fraction : Nat}

theorem widen_of_normal (hpos : 0 < field) (htop : field < FloatFormat.half.topExponent)
    (hfraction : fraction < twoPow FloatFormat.half.fractionBits) :
    widen (FloatFormat.half.withSign sign
        (field * twoPow FloatFormat.half.fractionBits + fraction)) =
      FloatFormat.single.withSign sign ((field + rebias) * twoPow FloatFormat.single.fractionBits +
        fraction * twoPow (FloatFormat.single.fractionBits - FloatFormat.half.fractionBits)) := by
  have hbiases : FloatFormat.single.bias = FloatFormat.half.bias + rebias := rfl
  have hexponents : FloatFormat.half.topExponent + rebias < FloatFormat.single.topExponent := by
    decide
  exact FloatFormat.half.convert_of_normal hpos htop hfraction (by decide) (by omega) (by omega)
    (by omega)

theorem fields_widen_of_normal (hpos : 0 < field) (htop : field < FloatFormat.half.topExponent)
    (hfraction : fraction < twoPow FloatFormat.half.fractionBits) :
    FloatFormat.single.exponentField (widen (FloatFormat.half.withSign sign
        (field * twoPow FloatFormat.half.fractionBits + fraction))) = field + rebias ∧
      FloatFormat.single.negative (widen (FloatFormat.half.withSign sign
        (field * twoPow FloatFormat.half.fractionBits + fraction))) = sign := by
  have hexponents : FloatFormat.half.topExponent + rebias < FloatFormat.single.topExponent := by
    decide
  have hwide : field + rebias < twoPow FloatFormat.single.exponentBits := by
    have hbound := FloatFormat.single.topExponent_lt
    omega
  have hlonger : fraction *
      twoPow (FloatFormat.single.fractionBits - FloatFormat.half.fractionBits) <
        twoPow FloatFormat.single.fractionBits :=
    Nat.mul_lt_mul_of_pos_right hfraction (twoPow_pos _)
  rw [widen_of_normal sign hpos htop hfraction]
  exact ⟨FloatFormat.single.exponentField_withSign hwide hlonger,
    FloatFormat.single.negative_withSign hwide hlonger⟩

theorem exponentField_widen_of_top {stored : BitVec 16}
    (h : FloatFormat.half.exponentField stored = FloatFormat.half.topExponent) :
    FloatFormat.single.exponentField (widen stored) = FloatFormat.single.topExponent :=
  FloatFormat.half.exponentField_convert_of_top h (by decide)

end

/-- A normal number that fits is stored as a finite half float with its sign, its exponent and its
leading bit exactly if its rebiased exponent is neither of the two reserved ones. -/
theorem exists_truncate_keeps_iff {value : BitVec 32}
    (hnormal : 0 < FloatFormat.single.exponentField value ∧
      FloatFormat.single.exponentField value < FloatFormat.single.topExponent)
    (hfits : fits value = true) :
    ∃ stored, truncate value = .ok stored ∧
      (Keeps value stored ↔ rebias < FloatFormat.single.exponentField value ∧
        FloatFormat.single.exponentField value < rebias + FloatFormat.half.topExponent) := by
  have hne := hnormal.1.ne'
  obtain ⟨hlow, hhigh⟩ := (fits_iff hne).1 hfits
  refine ⟨_, truncate_of_fits hne hfits, ?_⟩
  generalize hsign : FloatFormat.single.negative value = sign
  generalize hfield : FloatFormat.single.exponentField value - rebias = field
  have hexponent : FloatFormat.single.exponentField value = field + rebias := by omega
  have hfraction := fraction_lt value
  have hfits : field < twoPow FloatFormat.half.exponentBits :=
    show field < FloatFormat.half.topExponent + 1 by omega
  have hstored : FloatFormat.half.exponentField (FloatFormat.half.withSign sign
      (field * twoPow FloatFormat.half.fractionBits + fraction value)) = field :=
    FloatFormat.half.exponentField_withSign hfits hfraction
  refine ⟨?_, ?_⟩
  · intro hkeeps
    refine ⟨?_, ?_⟩
    · have hleading := hkeeps.leadingBit
      omega
    · by_contra htop
      have hreserved : field = FloatFormat.half.topExponent := by omega
      exact hkeeps.finite.ne (exponentField_widen_of_top (hstored.trans hreserved))
  · rintro ⟨hpos, htop⟩
    obtain ⟨hwide, hnegative⟩ :=
      fields_widen_of_normal sign (show 0 < field by omega) (by omega) hfraction
    refine ⟨?_, ?_, ?_, ?_⟩
    · rw [hwide, ← hexponent]
      exact hnormal.2
    · rw [hsign]
      exact hnegative
    · rw [hwide, hexponent]
    · rw [hstored]
      omega

/-- 65535 is stored as the greatest finite half float. -/
theorem keeps_truncate_of_greatest :
    ∃ stored, truncate 0x477fff00#32 = .ok stored ∧ Keeps 0x477fff00#32 stored := by
  have hnormal : 0 < FloatFormat.single.exponentField 0x477fff00#32 ∧
      FloatFormat.single.exponentField 0x477fff00#32 < FloatFormat.single.topExponent := by decide
  have hfits : fits 0x477fff00#32 = true := by decide
  obtain ⟨stored, hstored, hkeeps⟩ := exists_truncate_keeps_iff hnormal hfits
  exact ⟨stored, hstored, hkeeps.2 (by decide)⟩

/-- 65536 can be written for a half float, where it is stored as infinity. -/
theorem not_keeps_of_token : ¬ ∀ (token : List Char) (value : BitVec 32),
    Value.ofToken? .float16 token = some (.ofSingle value) →
    0 < FloatFormat.single.exponentField value →
    FloatFormat.single.exponentField value < FloatFormat.single.topExponent →
    ∃ stored, truncate value = .ok stored ∧ Keeps value stored := by
  intro h
  obtain ⟨stored, hstored, hkeeps⟩ :=
    h "65536".toList 0x47800000#32 (by decide +kernel) (by decide) (by decide)
  obtain rfl : 0x7c00#16 = stored := by
    have hinfinity : truncate 0x47800000#32 = .ok 0x7c00#16 := by decide +kernel
    exact Except.ok.inj (hinfinity.symm.trans hstored)
  exact absurd hkeeps.finite (by decide +kernel)

end GpuScript.Half
