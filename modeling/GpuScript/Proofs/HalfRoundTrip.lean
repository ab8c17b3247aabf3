import GpuScript.Proofs.StoredHalves

/-!
# Half floats there and back

A number whose exponent lies strictly between those that half floats reserve loses the low bits of
its fraction when it becomes a half float, and nothing else. A normal half float is widened to a
number that it is stored for. What has no leading bit becomes a zero, and what fits in no half float
is a fault.
-/

namespace GpuScript.Half

theorem exists_truncate_of_normal {value : BitVec 32}
    (hlow : rebias < FloatFormat.single.exponentField value)
    (hhigh : FloatFormat.single.exponentField value < rebias + FloatFormat.half.topExponent) :
    ∃ stored, truncate value = .ok stored ∧ widen stored = value >>> 13 <<< 13 := by
  have hne : FloatFormat.single.exponentField value ≠ 0 := by omega
  have hfits : fits value = true := (fits_iff hne).2 ⟨hlow.le, hhigh.le⟩
  refine ⟨_, truncate_of_fits hne hfits, ?_⟩
  rw [widen_of_normal _ (by omega) (by omega) (fraction_lt value), Nat.sub_add_cancel hlow.le,
    fraction, if_neg hne]
  exact FloatFormat.single.withSign_without_low_bits (by decide) value

theorem truncate_of_exponentField_eq_zero {value : BitVec 32}
    (h : FloatFormat.single.exponentField value = 0) :
    truncate value = .ok (FloatFormat.half.withSign (FloatFormat.single.negative value) 0) := by
  rw [truncate, exponent?, if_pos h, fraction, if_pos h]
  rfl

theorem fractionField_widen_of_normal (sign : Bool) {field low : Nat} (hpos : 0 < field)
    (htop : field < FloatFormat.half.topExponent)
    (hlow : low < twoPow FloatFormat.half.fractionBits) :
    FloatFormat.single.fractionField (widen (FloatFormat.half.withSign sign
        (field * twoPow FloatFormat.half.fractionBits + low))) =
      low * twoPow (FloatFormat.single.fractionBits - FloatFormat.half.fractionBits) := by
  have hexponents : FloatFormat.half.topExponent + rebias < FloatFormat.single.topExponent := by
    decide
  have hwide : field + rebias < twoPow FloatFormat.single.exponentBits := by
    have hbound := FloatFormat.single.topExponent_lt
    omega
  rw [widen_of_normal sign hpos htop hlow]
  exact FloatFormat.single.fractionField_withSign hwide
    (Nat.mul_lt_mul_of_pos_right hlow (twoPow_pos _))

/-- A number with the sign, the rebiased exponent and the fraction of a normal half float is stored
as that. -/
theorem truncate_of_fields {value : BitVec 32} {sign : Bool} {field low : Nat} (hpos : 0 < field)
    (htop : field < FloatFormat.half.topExponent)
    (hexponent : FloatFormat.single.exponentField value = field + rebias)
    (hsign : FloatFormat.single.negative value = sign)
    (hfraction : FloatFormat.single.fractionField value =
      low * twoPow (FloatFormat.single.fractionBits - FloatFormat.half.fractionBits)) :
    truncate value = .ok (FloatFormat.half.withSign sign
      (field * twoPow FloatFormat.half.fractionBits + low)) := by
  have hne : FloatFormat.single.exponentField value ≠ 0 := by omega
  have hkept : fraction value = low := by
    rw [fraction, if_neg hne, hfraction, Nat.mul_div_cancel _ (twoPow_pos _)]
  rw [truncate_of_fits hne ((fits_iff hne).2 ⟨by omega, by omega⟩), hsign, hkept, hexponent,
    Nat.add_sub_cancel]

theorem truncate_widen {stored : BitVec 16} (hpos : 0 < FloatFormat.half.exponentField stored)
    (htop : FloatFormat.half.exponentField stored < FloatFormat.half.topExponent) :
    truncate (widen stored) = .ok stored := by
  have hlow := FloatFormat.half.fractionField_lt stored
  have hstored := FloatFormat.half.withSign_fields stored
  generalize FloatFormat.half.negative stored = sign at *
  generalize FloatFormat.half.exponentField stored = field at *
  generalize FloatFormat.half.fractionField stored = low at *
  subst hstored
  obtain ⟨hexponent, hsign⟩ := fields_widen_of_normal sign hpos htop hlow
  exact truncate_of_fields hpos htop hexponent hsign
    (fractionField_widen_of_normal sign hpos htop hlow)

theorem exists_fault_truncate_iff {value : BitVec 32} :
    (∃ fault, truncate value = .error fault) ↔ fits value = false := by
  rw [truncate, fits]
  cases exponent? value <;> simp

theorem fits_eq_true_iff {value : BitVec 32} : fits value = true ↔
    FloatFormat.single.exponentField value = 0 ∨ rebias ≤ FloatFormat.single.exponentField value ∧
      FloatFormat.single.exponentField value ≤ rebias + FloatFormat.half.topExponent := by
  by_cases hzero : FloatFormat.single.exponentField value = 0
  · rw [fits, exponent?, if_pos hzero]
    exact iff_of_true rfl (.inl hzero)
  · rw [fits_iff hzero, or_iff_right hzero]

/-- A number becomes a half float by cutting its fraction, exactly where half floats have normal
numbers: what is widened again has lost the thirteen low bits of its fraction at most, and every
normal half float is stored for the number that it is widened to. A number without a leading bit
becomes the zero of its sign, and just what does not fit is a fault. -/
theorem truncate_exact (value : BitVec 32) (stored : BitVec 16) :
    (113 ≤ FloatFormat.single.exponentField value →
      FloatFormat.single.exponentField value ≤ 142 →
        ∃ half, truncate value = .ok half ∧ widen half = value >>> 13 <<< 13) ∧
    (FloatFormat.single.exponentField value = 0 →
      truncate value = .ok (if FloatFormat.single.negative value then 0x8000#16 else 0x0000#16)) ∧
    (1 ≤ FloatFormat.half.exponentField stored → FloatFormat.half.exponentField stored ≤ 30 →
      truncate (widen stored) = .ok stored) ∧
    ((∃ fault, truncate value = .error fault) ↔ fits value = false) ∧
    (fits value = true ↔ FloatFormat.single.exponentField value = 0 ∨
      112 ≤ FloatFormat.single.exponentField value ∧
        FloatFormat.single.exponentField value ≤ 143) := by
  have hrebias : rebias = 112 := by decide
  have htop : FloatFormat.half.topExponent = 31 := by decide
  refine ⟨?_, ?_, ?_, exists_fault_truncate_iff, ?_⟩
  · intro hlow hhigh
    exact exists_truncate_of_normal (by omega) (by omega)
  · intro hzero
    rw [truncate_of_exponentField_eq_zero hzero]
    cases FloatFormat.single.negative value <;> rfl
  · intro hlow hhigh
    exact truncate_widen hlow (by omega)
  · rw [fits_eq_true_iff, hrebias, htop]

/-- A third, whose bits go on behind those that are kept, the half float that it becomes, and the
greatest number below zero, which has no leading bit. -/
theorem truncate_exact_of_third :
    (113 ≤ FloatFormat.single.exponentField 0x3eaaaaab#32 ∧
      FloatFormat.single.exponentField 0x3eaaaaab#32 ≤ 142) ∧
    (1 ≤ FloatFormat.half.exponentField 0x3555#16 ∧
      FloatFormat.half.exponentField 0x3555#16 ≤ 30) ∧
    FloatFormat.single.exponentField 0x80000001#32 = 0 ∧
    (∃ half, truncate 0x3eaaaaab#32 = .ok half ∧ widen half = 0x3eaaa000#32) ∧
    truncate (widen 0x3555#16) = .ok 0x3555#16 ∧ truncate 0x80000001#32 = .ok 0x8000#16 := by
  obtain ⟨hnormal, -, hback, -⟩ := truncate_exact 0x3eaaaaab#32 0x3555#16
  have hvalue : 113 ≤ FloatFormat.single.exponentField 0x3eaaaaab#32 ∧
      FloatFormat.single.exponentField 0x3eaaaaab#32 ≤ 142 := by decide
  have hstored : 1 ≤ FloatFormat.half.exponentField 0x3555#16 ∧
      FloatFormat.half.exponentField 0x3555#16 ≤ 30 := by decide
  have hzero : FloatFormat.single.exponentField 0x80000001#32 = 0 := by decide
  exact ⟨hvalue, hstored, hzero, hnormal hvalue.1 hvalue.2, hback hstored.1 hstored.2,
    (truncate_exact 0x80000001#32 0x3555#16).2.1 hzero⟩

end GpuScript.Half
