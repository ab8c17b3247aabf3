import GpuScript.FloatFormat
import Mathlib.Algebra.Order.Ring.Nat
import Mathlib.Tactic.Ring

/-!
# Fields of a binary number

A pattern is its sign, its exponent field and its fraction field, and each of them can be read back.
A magnitude that a format holds exactly is not rounded, so a normal number keeps its sign, its
exponent and its fraction in every format that has room for them.
-/

namespace GpuScript

theorem twoPow_eq (n : Nat) : twoPow n = 2 ^ n := rfl

theorem twoPow_add (m n : Nat) : twoPow (m + n) = twoPow m * twoPow n := Nat.pow_add ..

theorem log2_mul_twoPow {m : Nat} (hm : m ≠ 0) (k : Nat) : (m * twoPow k).log2 = m.log2 + k := by
  have hpos := twoPow_pos k
  refine (Nat.log2_eq_iff (Nat.mul_ne_zero hm (by omega))).2 ⟨?_, ?_⟩
  · rw [Nat.pow_add]
    exact Nat.mul_le_mul_right _ (Nat.log2_self_le hm)
  · rw [Nat.add_right_comm, Nat.pow_add]
    exact Nat.mul_lt_mul_of_pos_right Nat.lt_log2_self hpos

theorem log2_twoPow (k : Nat) : (twoPow k).log2 = k := Nat.log2_two_pow

theorem log2_add_twoPow {r k : Nat} (h : r < twoPow k) : (r + twoPow k).log2 = k := by
  rw [twoPow_eq] at h ⊢
  refine (Nat.log2_eq_iff (by omega)).2 ⟨Nat.le_add_left .., ?_⟩
  rw [Nat.pow_succ]
  omega

theorem roundDiv_mul (quotient : Nat) {d : Nat} (hd : 0 < d) :
    roundDiv (quotient * d) d = quotient := by
  rw [roundDiv, Nat.mul_mod_left, Nat.mul_div_cancel _ hd]
  exact if_pos (.inl hd)

theorem roundDiv_scaled (m : Nat) {x e : Int} (h : e ≤ x) :
    roundDiv (m * twoPow x.toNat * twoPow (-e).toNat) (twoPow (-x).toNat * twoPow e.toNat) =
      m * twoPow (x - e).toNat := by
  have hpowers : x.toNat + (-e).toNat = (x - e).toNat + ((-x).toNat + e.toNat) := by omega
  rw [Nat.mul_assoc, ← twoPow_add, ← twoPow_add, hpowers, twoPow_add, ← Nat.mul_assoc]
  exact roundDiv_mul _ (twoPow_pos _)

theorem twoPow_le_mul {m width : Nat} (hm : m ≠ 0) (h : m.log2 ≤ width) :
    twoPow width ≤ m * twoPow (width - m.log2) := by
  calc twoPow width = twoPow m.log2 * twoPow (width - m.log2) := by
        rw [← twoPow_add, Nat.add_sub_cancel' h]
    _ ≤ m * twoPow (width - m.log2) := Nat.mul_le_mul_right _ (Nat.log2_self_le hm)

theorem mul_lt_twoPow {m width : Nat} (h : m.log2 ≤ width) :
    m * twoPow (width - m.log2) < 2 * twoPow width := by
  calc m * twoPow (width - m.log2) < twoPow (m.log2 + 1) * twoPow (width - m.log2) :=
        Nat.mul_lt_mul_of_pos_right Nat.lt_log2_self (twoPow_pos _)
    _ = twoPow (width + 1) := by
        rw [← twoPow_add, Nat.add_right_comm, Nat.add_sub_cancel' h]
    _ = 2 * twoPow width := Nat.pow_succ'

theorem ratioLog2_scaled {m : Nat} (hm : m ≠ 0) (x : Int) :
    ratioLog2 (m * twoPow x.toNat) (twoPow (-x).toNat) = m.log2 + x := by
  have hlog : ((m * twoPow x.toNat).log2 : Int) - ((twoPow (-x).toNat).log2 : Int) =
      m.log2 + x := by
    rw [log2_mul_twoPow hm, log2_twoPow]
    omega
  rw [ratioLog2, hlog]
  refine if_pos ?_
  rw [Nat.mul_assoc, ← twoPow_add, ← twoPow_add]
  have hexponent : (-x).toNat + ((m.log2 : Int) + x).toNat =
      m.log2 + (x.toNat + (-((m.log2 : Int) + x)).toNat) := by omega
  rw [hexponent, twoPow_add]
  exact Nat.mul_le_mul_right _ (Nat.log2_self_le hm)

namespace FloatFormat

variable (f : FloatFormat) {sign : Bool} {field fraction : Nat}

theorem magnitude_lt (hfield : field < twoPow f.exponentBits)
    (hfraction : fraction < twoPow f.fractionBits) :
    field * twoPow f.fractionBits + fraction < twoPow (f.exponentBits + f.fractionBits) := by
  calc field * twoPow f.fractionBits + fraction
      < (field + 1) * twoPow f.fractionBits := by
        rw [Nat.succ_mul]
        exact Nat.add_lt_add_left hfraction _
    _ ≤ twoPow f.exponentBits * twoPow f.fractionBits := Nat.mul_le_mul_right _ hfield
    _ = twoPow (f.exponentBits + f.fractionBits) := (twoPow_add ..).symm

theorem toNat_withSign {magnitude : Nat}
    (h : magnitude < twoPow (f.exponentBits + f.fractionBits)) :
    (f.withSign sign magnitude).toNat =
      sign.toNat * twoPow (f.exponentBits + f.fractionBits) + magnitude := by
  have hwidth : 2 ^ f.width = 2 * twoPow (f.exponentBits + f.fractionBits) := Nat.pow_succ'
  rw [withSign, BitVec.toNat_ofNat, hwidth]
  cases sign with
  | false =>
    rw [if_neg Bool.false_ne_true, Bool.toNat_false]
    exact (Nat.mod_eq_of_lt (by omega)).trans (by omega)
  | true =>
    rw [if_pos rfl, Bool.toNat_true]
    exact (Nat.mod_eq_of_lt (by omega)).trans (by omega)

section

variable (hfield : field < twoPow f.exponentBits) (hfraction : fraction < twoPow f.fractionBits)
include hfield hfraction

theorem toNat_withSign_fields :
    (f.withSign sign (field * twoPow f.fractionBits + fraction)).toNat =
      twoPow f.fractionBits * (twoPow f.exponentBits * sign.toNat + field) + fraction := by
  rw [f.toNat_withSign (f.magnitude_lt hfield hfraction), twoPow_add]
  ring

theorem negative_withSign :
    f.negative (f.withSign sign (field * twoPow f.fractionBits + fraction)) = sign := by
  have hmagnitude := f.magnitude_lt hfield hfraction
  have hpos := twoPow_pos (f.exponentBits + f.fractionBits)
  rw [negative, f.toNat_withSign hmagnitude, Nat.mul_comm sign.toNat, Nat.mul_add_div hpos,
    Nat.div_eq_of_lt hmagnitude]
  cases sign <;> rfl

theorem exponentField_withSign :
    f.exponentField (f.withSign sign (field * twoPow f.fractionBits + fraction)) = field := by
  rw [exponentField, f.toNat_withSign_fields hfield hfraction, Nat.mul_add_div (twoPow_pos _),
    Nat.div_eq_of_lt hfraction, Nat.add_zero, Nat.mul_add_mod, Nat.mod_eq_of_lt hfield]

theorem fractionField_withSign :
    f.fractionField (f.withSign sign (field * twoPow f.fractionBits + fraction)) = fraction := by
  rw [fractionField, f.toNat_withSign_fields hfield hfraction, Nat.mul_add_mod,
    Nat.mod_eq_of_lt hfraction]

end

theorem exponentField_lt (b : BitVec f.width) : f.exponentField b < twoPow f.exponentBits :=
  Nat.mod_lt _ (twoPow_pos _)

theorem fractionField_lt (b : BitVec f.width) : f.fractionField b < twoPow f.fractionBits :=
  Nat.mod_lt _ (twoPow_pos _)

theorem toNat_eq_fields (b : BitVec f.width) :
    b.toNat = twoPow f.fractionBits * (twoPow f.exponentBits * (f.negative b).toNat +
      f.exponentField b) + f.fractionField b := by
  have hwidth : 2 ^ f.width = 2 * twoPow (f.exponentBits + f.fractionBits) := Nat.pow_succ'
  have htop : b.toNat / twoPow f.fractionBits / twoPow f.exponentBits < 2 := by
    rw [Nat.div_div_eq_div_mul, ← twoPow_add, Nat.add_comm f.fractionBits]
    exact Nat.div_lt_of_lt_mul (by rw [Nat.mul_comm, ← hwidth]; exact b.isLt)
  have hsign : (f.negative b).toNat = b.toNat / twoPow f.fractionBits / twoPow f.exponentBits := by
    rw [negative, Nat.add_comm f.exponentBits, twoPow_add, ← Nat.div_div_eq_div_mul]
    generalize b.toNat / twoPow f.fractionBits / twoPow f.exponentBits = top at htop ⊢
    obtain rfl | rfl : top = 0 ∨ top = 1 := by omega
    · rfl
    · rfl
  rw [hsign, exponentField, fractionField, Nat.div_add_mod, Nat.div_add_mod]

theorem withSign_fields (b : BitVec f.width) :
    f.withSign (f.negative b) (f.exponentField b * twoPow f.fractionBits + f.fractionField b) =
      b := by
  apply BitVec.eq_of_toNat_eq
  rw [f.toNat_withSign_fields (f.exponentField_lt b) (f.fractionField_lt b), ← f.toNat_eq_fields]

theorem withSign_without_low_bits {low : Nat} (hlow : low ≤ f.fractionBits)
    (b : BitVec f.width) :
    f.withSign (f.negative b) (f.exponentField b * twoPow f.fractionBits +
      f.fractionField b / twoPow low * twoPow low) = b >>> low <<< low := by
  have hcleared : f.fractionField b / twoPow low * twoPow low < twoPow f.fractionBits :=
    (Nat.div_mul_le_self ..).trans_lt (f.fractionField_lt b)
  have hkept : b.toNat / twoPow low * twoPow low < 2 ^ f.width :=
    (Nat.div_mul_le_self ..).trans_lt b.isLt
  obtain ⟨high, hhigh⟩ := Nat.exists_eq_add_of_le hlow
  apply BitVec.eq_of_toNat_eq
  rw [BitVec.toNat_shiftLeft, BitVec.toNat_ushiftRight, Nat.shiftLeft_eq, Nat.shiftRight_eq_div_pow,
    ← twoPow_eq, Nat.mod_eq_of_lt hkept, f.toNat_withSign_fields (f.exponentField_lt b) hcleared,
    f.toNat_eq_fields b, hhigh, twoPow_add, Nat.mul_assoc, Nat.mul_add_div (twoPow_pos low)]
  ring

theorem topExponent_lt : f.topExponent < twoPow f.exponentBits :=
  Nat.sub_lt (twoPow_pos _) Nat.one_pos

theorem decode_of_normal (hpos : 0 < field) (htop : field < f.topExponent)
    (hfraction : fraction < twoPow f.fractionBits) :
    f.decode (f.withSign sign (field * twoPow f.fractionBits + fraction)) =
      .finite sign (fraction + twoPow f.fractionBits) (f.leastExponent + field - 1) := by
  have hfield := htop.trans f.topExponent_lt
  rw [decode, f.exponentField_withSign hfield hfraction, f.negative_withSign hfield hfraction,
    f.fractionField_withSign hfield hfraction, if_neg htop.ne, if_neg hpos.ne']

/-- A normal magnitude with no more bits than the format has is held exactly. -/
theorem ofScaled_of_normal {m : Nat} {x : Int} (hm : m ≠ 0) (hbits : m.log2 ≤ f.fractionBits)
    (hexponent : (m.log2 : Int) + x + f.bias = field) (hpos : 0 < field)
    (htop : field < f.topExponent) :
    f.ofScaled sign m x = f.withSign sign (field * twoPow f.fractionBits +
      (m * twoPow (f.fractionBits - m.log2) - twoPow f.fractionBits)) := by
  have hscaled : m * twoPow x.toNat ≠ 0 := Nat.mul_ne_zero hm (twoPow_pos _).ne'
  have hleast : f.leastExponent = 1 - (f.bias : Int) - f.fractionBits := rfl
  have hmax : max ((m.log2 : Int) + x - f.fractionBits) f.leastExponent =
      m.log2 + x - f.fractionBits := max_eq_left (by omega)
  rw [ofScaled, ofRatio, if_neg hscaled, ratioLog2_scaled hm]
  dsimp only
  rw [hmax]
  have hshift : (x - ((m.log2 : Int) + x - f.fractionBits)).toNat = f.fractionBits - m.log2 := by
    omega
  have hlow := twoPow_le_mul hm hbits
  have hhigh := mul_lt_twoPow hbits
  have hsteps : ((m.log2 : Int) + x - f.fractionBits - f.leastExponent).toNat = field - 1 := by
    omega
  have hmagnitude : (field - 1) * twoPow f.fractionBits + m * twoPow (f.fractionBits - m.log2) =
      field * twoPow f.fractionBits +
        (m * twoPow (f.fractionBits - m.log2) - twoPow f.fractionBits) := by
    obtain ⟨k, rfl⟩ := Nat.exists_eq_succ_of_ne_zero hpos.ne'
    rw [Nat.succ_sub_one, Nat.succ_mul]
    omega
  have hfinite : field * twoPow f.fractionBits +
      (m * twoPow (f.fractionBits - m.log2) - twoPow f.fractionBits) ≤ f.infinity := by
    calc _ ≤ (field + 1) * twoPow f.fractionBits := by
          rw [Nat.succ_mul]
          omega
      _ ≤ f.infinity := Nat.mul_le_mul_right _ htop
  rw [roundDiv_scaled m (by omega), hshift, hsteps, hmagnitude, min_eq_left hfinite]

section

variable {g : FloatFormat}

theorem convert_of_normal {wide : Nat} (hpos : 0 < field) (htop : field < f.topExponent)
    (hfraction : fraction < twoPow f.fractionBits) (hbits : f.fractionBits ≤ g.fractionBits)
    (hwide : (field : Int) - f.bias + g.bias = wide) (hwidePos : 0 < wide)
    (hwideTop : wide < g.topExponent) :
    f.convert g (f.withSign sign (field * twoPow f.fractionBits + fraction)) =
      g.withSign sign (wide * twoPow g.fractionBits +
        fraction * twoPow (g.fractionBits - f.fractionBits)) := by
  have hlog := log2_add_twoPow hfraction
  have hleast : f.leastExponent = 1 - (f.bias : Int) - f.fractionBits := rfl
  have hne : fraction + twoPow f.fractionBits ≠ 0 := by
    have hpower := twoPow_pos f.fractionBits
    omega
  rw [← hlog] at hbits
  have hexponent : ((fraction + twoPow f.fractionBits).log2 : Int) +
      (f.leastExponent + field - 1) + g.bias = wide := by omega
  rw [convert, f.decode_of_normal hpos htop hfraction]
  dsimp only
  rw [g.ofScaled_of_normal hne hbits hexponent hwidePos hwideTop]
  rw [hlog] at hbits ⊢
  rw [Nat.add_mul, ← twoPow_add, Nat.add_sub_cancel' hbits, Nat.add_sub_cancel]

theorem quietBit_lt (hbits : 0 < f.fractionBits) : f.quietBit < twoPow f.fractionBits :=
  Nat.pow_lt_pow_right Nat.one_lt_two (Nat.sub_lt hbits Nat.one_pos)

theorem aligned_lt {payload : Nat} (h : payload < twoPow f.fractionBits) :
    payload * twoPow (g.fractionBits - f.fractionBits) /
      twoPow (f.fractionBits - g.fractionBits) < twoPow g.fractionBits := by
  apply Nat.div_lt_of_lt_mul
  calc payload * twoPow (g.fractionBits - f.fractionBits)
      < twoPow f.fractionBits * twoPow (g.fractionBits - f.fractionBits) :=
        Nat.mul_lt_mul_of_pos_right h (twoPow_pos _)
    _ = twoPow (f.fractionBits - g.fractionBits) * twoPow g.fractionBits := by
        rw [← twoPow_add, ← twoPow_add]
        congr 1
        omega

theorem exponentField_convert_of_top {b : BitVec f.width} (htop : f.exponentField b = f.topExponent)
    (hbits : f.fractionBits < g.fractionBits) :
    g.exponentField (f.convert g b) = g.topExponent := by
  rw [convert, decode]
  dsimp only
  rw [if_pos htop]
  by_cases hzero : f.fractionField b = 0
  · rw [if_pos hzero]
    exact g.exponentField_withSign g.topExponent_lt (twoPow_pos _)
  · rw [if_neg hzero]
    exact g.exponentField_withSign g.topExponent_lt (Nat.or_lt_two_pow
      (f.aligned_lt (f.fractionField_lt b)) (g.quietBit_lt (Nat.zero_lt_of_lt hbits)))

end

end FloatFormat

end GpuScript
