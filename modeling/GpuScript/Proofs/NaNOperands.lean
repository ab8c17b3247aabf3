import GpuScript.BufferComparison
import GpuScript.Proofs.FloatFields

/-!
# NaN operands

An operation on a NaN gives a NaN, and a NaN stays one in every format with a fraction. A comparison
with a NaN is false, so that a number which is not above another one need not be below or equal to
it: that holds for numbers alone. Squares of numbers, their sums, a quotient by a count and its root
are numbers again.
-/

namespace GpuScript

namespace FloatFormat

variable {f g : FloatFormat} {a b : BitVec f.width}

theorem decode_of_isNaN (h : f.isNaN b = true) :
    f.decode b = .nan (f.negative b) (f.fractionField b) := by
  obtain ⟨htop, hne⟩ := of_decide_eq_true h
  rw [decode, if_pos htop, if_neg hne]

theorem isNaN_of_decode {sign : Bool} {payload : Nat} (h : f.decode b = .nan sign payload) :
    f.isNaN b = true := by
  rw [decode] at h
  split at h
  · next htop =>
    split at h
    · cases h
    · next hne => exact decide_eq_true ⟨htop, hne⟩
  · split at h <;> cases h

/-- What is no NaN is infinite or finite. -/
theorem decode_cases (h : f.isNaN b = false) : f.decode b = .infinite (f.negative b) ∨
    ∃ m e, f.decode b = .finite (f.negative b) m e := by
  rw [decode]
  split
  · next htop =>
    split
    · exact .inl rfl
    · next hne => exact Bool.noConfusion (h.symm.trans (decide_eq_true ⟨htop, hne⟩))
  · split
    · exact .inr ⟨_, _, rfl⟩
    · exact .inr ⟨_, _, rfl⟩

theorem isNaN_withSign {fraction : Nat} (sign : Bool) (hne : fraction ≠ 0)
    (hfraction : fraction < twoPow f.fractionBits) :
    f.isNaN (f.withSign sign (f.infinity + fraction)) = true := by
  rw [isNaN, decide_eq_true_iff, infinity, f.exponentField_withSign f.topExponent_lt hfraction,
    f.fractionField_withSign f.topExponent_lt hfraction]
  exact ⟨rfl, hne⟩

theorem isNaN_defaultNaN (hbits : 0 < f.fractionBits) : f.isNaN f.defaultNaN = true :=
  isNaN_withSign false (twoPow_pos _).ne' (f.quietBit_lt hbits)

theorem neg_eq (b : BitVec f.width) : f.neg b = f.withSign (!f.negative b)
    (f.exponentField b * twoPow f.fractionBits + f.fractionField b) := by
  have hmagnitude := f.magnitude_lt (f.exponentField_lt b) (f.fractionField_lt b)
  have hfields : b.toNat = twoPow (f.exponentBits + f.fractionBits) * (f.negative b).toNat +
      (f.exponentField b * twoPow f.fractionBits + f.fractionField b) := by
    rw [f.toNat_eq_fields b, twoPow_add]
    ring
  rw [neg, hfields, Nat.mul_add_mod, Nat.mod_eq_of_lt hmagnitude]

theorem isNaN_neg (h : f.isNaN b = true) : f.isNaN (f.neg b) = true := by
  have hexponent := f.exponentField_lt b
  have hfraction := f.fractionField_lt b
  rw [isNaN, neg_eq, f.exponentField_withSign hexponent hfraction,
    f.fractionField_withSign hexponent hfraction]
  exact h

section

variable (hbits : 0 < f.fractionBits)
include hbits

theorem isNaN_add_left (h : f.isNaN a = true) (b : BitVec f.width) :
    f.isNaN (f.add a b) = true := by
  rw [add, decode_of_isNaN h]
  exact isNaN_defaultNaN hbits

theorem isNaN_add_right (a : BitVec f.width) (h : f.isNaN b = true) :
    f.isNaN (f.add a b) = true := by
  rw [add, decode_of_isNaN h]
  cases f.decode a <;> exact isNaN_defaultNaN hbits

theorem isNaN_sub (h : f.isNaN a = true ∨ f.isNaN b = true) : f.isNaN (f.sub a b) = true := by
  rcases h with ha | hb
  · exact isNaN_add_left hbits ha _
  · exact isNaN_add_right hbits a (isNaN_neg hb)

theorem isNaN_mul_left (h : f.isNaN a = true) (b : BitVec f.width) :
    f.isNaN (f.mul a b) = true := by
  rw [mul, decode_of_isNaN h]
  exact isNaN_defaultNaN hbits

theorem isNaN_div_left (h : f.isNaN a = true) (b : BitVec f.width) :
    f.isNaN (f.div a b) = true := by
  rw [div, decode_of_isNaN h]
  exact isNaN_defaultNaN hbits

theorem isNaN_sqrt (h : f.isNaN b = true) : f.isNaN (f.sqrt b) = true := by
  rw [sqrt, decode_of_isNaN h]
  exact isNaN_defaultNaN hbits

end

theorem exists_fields_of_le_infinity {magnitude : Nat} (h : magnitude ≤ f.infinity) :
    ∃ field fraction, magnitude = field * twoPow f.fractionBits + fraction ∧
      field < twoPow f.exponentBits ∧ fraction < twoPow f.fractionBits ∧
      (field = f.topExponent → fraction = 0) := by
  have hpos := twoPow_pos f.fractionBits
  have hsplit := Nat.div_add_mod' magnitude (twoPow f.fractionBits)
  have hfraction : magnitude % twoPow f.fractionBits < twoPow f.fractionBits := Nat.mod_lt _ hpos
  refine ⟨_, _, hsplit.symm, ?_, hfraction, ?_⟩
  · exact (Nat.div_le_of_le_mul (by rwa [Nat.mul_comm])).trans_lt f.topExponent_lt
  · intro htop
    rw [htop] at hsplit
    rw [infinity] at h
    omega

theorem isNaN_withSign_of_le {magnitude : Nat} (sign : Bool) (h : magnitude ≤ f.infinity) :
    f.isNaN (f.withSign sign magnitude) = false := by
  obtain ⟨field, fraction, rfl, hfield, hfraction, htop⟩ := exists_fields_of_le_infinity h
  rw [isNaN, f.exponentField_withSign hfield hfraction, f.fractionField_withSign hfield hfraction]
  exact decide_eq_false fun hnan => hnan.2 (htop hnan.1)

theorem exists_ofRatio_eq (sign : Bool) (n d : Nat) :
    ∃ magnitude ≤ f.infinity, f.ofRatio sign n d = f.withSign sign magnitude := by
  rw [ofRatio]
  split
  · exact ⟨0, Nat.zero_le _, rfl⟩
  · exact ⟨_, Nat.min_le_right .., rfl⟩

/-- What is brought to another format is a NaN there exactly if it was one. -/
theorem isNaN_convert (hbits : 0 < g.fractionBits) (b : BitVec f.width) :
    g.isNaN (f.convert g b) = f.isNaN b := by
  cases h : f.isNaN b with
  | true =>
    rw [convert, decode_of_isNaN h]
    refine isNaN_withSign _ ?_ (Nat.or_lt_two_pow (f.aligned_lt (f.fractionField_lt b))
      (g.quietBit_lt hbits))
    rw [Ne, Nat.or_eq_zero_iff]
    exact fun hzero => (twoPow_pos _).ne' hzero.2
  | false =>
    rw [convert]
    rcases decode_cases h with hdecode | ⟨m, e, hdecode⟩
    · rw [hdecode]
      exact isNaN_withSign_of_le _ (Nat.le_refl _)
    · rw [hdecode]
      dsimp only
      obtain ⟨magnitude, hle, hround⟩ := exists_ofRatio_eq (f := g) (f.negative b)
        (m * twoPow e.toNat) (twoPow (-e).toNat)
      rw [ofScaled, hround]
      exact isNaN_withSign_of_le _ hle

/-- Whether a number is below or equal to another one, which no NaN is. -/
def le (f : FloatFormat) (a b : BitVec f.width) : Bool :=
  match f.decode a, f.decode b with
  | .nan .., _ | _, .nan .. => false
  | .infinite s, .infinite t => s || !t
  | .infinite s, .finite .. => s
  | .finite .., .infinite t => !t
  | .finite s m e, .finite t n g =>
    let (x, y, _) := align (signedSignificand s m) (signedSignificand t n) e g
    x ≤ y

theorem lt_of_isNaN_left (h : f.isNaN a = true) (b : BitVec f.width) : f.lt a b = false := by
  rw [lt, decode_of_isNaN h]

theorem lt_of_isNaN_right (a : BitVec f.width) (h : f.isNaN b = true) : f.lt a b = false := by
  rw [lt, decode_of_isNaN h]
  cases f.decode a <;> rfl

theorem lt_eq_not_le (ha : f.isNaN a = false) (hb : f.isNaN b = false) :
    f.lt b a = !f.le a b := by
  rw [lt, le]
  rcases decode_cases ha with hx | ⟨m, e, hx⟩
  · rcases decode_cases hb with hy | ⟨n, g, hy⟩
    · rw [hx, hy]
      cases f.negative a <;> cases f.negative b <;> rfl
    · rw [hx, hy]
  · rcases decode_cases hb with hy | ⟨n, g, hy⟩
    · rw [hx, hy]
      cases f.negative b <;> rfl
    · rw [hx, hy]
      simp only [align, Int.min_comm g e]
      exact (decide_eq_decide.2 Int.not_le.symm).trans decide_not

theorem lt_eq_false_iff : f.lt b a = false ↔
    f.isNaN a = true ∨ f.isNaN b = true ∨ f.le a b = true := by
  cases ha : f.isNaN a with
  | true => simp [lt_of_isNaN_right b ha]
  | false =>
    cases hb : f.isNaN b with
    | true => simp [lt_of_isNaN_left hb a]
    | false => simp [lt_eq_not_le ha hb]

theorem lt_convert_eq_false_iff {a : BitVec g.width} (hbits : 0 < g.fractionBits)
    (b : BitVec f.width) : g.lt (f.convert g b) a = false ↔
      g.isNaN a = true ∨ f.isNaN b = true ∨ g.le a (f.convert g b) = true := by
  rw [lt_eq_false_iff, isNaN_convert hbits]

/-- Whether a pattern is a number without a minus sign. -/
structure IsNonnegative (f : FloatFormat) (b : BitVec f.width) : Prop where
  isNaN : f.isNaN b = false
  negative : f.negative b = false

theorem isNonnegative_withSign {magnitude : Nat} (h : magnitude ≤ f.infinity) :
    f.IsNonnegative (f.withSign false magnitude) := by
  refine ⟨isNaN_withSign_of_le _ h, ?_⟩
  obtain ⟨field, fraction, rfl, hfield, hfraction, -⟩ := exists_fields_of_le_infinity h
  exact f.negative_withSign hfield hfraction

theorem isNonnegative_infinity : f.IsNonnegative (f.withSign false f.infinity) :=
  isNonnegative_withSign (Nat.le_refl _)

theorem isNonnegative_ofRatio (n d : Nat) : f.IsNonnegative (f.ofRatio false n d) := by
  obtain ⟨magnitude, hle, hround⟩ := exists_ofRatio_eq (f := f) false n d
  rw [hround]
  exact isNonnegative_withSign hle

theorem isNonnegative_mul_self (h : f.isNaN a = false) : f.IsNonnegative (f.mul a a) := by
  rw [mul]
  rcases decode_cases h with hx | ⟨m, e, hx⟩
  · rw [hx]
    dsimp only
    rw [bne_self_eq_false]
    exact isNonnegative_infinity
  · rw [hx]
    dsimp only
    rw [bne_self_eq_false]
    exact isNonnegative_ofRatio ..

namespace IsNonnegative

theorem decode_cases (h : f.IsNonnegative a) : f.decode a = .infinite false ∨
    ∃ m e, f.decode a = .finite false m e := by
  rw [← h.negative]
  exact FloatFormat.decode_cases h.isNaN

theorem add (ha : f.IsNonnegative a) (hb : f.IsNonnegative b) :
    f.IsNonnegative (f.add a b) := by
  rw [FloatFormat.add]
  rcases ha.decode_cases with hx | ⟨m, e, hx⟩
  · rcases hb.decode_cases with hy | ⟨n, g, hy⟩
    · rw [hx, hy]
      exact isNonnegative_infinity
    · rw [hx, hy]
      exact isNonnegative_infinity
  · rcases hb.decode_cases with hy | ⟨n, g, hy⟩
    · rw [hx, hy]
      exact isNonnegative_infinity
    · rw [hx, hy]
      -- the exact sum is a natural, so that its sign is decided by the operands or is none
      have hsum : signedSignificand false m * twoPow (e - min e g).toNat +
          signedSignificand false n * twoPow (g - min e g).toNat =
            ((m * twoPow (e - min e g).toNat + n * twoPow (g - min e g).toNat : Nat) : Int) := rfl
      have hsign : ∀ sum : Nat, (if (sum : Int) = 0 then false && false else
          decide ((sum : Int) < 0)) = false := by
        intro sum
        rw [decide_eq_false (Int.not_lt.2 (Int.natCast_nonneg sum)), Bool.and_false, ite_self]
      dsimp only [align]
      rw [hsum, hsign]
      exact isNonnegative_ofRatio ..

theorem div {m : Nat} {e : Int} (ha : f.IsNonnegative a) (hm : m ≠ 0)
    (hb : f.decode b = .finite false m e) : f.IsNonnegative (f.div a b) := by
  rw [FloatFormat.div]
  rcases ha.decode_cases with hx | ⟨n, g, hx⟩
  · rw [hx, hb]
    exact isNonnegative_infinity
  · rw [hx, hb]
    dsimp only
    rw [if_neg hm]
    exact isNonnegative_ofRatio ..

theorem sqrt (ha : f.IsNonnegative a) : f.IsNonnegative (f.sqrt a) := by
  rw [FloatFormat.sqrt]
  rcases ha.decode_cases with hx | ⟨m, e, hx⟩
  · rw [hx]
    exact isNonnegative_infinity
  · rw [hx]
    dsimp only
    split
    · exact isNonnegative_withSign (Nat.zero_le _)
    · exact isNonnegative_ofRatio ..

end IsNonnegative

/-- A positive count with no more bits than the format has is held exactly. -/
theorem exists_decode_ofInt {n : Nat} (hn : n ≠ 0) (hbits : n.log2 ≤ f.fractionBits)
    (hpos : 0 < f.bias) (htop : n.log2 + f.bias < f.topExponent) :
    ∃ m e, f.decode (f.ofInt n) = .finite false m e ∧ m ≠ 0 := by
  have hscaled : f.ofInt n = f.ofScaled false n 0 := by
    have hsign : decide ((n : Int) < 0) = false := decide_eq_false (by omega)
    rw [ofInt, hsign, Int.natAbs_natCast]
    exact congrArg (f.ofRatio false · 1) (Nat.mul_one n).symm
  have hhigh := mul_lt_twoPow hbits
  have hpower := twoPow_pos f.fractionBits
  have hfraction : n * twoPow (f.fractionBits - n.log2) - twoPow f.fractionBits <
      twoPow f.fractionBits := by omega
  have hfield : (n.log2 : Int) + 0 + f.bias = (n.log2 + f.bias : Nat) := by omega
  rw [hscaled, f.ofScaled_of_normal hn hbits hfield (by omega) htop,
    f.decode_of_normal (by omega) htop hfraction]
  exact ⟨_, _, rfl, by omega⟩

end FloatFormat

end GpuScript
