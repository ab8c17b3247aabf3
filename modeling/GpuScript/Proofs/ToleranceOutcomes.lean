import GpuScript.Proofs.BufferCalls
import GpuScript.Proofs.NaNOperands

/-!
# Outcomes of a comparison within a tolerance

A NaN in a component makes the difference of the component a NaN, then the sum of the squares and
then the root mean square. A NaN is above no tolerance, so that buffers with a NaN are taken as
equal within every tolerance. Without one the outcome is that of the order of numbers.
-/

namespace GpuScript

theorem isNaN_foldl_squares {numbers : List (BitVec 64)} {sum : BitVec 64}
    (h : FloatFormat.double.isNaN sum = true ∨
      ∃ d ∈ numbers, FloatFormat.double.isNaN d = true) :
    FloatFormat.double.isNaN (numbers.foldl
      (fun sum d => FloatFormat.double.add sum (FloatFormat.double.mul d d)) sum) = true := by
  have hbits : 0 < FloatFormat.double.fractionBits := by decide
  induction numbers generalizing sum with
  | nil => exact h.resolve_right (by simp)
  | cons d rest ih =>
    apply ih
    rcases h with hsum | ⟨c, hc, hnan⟩
    · exact .inl (FloatFormat.isNaN_add_left hbits hsum _)
    · rcases List.mem_cons.1 hc with rfl | hc
      · exact .inl (FloatFormat.isNaN_add_right hbits sum (FloatFormat.isNaN_mul_left hbits hnan _))
      · exact .inr ⟨c, hc, hnan⟩

theorem isNonnegative_foldl_squares {numbers : List (BitVec 64)} {sum : BitVec 64}
    (hsum : FloatFormat.double.IsNonnegative sum)
    (h : ∀ d ∈ numbers, FloatFormat.double.isNaN d = false) :
    FloatFormat.double.IsNonnegative (numbers.foldl
      (fun sum d => FloatFormat.double.add sum (FloatFormat.double.mul d d)) sum) := by
  induction numbers generalizing sum with
  | nil => exact hsum
  | cons d rest ih =>
    have hsquare := FloatFormat.isNonnegative_mul_self (h d List.mem_cons_self)
    exact ih (hsum.add hsquare) fun c hc => h c (List.mem_cons_of_mem d hc)

theorem isNaN_rootMeanSquare {numbers : List (BitVec 64)}
    (h : ∃ d ∈ numbers, FloatFormat.double.isNaN d = true) :
    FloatFormat.double.isNaN (rootMeanSquare numbers) = true := by
  have hbits : 0 < FloatFormat.double.fractionBits := by decide
  exact FloatFormat.isNaN_sqrt hbits (FloatFormat.isNaN_div_left hbits
    (isNaN_foldl_squares (.inr h)) _)

/-- The root mean square of some numbers, no more than a double counts exactly, is a NaN only if one
of them is. -/
theorem isNaN_rootMeanSquare_iff {numbers : List (BitVec 64)} (hne : numbers ≠ [])
    (hcount : numbers.length < 2 ^ 53) :
    FloatFormat.double.isNaN (rootMeanSquare numbers) = true ↔
      ∃ d ∈ numbers, FloatFormat.double.isNaN d = true := by
  refine ⟨fun hnan => ?_, isNaN_rootMeanSquare⟩
  by_contra hnone
  have hnumbers : ∀ d ∈ numbers, FloatFormat.double.isNaN d = false := by
    intro d hd
    exact Bool.eq_false_of_not_eq_true fun h => hnone ⟨d, hd, h⟩
  have hlength : numbers.length ≠ 0 := mt List.length_eq_zero_iff.1 hne
  have hlog : numbers.length.log2 < 53 := (Nat.log2_lt hlength).2 hcount
  have hbias : FloatFormat.double.bias = 1023 := by decide
  have htop : FloatFormat.double.topExponent = 2047 := by decide
  have hfraction : FloatFormat.double.fractionBits = 52 := rfl
  obtain ⟨m, e, hdecode, hm⟩ := FloatFormat.exists_decode_ofInt (f := .double) hlength
    (by omega) (by omega) (by omega)
  have hzero : FloatFormat.double.IsNonnegative (FloatFormat.double.withSign false 0) :=
    FloatFormat.isNonnegative_withSign (Nat.zero_le _)
  have hroot := ((isNonnegative_foldl_squares hzero hnumbers).div hm hdecode).sqrt
  exact Bool.noConfusion (hroot.isNaN.symm.trans hnan)

theorem FloatFormat.isNaN_of_datum (f : FloatFormat) (b : BitVec f.width)
    (h : (match some (f.decode b) with
      | some (.nan ..) => true
      | _ => false) = true) : f.isNaN b = true := by
  cases hdatum : f.decode b with
  | nan sign payload => exact isNaN_of_decode hdatum
  | infinite sign =>
    rw [hdatum] at h
    cases h
  | finite sign m e =>
    rw [hdatum] at h
    cases h

theorem Half.isNaN_widen (b : BitVec 16) :
    FloatFormat.single.isNaN (widen b) = FloatFormat.half.isNaN b :=
  FloatFormat.isNaN_convert (f := .half) (g := .single) (by decide) b

theorem Scalar.isNaN_difference {s : Scalar} {x y : BitVec s.bits}
    (h : Value.isNaN ⟨s, x⟩ = true ∨ Value.isNaN ⟨s, y⟩ = true) :
    FloatFormat.double.isNaN (s.difference x y) = true := by
  have hsingle : 0 < FloatFormat.single.fractionBits := by decide
  have hdouble : 0 < FloatFormat.double.fractionBits := by decide
  cases s with
  | float16 =>
    have hnan := h.imp
      (fun hx => (Half.isNaN_widen x).trans (FloatFormat.half.isNaN_of_datum x hx))
      (fun hy => (Half.isNaN_widen y).trans (FloatFormat.half.isNaN_of_datum y hy))
    exact (FloatFormat.isNaN_convert hdouble _).trans (FloatFormat.isNaN_sub hsingle hnan)
  | float32 =>
    have hnan := h.imp (FloatFormat.single.isNaN_of_datum x) (FloatFormat.single.isNaN_of_datum y)
    exact (FloatFormat.isNaN_convert hdouble _).trans (FloatFormat.isNaN_sub hsingle hnan)
  | float64 =>
    have hnan := h.imp (FloatFormat.double.isNaN_of_datum x) (FloatFormat.double.isNaN_of_datum y)
    exact FloatFormat.isNaN_sub hdouble hnan
  | _ => exact h.elim Bool.noConfusion Bool.noConfusion

namespace Buffer

variable {a b : Buffer} {diffs : List (BitVec 64)} {k : Nat}

/-- Whether the component of a buffer at an index, counted through the elements in turn, is a
NaN. -/
def isNaNAt (b : Buffer) (k : Nat) : Bool :=
  match b.values with
  | .ok values => values[k]?.any Value.isNaN
  | .error _ => false

theorem isNaNAt_eq_true_iff (hb : b.bytes.length = b.size) : b.isNaNAt k = true ↔
    ∃ place, (b.format.components 0 b.elementCount)[k]? = some place ∧
      (Value.stored b.bytes place).isNaN = true := by
  rw [isNaNAt, values_eq hb]
  dsimp only
  rw [List.getElem?_map]
  cases (b.format.components 0 b.elementCount)[k]? <;> simp

theorem exists_isNaN_difference (ha : a.bytes.length = a.size) (hb : b.bytes.length = b.size)
    (hshape : a.checkShape b = .ok ()) (hdiffs : a.differences b = .ok diffs)
    (h : a.isNaNAt k = true ∨ b.isNaNAt k = true) :
    ∃ d, diffs[k]? = some d ∧ FloatFormat.double.isNaN d = true := by
  obtain ⟨hlayout, hcount, -, -⟩ := checkShape_eq_ok_iff.1 hshape
  have hcomponents : b.format.components 0 b.elementCount =
      a.format.components 0 a.elementCount := by
    rw [hcount, Format.components_congr (Format.segments_eq_of_sameLayout hlayout)]
  rw [isNaNAt_eq_true_iff ha, isNaNAt_eq_true_iff hb, hcomponents] at h
  obtain ⟨place, hplace, hnan⟩ : ∃ place, (a.format.components 0 a.elementCount)[k]? = some place ∧
      ((Value.stored a.bytes place).isNaN = true ∨ (Value.stored b.bytes place).isNaN = true) := by
    rcases h with ⟨place, hplace, hnan⟩ | ⟨place, hplace, hnan⟩
    · exact ⟨place, hplace, .inl hnan⟩
    · exact ⟨place, hplace, .inr hnan⟩
  rw [differences_eq ha hlayout (length_eq_of_checkShape ha hb hshape)] at hdiffs
  refine ⟨_, ?_, Scalar.isNaN_difference hnan⟩
  rw [← Except.ok.inj hdiffs, List.getElem?_map, hplace, Option.map_some]
  rfl

theorem checkTolerance_eq (hshape : a.checkShape b = .ok ()) (hdiffs : a.differences b = .ok diffs)
    (tolerance : BitVec 32) : a.checkTolerance b tolerance =
      if diffs = [] then .ok ()
      else if FloatFormat.double.lt (FloatFormat.single.convert .double tolerance)
        (rootMeanSquare diffs) then refuse (.rmseExceeded (rootMeanSquare diffs) tolerance)
      else .ok () := by
  rw [checkTolerance, hshape]
  dsimp only
  rw [if_neg (not_not_intro (valueCount_eq_of_checkShape hshape)), hdiffs]
  rfl

/-- Buffers of one shape are within a tolerance exactly if they have no component, or the root mean
square is not above the tolerance, or one of the two is a NaN. -/
theorem checkTolerance_eq_ok_iff (hshape : a.checkShape b = .ok ())
    (hdiffs : a.differences b = .ok diffs) (tolerance : BitVec 32) :
    a.checkTolerance b tolerance = .ok () ↔ diffs = [] ∨
      FloatFormat.double.isNaN (rootMeanSquare diffs) = true ∨
      FloatFormat.single.isNaN tolerance = true ∨
      FloatFormat.double.le (rootMeanSquare diffs)
        (FloatFormat.single.convert .double tolerance) = true := by
  rw [checkTolerance_eq hshape hdiffs]
  by_cases hnone : diffs = []
  · rw [if_pos hnone]
    exact iff_of_true rfl (.inl hnone)
  · have horder := FloatFormat.lt_convert_eq_false_iff (f := .single) (g := .double)
      (a := rootMeanSquare diffs) (by decide) tolerance
    rw [if_neg hnone, or_iff_right hnone]
    refine Iff.trans ?_ horder
    split
    · next h => simp [h, refuse]
    · next h => simp [h]

theorem checkTolerance_eq_refuse (hshape : a.checkShape b = .ok ())
    (hdiffs : a.differences b = .ok diffs) {tolerance : BitVec 32}
    (h : a.checkTolerance b tolerance ≠ .ok ()) :
    a.checkTolerance b tolerance = refuse (.rmseExceeded (rootMeanSquare diffs) tolerance) := by
  rw [checkTolerance_eq hshape hdiffs] at h ⊢
  split
  · next hnone => exact (h (if_pos hnone)).elim
  · next hsome =>
    rw [if_neg hsome] at h
    split
    · rfl
    · next hle => exact (h (if_neg hle)).elim

/-- Two buffers of one shape with a NaN in a component of either are taken as equal within every
tolerance, since their root mean square is a NaN, which is above no tolerance. The root mean square
of no more differences than a double counts is a NaN only if one of them is. If neither it nor the
tolerance is a NaN, buffers with a component are accepted exactly if it is below or equal to the
tolerance. Whatever is not accepted is refused with it. -/
theorem checkTolerance_of_isNaNAt (ha : a.bytes.length = a.size) (hb : b.bytes.length = b.size)
    (hshape : a.checkShape b = .ok ()) (tolerance : BitVec 32) :
    ∃ diffs, a.differences b = .ok diffs ∧ diffs.length = a.valueCount ∧
      (∀ k, a.isNaNAt k = true ∨ b.isNaNAt k = true →
        (∃ d, diffs[k]? = some d ∧ FloatFormat.double.isNaN d = true) ∧
        FloatFormat.double.isNaN (rootMeanSquare diffs) = true ∧
        a.checkTolerance b tolerance = .ok ()) ∧
      (diffs ≠ [] → diffs.length < 2 ^ 53 →
        (FloatFormat.double.isNaN (rootMeanSquare diffs) = true ↔
          ∃ d ∈ diffs, FloatFormat.double.isNaN d = true)) ∧
      (a.checkTolerance b tolerance = .ok () ↔ diffs = [] ∨
        FloatFormat.double.isNaN (rootMeanSquare diffs) = true ∨
        FloatFormat.single.isNaN tolerance = true ∨
        FloatFormat.double.le (rootMeanSquare diffs)
          (FloatFormat.single.convert .double tolerance) = true) ∧
      (a.checkTolerance b tolerance ≠ .ok () → a.checkTolerance b tolerance =
        refuse (.rmseExceeded (rootMeanSquare diffs) tolerance)) := by
  obtain ⟨hlayout, -, -, -⟩ := checkShape_eq_ok_iff.1 hshape
  have hdiffs := differences_eq ha hlayout (length_eq_of_checkShape ha hb hshape)
  refine ⟨_, hdiffs, ?_, ?_, isNaN_rootMeanSquare_iff, checkTolerance_eq_ok_iff hshape hdiffs _,
    checkTolerance_eq_refuse hshape hdiffs⟩
  · rw [List.length_map, Format.length_components]
    rfl
  · intro k hk
    obtain ⟨d, hd, hnan⟩ := exists_isNaN_difference ha hb hshape hdiffs hk
    have hroot := isNaN_rootMeanSquare ⟨d, List.mem_of_getElem? hd, hnan⟩
    exact ⟨⟨d, hd, hnan⟩, hroot, (checkTolerance_eq_ok_iff hshape hdiffs _).2 (.inr (.inl hroot))⟩

def singleNumbers (numbers : List (BitVec 32)) : Buffer :=
  { ofFormat .storage
      { name := some "R32_SFLOAT", packedSize := none, parts := [⟨.r, 32, .sfloat⟩]
        segments := [.component .sfloat .float32]
        scalarsOf_ne_nil := by decide } with
    bytes := numbers.flatMap fun number => littleEndian 4 number.toNat
    elementCount := numbers.length }

/-- A NaN as the second of two numbers, compared with two zeros. -/
theorem checkTolerance_of_isNaNAt_one : ∃ a b : Buffer,
    Format.named "R32_SFLOAT" = .ok a.format ∧ a.bytes = [0, 0, 0, 0, 0, 0, 0xc0, 0x7f] ∧
      b = { a with bytes := [0, 0, 0, 0, 0, 0, 0, 0] } ∧
      a.bytes.length = a.size ∧ b.bytes.length = b.size ∧ a.checkShape b = .ok () ∧
      a.isNaNAt 1 = true ∧ b.isNaNAt 1 = false ∧
      a.checkTolerance b 0x00000000 = .ok () ∧ b.checkTolerance a 0x00000000 = .ok () := by
  let a := singleNumbers [0x00000000, 0x7fc00000]
  let b := singleNumbers [0x00000000, 0x00000000]
  have ha : a.bytes.length = a.size := by decide
  have hb : b.bytes.length = b.size := by decide
  have hshape : a.checkShape b = .ok () := by decide
  have hback : b.checkShape a = .ok () := by decide
  have hnan : a.isNaNAt 1 = true := by decide +kernel
  obtain ⟨diffs, -, -, hpasses, -⟩ := checkTolerance_of_isNaNAt ha hb hshape 0x00000000
  obtain ⟨others, -, -, hpassesBack, -⟩ := checkTolerance_of_isNaNAt hb ha hback 0x00000000
  exact ⟨a, b, by decide +kernel, by decide, by decide, ha, hb, hshape, hnan, by decide +kernel,
    (hpasses 1 (.inl hnan)).2.2, (hpassesBack 1 (.inr hnan)).2.2⟩

/-- A NaN compared with a zero is not refused. -/
theorem not_refuses_isNaNAt : ¬ ∀ (a b : Buffer) (tolerance : BitVec 32),
    a.bytes.length = a.size → b.bytes.length = b.size → a.checkShape b = .ok () →
      (∃ k, a.isNaNAt k ≠ b.isNaNAt k) →
        ∃ rmse, a.checkTolerance b tolerance = refuse (.rmseExceeded rmse tolerance) := by
  intro h
  have hpasses : (singleNumbers [0x7fc00000]).checkTolerance (singleNumbers [0x00000000])
      0x00000000 = .ok () := by
    decide +kernel
  obtain ⟨rmse, hrefused⟩ := h (singleNumbers [0x7fc00000]) (singleNumbers [0x00000000]) 0x00000000
    (by decide) (by decide) (by decide) ⟨0, by decide +kernel⟩
  rw [hpasses] at hrefused
  cases hrefused

end Buffer

end GpuScript
