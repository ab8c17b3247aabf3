import GpuScript.Proofs.IndexWords
import GpuScript.Proofs.KnownFormats
import GpuScript.VertexData

/-!
# Spellings of shader types

The header of vertex data and the commands on buffers read the names of scalar and vector types on
their own. A header takes the size of a vector as a decimal number, so that it also knows names with
a plus sign or zeros before the digit; these are no types for a command. On all other names that a
header knows the two agree.
-/

namespace GpuScript

def IsPaddedDigit (n : Nat) (text : List Char) : Prop :=
  ∃ zeros, afterPlus text = List.replicate zeros '0' ++ [n.digitChar]

theorem eq_digitChar_of_digitValue? {c : Char} {d : Nat} (h : digitValue? 10 c = some d) :
    c = d.digitChar := by
  rw [digitValue?_ten, Option.ite_none_right_eq_some, Option.some.injEq] at h
  obtain ⟨hdecimal, rfl⟩ := h
  have hlow : 48 ≤ c.toNat := UInt32.le_iff_toNat_le.1 hdecimal.1
  have hhigh : c.toNat ≤ 57 := UInt32.le_iff_toNat_le.1 hdecimal.2
  change c = (c.toNat - 48).digitChar
  apply Char.toNat_inj.1
  rw [Nat.toNat_digitChar_of_lt_ten (by omega)]
  omega

theorem exists_last_digit {front : List Char} {c : Char}
    (h : ∀ e ∈ front ++ [c], isDigit 10 e = true) :
    ∃ d : Nat, c = d.digitChar ∧ digitsValue 10 (front ++ [c]) = digitsValue 10 front * 10 + d := by
  obtain ⟨d, hd⟩ := Option.isSome_iff_exists.1 (h c (by simp))
  refine ⟨d, eq_digitChar_of_digitValue? hd, ?_⟩
  rw [digitsValue, List.foldl_append, List.foldl_cons, hd]
  rfl

theorem exists_zeros_of_digitsValue {digits : List Char}
    (hdigits : ∀ c ∈ digits, isDigit 10 c = true) (hzero : digitsValue 10 digits = 0) :
    ∃ zeros, digits = List.replicate zeros '0' := by
  induction digits using List.reverseRecOn with
  | nil => exact ⟨0, rfl⟩
  | append_singleton front c ih =>
    obtain ⟨d, rfl, hvalue⟩ := exists_last_digit hdigits
    obtain ⟨zeros, rfl⟩ := ih (fun e he => hdigits e (List.mem_append_left _ he)) (by omega)
    obtain rfl : d = 0 := by omega
    exact ⟨zeros + 1, List.replicate_succ'.symm⟩

theorem isPaddedDigit_of_decimal? {text : List Char} {n : Nat} (h : decimal? text = some n)
    (hn : n < 10) : IsPaddedDigit n text := by
  obtain ⟨hne, hdigits, hvalue⟩ := decimal?_eq_some_iff.1 h
  unfold IsPaddedDigit
  generalize afterPlus text = digits at *
  rcases List.eq_nil_or_concat digits with rfl | ⟨front, c, rfl⟩
  · exact (hne rfl).elim
  · rw [List.concat_eq_append] at hdigits hvalue ⊢
    obtain ⟨d, rfl, hlast⟩ := exists_last_digit hdigits
    obtain ⟨zeros, rfl⟩ := exists_zeros_of_digitsValue
      (fun e he => hdigits e (List.mem_append_left _ he)) (by omega)
    obtain rfl : d = n := by omega
    exact ⟨zeros, rfl⟩

theorem dimension?_eq_some_iff {text : List Char} {n : Nat} :
    GlslShape.dimension? text = some n ↔ (2 ≤ n ∧ n ≤ 4) ∧ text = [n.digitChar] := by
  constructor
  · intro h
    unfold GlslShape.dimension? at h
    split at h <;> cases h <;> exact ⟨by omega, rfl⟩
  · rintro ⟨hbounds, rfl⟩
    obtain rfl | rfl | rfl : n = 2 ∨ n = 3 ∨ n = 4 := by omega
    all_goals rfl

theorem dimension?_of_isPaddedDigit {text : List Char} {n : Nat} (h : IsPaddedDigit n text)
    (hn : 2 ≤ n ∧ n ≤ 4) :
    GlslShape.dimension? text = if text = [n.digitChar] then some n else none := by
  split
  · next heq => exact dimension?_eq_some_iff.2 ⟨hn, heq⟩
  · next hne =>
    cases hrows : GlslShape.dimension? text with
    | none => rfl
    | some rows =>
      obtain ⟨hbounds, rfl⟩ := dimension?_eq_some_iff.1 hrows
      obtain ⟨zeros, hzeros⟩ := h
      have hafter : afterPlus [rows.digitChar] = [rows.digitChar] := by
        obtain rfl | rfl | rfl : rows = 2 ∨ rows = 3 ∨ rows = 4 := by omega
        all_goals rfl
      rw [hafter] at hzeros
      obtain rfl : zeros = 0 := by simpa using congrArg List.length hzeros
      exact (hne hzeros).elim

def vectorLetters : List (List Char) := [[], ['i'], ['u'], ['d']]

theorem exists_letter_vectorPart (name : List Char) :
    ∃ letter ∈ vectorLetters, name = letter ++ vectorPart name := by
  unfold vectorPart
  split
  · exact ⟨['i'], by decide, rfl⟩
  · exact ⟨['u'], by decide, rfl⟩
  · exact ⟨['d'], by decide, rfl⟩
  · exact ⟨[], by decide, rfl⟩

/-- What a header knows is a plain type, or a vector type whose size is a digit, perhaps behind
zeros and a plus sign. -/
theorem cases_of_attributeComponents {name : List Char} {n : Nat}
    (h : attributeComponents name = .ok n) :
    name ∈ plainAttributeTypes ∧ n = 1 ∨ (2 ≤ n ∧ n ≤ 4) ∧ ∃ letter ∈ vectorLetters, ∃ size,
      IsPaddedDigit n size ∧ name = letter ++ ("vec".toList ++ size) := by
  unfold attributeComponents at h
  split at h
  · next hplain => exact .inl ⟨hplain, (Except.ok.inj h).symm⟩
  · split at h
    · cases h
    · next size hsize =>
      split at h
      · next m hm =>
        split at h
        · next hbounds =>
          cases h
          obtain ⟨letter, hletter, hname⟩ := exists_letter_vectorPart name
          have hdecimal := isPaddedDigit_of_decimal? (decimal?_of_wholeNatural? hm) (by omega)
          rw [List.isPrefixOf?_eq_some_iff_append_eq] at hsize
          exact .inr ⟨hbounds, letter, hletter, size, hdecimal, hsize ▸ hname⟩
        · cases h
      · cases h

theorem ofName?_of_plain {name : List Char} (h : name ∈ plainAttributeTypes) :
    ∃ scalar, GlslShape.ofName? name = some ⟨scalar, 1, 1⟩ := by
  simp only [plainAttributeTypes, List.mem_cons, List.not_mem_nil, or_false] at h
  rcases h with rfl | rfl | rfl | rfl
  · exact ⟨.int32, rfl⟩
  · exact ⟨.uint32, rfl⟩
  · exact ⟨.float32, rfl⟩
  · exact ⟨.float64, rfl⟩

/-- A name that starts like that of a vector type is one exactly if a dimension follows. -/
theorem ofName?_of_vector {letter : List Char} (h : letter ∈ vectorLetters) (size : List Char) :
    ∃ scalar, GlslShape.ofName? (letter ++ ("vec".toList ++ size)) =
      (GlslShape.dimension? size).map fun rows => ⟨scalar, 1, rows⟩ := by
  simp only [vectorLetters, List.mem_cons, List.not_mem_nil, or_false] at h
  rcases h with rfl | rfl | rfl | rfl
  · exact ⟨.float32, rfl⟩
  · exact ⟨.int32, rfl⟩
  · exact ⟨.uint32, rfl⟩
  · exact ⟨.float64, rfl⟩

theorem scalarsOf_append (front back : List Segment) :
    scalarsOf (front ++ back) = scalarsOf front ++ scalarsOf back :=
  List.filterMap_append

theorem length_scalarsOf_segments (shape : GlslShape) (rule : LayoutRule) :
    (scalarsOf (shape.segments rule)).length = shape.columns * shape.rows := by
  have hcolumn : (scalarsOf (shape.columnSegments rule)).length = shape.rows := by
    have hcomponent : Segment.scalar? (.component shape.scalar.naturalMode shape.scalar) =
        some shape.scalar := rfl
    rw [GlslShape.columnSegments, scalarsOf_append, List.length_append, scalarsOf,
      List.filterMap_replicate_of_some hcomponent, List.length_replicate]
    split <;> rfl
  rw [GlslShape.segments]
  induction shape.columns with
  | zero => simp [scalarsOf]
  | succ columns ih =>
    rw [List.replicate_succ, List.flatten_cons, scalarsOf_append, List.length_append, ih, hcolumn]
    rw [Nat.succ_mul, Nat.add_comm]

theorem valuesPerElement_of_ofGlslType? {name : List Char} {shape : GlslShape} {rule : LayoutRule}
    {format : Format} (hshape : GlslShape.ofName? name = some shape)
    (hformat : Format.ofGlslType? name rule = some format) :
    format.valuesPerElement = shape.columns * shape.rows := by
  rw [Format.ofGlslType?, hshape, Option.bind_some, Format.ofSegments?] at hformat
  split at hformat <;> cases hformat
  exact length_scalarsOf_segments shape rule

/-- Whether commands on buffers know a name as that of a scalar or a vector of a number of
components. -/
def IsKnownVector (name : List Char) (n : Nat) : Prop :=
  ∃ shape format, GlslShape.ofName? name = some shape ∧ shape.columns = 1 ∧
    Format.ofGlslType? name .std430 = some format ∧ format.valuesPerElement = n

theorem isKnownVector_of_ofName? {name : List Char} {scalar : Scalar} {n : Nat}
    (h : GlslShape.ofName? name = some ⟨scalar, 1, n⟩) : IsKnownVector name n := by
  obtain ⟨format, hformat⟩ := Format.exists_ofGlslType? h .std430
  refine ⟨_, format, h, rfl, hformat, ?_⟩
  rw [valuesPerElement_of_ofGlslType? h hformat, Nat.one_mul]

/-- A type that a header knows is known to commands on buffers, with as many components, exactly if
it is a plain one or the size of the vector is a digit alone. With a plus sign or zeros before the
digit it is no type of any layout. -/
theorem isKnownVector_iff {name : List Char} {n : Nat} (h : attributeComponents name = .ok n) :
    (IsKnownVector name n ↔ name ∈ plainAttributeTypes ∨
      ∃ letter ∈ vectorLetters, name = letter ++ ("vec".toList ++ [n.digitChar])) ∧
    (¬ IsKnownVector name n →
      (∃ letter ∈ vectorLetters, ∃ size, IsPaddedDigit n size ∧ size ≠ [n.digitChar] ∧
        name = letter ++ ("vec".toList ++ size)) ∧
      ∀ rule, Format.ofGlslType? name rule = none) := by
  rcases cases_of_attributeComponents h with
    ⟨hplain, rfl⟩ | ⟨hbounds, letter, hletter, size, hdigit, rfl⟩
  · obtain ⟨scalar, hshape⟩ := ofName?_of_plain hplain
    have hknown := isKnownVector_of_ofName? hshape
    exact ⟨iff_of_true hknown (.inl hplain), fun hnot => (hnot hknown).elim⟩
  · obtain ⟨scalar, hshape⟩ := ofName?_of_vector hletter size
    rw [dimension?_of_isPaddedDigit hdigit hbounds] at hshape
    -- commands know the name exactly if nothing stands before the digit
    by_cases hsize : size = [n.digitChar]
    · rw [if_pos hsize] at hshape
      have hknown := isKnownVector_of_ofName? hshape
      exact ⟨iff_of_true hknown (.inr ⟨letter, hletter, by rw [hsize]⟩),
        fun hnot => (hnot hknown).elim⟩
    · rw [if_neg hsize] at hshape
      have hunknown : ¬ IsKnownVector (letter ++ ("vec".toList ++ size)) n := by
        rintro ⟨shape, -, hother, -⟩
        rw [hshape] at hother
        cases hother
      refine ⟨iff_of_false hunknown ?_, fun _ => ⟨?_, ?_⟩⟩
      · rintro (hplain | ⟨other, hother, heq⟩)
        · obtain ⟨scalar, hplainShape⟩ := ofName?_of_plain hplain
          rw [hshape] at hplainShape
          cases hplainShape
        · obtain ⟨scalar, hdigitShape⟩ := ofName?_of_vector hother [n.digitChar]
          rw [← heq, hshape, dimension?_eq_some_iff.2 ⟨hbounds, rfl⟩] at hdigitShape
          cases hdigitShape
      · exact ⟨letter, hletter, size, hdigit, hsize, rfl⟩
      · intro rule
        rw [Format.ofGlslType?, hshape]
        rfl

/-- A vector of unsigned numbers whose size has a sign and a zero before the digit. -/
theorem isKnownVector_iff_of_padded :
    attributeComponents "uvec+03".toList = .ok 3 ∧
    (IsKnownVector "uvec+03".toList 3 ↔ "uvec+03".toList ∈ plainAttributeTypes ∨
      ∃ letter ∈ vectorLetters, "uvec+03".toList = letter ++ ("vec".toList ++ [Nat.digitChar 3])) ∧
    (¬ IsKnownVector "uvec+03".toList 3 →
      (∃ letter ∈ vectorLetters, ∃ size, IsPaddedDigit 3 size ∧ size ≠ [Nat.digitChar 3] ∧
        "uvec+03".toList = letter ++ ("vec".toList ++ size)) ∧
      ∀ rule, Format.ofGlslType? "uvec+03".toList rule = none) := by
  have haccepted : attributeComponents "uvec+03".toList = .ok 3 := by decide +kernel
  exact ⟨haccepted, isKnownVector_iff haccepted⟩

/-- A header can know a vector type that commands on buffers do not. -/
theorem not_isKnownVector :
    ¬ ∀ (name : List Char) (n : Nat), attributeComponents name = .ok n → IsKnownVector name n := by
  have haccepted : attributeComponents "vec03".toList = .ok 3 := by decide +kernel
  have hnone : Format.ofGlslType? "vec03".toList .std430 = none := by decide +kernel
  intro h
  obtain ⟨-, format, -, -, hformat, -⟩ := h _ _ haccepted
  rw [hnone] at hformat
  cases hformat

end GpuScript
