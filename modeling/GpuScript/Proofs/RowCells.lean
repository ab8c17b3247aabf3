import GpuScript.Proofs.StorableValues
import GpuScript.VertexData
import Mathlib.Algebra.Ring.Nat
import Mathlib.Data.List.SplitLengths

/-!
# Cells of a row

A row of vertex data is read if it has a cell for each component of its columns, in order, and none
besides. The values of the cells are dealt out to the columns by the number of components of each.
-/

namespace GpuScript

/-- The components that the cells of a row are for, each with whether it is a packed word. -/
def rowComponents (formats : List Format) : List (Bool × Scalar) :=
  formats.flatMap fun format => format.scalars.map fun scalar => (format.isPacked, scalar)

/-- Whether a word stands for a value of a component. Base sixteen is for packed words only. -/
def IsCell (component : Bool × Scalar) (word : List Char) (value : Value) : Prop :=
  (component.1 = true ∨ isHexLiteral word = false) ∧
    Value.ofToken? component.2 word = some value

/-- Whether words stand for values of components, one for each. -/
inductive AreCells : List (Bool × Scalar) → List (List Char) → List Value → Prop
  | nil : AreCells [] [] []
  | cons {component : Bool × Scalar} {word : List Char} {value : Value}
      {components : List (Bool × Scalar)} {words : List (List Char)} {values : List Value}
      (hcell : IsCell component word value) (hcells : AreCells components words values) :
      AreCells (component :: components) (word :: words) (value :: values)

namespace AreCells

variable {a b : List (Bool × Scalar)} {s t : List (List Char)} {x y : List Value}

theorem append (h : AreCells a s x) (h' : AreCells b t y) :
    AreCells (a ++ b) (s ++ t) (x ++ y) := by
  induction h with
  | nil => exact h'
  | cons hcell _ ih => exact .cons hcell ih

theorem exists_append (h : AreCells (a ++ b) s (x ++ y)) (hlength : x.length = a.length) :
    ∃ front back, s = front ++ back ∧ AreCells a front x ∧ AreCells b back y := by
  induction a generalizing s x with
  | nil =>
    rw [List.length_eq_zero_iff.1 hlength] at h ⊢
    exact ⟨[], s, rfl, .nil, h⟩
  | cons component a ih =>
    obtain ⟨value, x, rfl⟩ := List.exists_cons_of_length_eq_add_one hlength
    cases h with
    | cons hcell hcells =>
      obtain ⟨front, back, rfl, hfront, hback⟩ := ih hcells (Nat.succ.inj hlength)
      exact ⟨_ :: front, back, rfl, .cons hcell hfront, hback⟩

theorem length_eq (h : AreCells a s x) : x.length = a.length := by
  induction h with
  | nil => rfl
  | cons _ _ ih => exact congrArg (· + 1) ih

/-- Words stand for some values exactly if each one is a cell for its component. -/
theorem exists_iff : (∃ x, AreCells a s x) ↔
    List.Forall₂ (fun component word => ∃ value, IsCell component word value) a s := by
  constructor
  · rintro ⟨x, h⟩
    induction h with
    | nil => exact .nil
    | cons hcell _ ih => exact .cons ⟨_, hcell⟩ ih
  · intro h
    induction h with
    | nil => exact ⟨[], .nil⟩
    | cons hcell _ ih =>
      obtain ⟨value, hcell⟩ := hcell
      obtain ⟨x, hx⟩ := ih
      exact ⟨value :: x, .cons hcell hx⟩

end AreCells

theorem readCell_eq_ok_iff {packed : Bool} {scalar : Scalar} {word : List Char} {value : Value} :
    readCell packed scalar word = .ok value ↔ IsCell (packed, scalar) word value := by
  unfold readCell IsCell
  cases packed <;> cases isHexLiteral word <;> cases Value.ofToken? scalar word <;> simp

theorem readCells_eq_ok_iff {packed : Bool} {scalars : List Scalar}
    {words rest : List (List Char)} {values : List Value} :
    readCells packed scalars words = .ok (values, rest) ↔
      ∃ cells, words = cells ++ rest ∧
        AreCells (scalars.map fun scalar => (packed, scalar)) cells values := by
  induction scalars generalizing words values with
  | nil =>
    constructor
    · intro h
      cases h
      exact ⟨[], rfl, .nil⟩
    · rintro ⟨_, rfl, hcells⟩
      cases hcells
      rfl
  | cons scalar scalars ih =>
    constructor
    · intro h
      cases words with
      | nil => cases h
      | cons word words =>
        obtain ⟨value, hvalue, h⟩ := exists_of_bind_eq_ok h
        obtain ⟨⟨more, left⟩, hmore, h⟩ := exists_of_bind_eq_ok h
        cases h
        obtain ⟨cells, rfl, hcells⟩ := ih.1 hmore
        exact ⟨word :: cells, rfl, .cons (readCell_eq_ok_iff.1 hvalue) hcells⟩
    · rintro ⟨_, rfl, hcells⟩
      cases hcells with
      | cons hcell hcells =>
        rw [List.cons_append, readCells, readCell_eq_ok_iff.2 hcell, ih.2 ⟨_, rfl, hcells⟩]
        rfl

/-- Whether words are a row for columns of some formats, with some values for each of them. -/
structure IsRow (formats : List Format) (words : List (List Char)) (row : List (List Value)) :
    Prop where
  counts : row.map List.length = formats.map Format.valuesPerElement
  cells : AreCells (rowComponents formats) words row.flatten

theorem readRow_eq_ok_iff {formats : List Format} {words : List (List Char)}
    {row : List (List Value)} : readRow formats words = .ok row ↔ IsRow formats words row := by
  induction formats generalizing words row with
  | nil =>
    constructor
    · intro h
      cases words with
      | nil =>
        cases h
        exact ⟨rfl, .nil⟩
      | cons word words => cases h
    · rintro ⟨hcounts, hcells⟩
      rw [List.map_eq_nil_iff.1 hcounts] at hcells ⊢
      cases hcells
      rfl
  | cons format formats ih =>
    constructor
    · intro h
      obtain ⟨⟨values, rest⟩, hvalues, h⟩ := exists_of_bind_eq_ok h
      obtain ⟨more, hmore, h⟩ := exists_of_bind_eq_ok h
      cases h
      obtain ⟨cells, rfl, hcells⟩ := readCells_eq_ok_iff.1 hvalues
      obtain ⟨hcounts, hrest⟩ := ih.1 hmore
      refine ⟨congrArg₂ List.cons ?_ hcounts, hcells.append hrest⟩
      rw [hcells.length_eq, List.length_map, Format.valuesPerElement]
    · rintro ⟨hcounts, hcells⟩
      obtain ⟨values, more, rfl, hcount, hcounts⟩ := List.map_eq_cons_iff.1 hcounts
      obtain ⟨front, back, rfl, hfront, hback⟩ := hcells.exists_append (a := format.scalars.map _)
        (by rw [hcount, List.length_map, Format.valuesPerElement])
      have hread := readCells_eq_ok_iff.2 ⟨front, rfl (a := front ++ back), hfront⟩
      have hrest := ih.2 ⟨hcounts, hback⟩
      rw [readRow, hread]
      simp only [bind, Except.bind, hrest]
      rfl

theorem length_rowComponents (formats : List Format) :
    (rowComponents formats).length = (formats.map Format.valuesPerElement).sum := by
  rw [rowComponents, List.length_flatMap]
  simp only [List.length_map]
  rfl

/-- Words are a row exactly if there is one for each component and each is a cell for its own. -/
theorem exists_isRow_iff {formats : List Format} {words : List (List Char)} :
    (∃ row, IsRow formats words row) ↔
      words.length = (formats.map Format.valuesPerElement).sum ∧
        ∀ (k : Nat) (component : Bool × Scalar) (word : List Char),
          (rowComponents formats)[k]? = some component → words[k]? = some word →
            ∃ value, IsCell component word value := by
  have hrow : (∃ row, IsRow formats words row) ↔
      ∃ values, AreCells (rowComponents formats) words values := by
    constructor
    · rintro ⟨row, -, hcells⟩
      exact ⟨_, hcells⟩
    · rintro ⟨values, hcells⟩
      have hlength := hcells.length_eq.trans (length_rowComponents formats)
      refine ⟨(formats.map Format.valuesPerElement).splitLengths values, ?_, ?_⟩
      · exact List.map_splitLengths_length _ _ (Nat.le_of_eq hlength.symm)
      · rwa [List.flatten_splitLengths _ _ (Nat.le_of_eq hlength)]
  rw [hrow, AreCells.exists_iff, List.forall₂_iff_get, ← length_rowComponents, eq_comm]
  refine and_congr_right fun _ => ?_
  constructor
  · intro h k component word hcomponent hword
    obtain ⟨hk, rfl⟩ := List.getElem?_eq_some_iff.1 hcomponent
    obtain ⟨hk', rfl⟩ := List.getElem?_eq_some_iff.1 hword
    exact h k hk hk'
  · intro h k hk hk'
    exact h k _ _ (List.getElem?_eq_getElem hk) (List.getElem?_eq_getElem hk')

end GpuScript
