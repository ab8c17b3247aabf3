import GpuScript.Proofs.BufferCalls
import Mathlib.Data.Finset.Card
import Mathlib.Order.Bounds.Basic

/-!
# Exact comparison

Buffers of one shape compare as equal exactly if they have the same bytes. If they do not, the error
has the number of places at which they differ, the first of these places and the bytes that stand
there, and the comparison the other way round has them exchanged. Of buffers of different shapes the
error names the first part of the shape that they do not have in common.
-/

namespace GpuScript

def differingPlaces (a b : List UInt8) : Finset Nat := {i ∈ Finset.range a.length | a[i]? ≠ b[i]?}

section DifferingBytes

variable {a b : List UInt8} {start : Nat}

theorem mem_differingBytes_iff {p : Nat × UInt8 × UInt8} :
    p ∈ differingBytes start a b ↔ ∃ i, p.1 = start + i ∧
      a[i]? = some p.2.1 ∧ b[i]? = some p.2.2 ∧ p.2.1 ≠ p.2.2 := by
  induction a generalizing b start with
  | nil => simp [differingBytes]
  | cons x a ih =>
    cases b with
    | nil => simp [differingBytes]
    | cons y b =>
      -- the pair at the front is the one with the index 0
      rw [← Nat.or_exists_add_one, differingBytes]
      simp only [Nat.add_zero, List.getElem?_cons_zero, List.getElem?_cons_succ, Option.some_inj,
        ← Nat.add_assoc, Nat.add_right_comm start _ 1, ← ih]
      split
      · next hxy =>
        refine (or_iff_right ?_).symm
        rintro ⟨-, hx, hy, hne⟩
        exact hne (hx.symm.trans (hxy.trans hy))
      · next hxy =>
        rw [List.mem_cons]
        refine or_congr_left ⟨?_, ?_⟩
        · rintro rfl
          exact ⟨rfl, rfl, rfl, hxy⟩
        · rintro ⟨hi, hx, hy, -⟩
          exact Prod.ext hi (Prod.ext hx.symm hy.symm)

theorem sublist_differingBytes (start : Nat) (a b : List UInt8) :
    ((differingBytes start a b).map Prod.fst).Sublist (List.range' start a.length) := by
  induction a generalizing b start with
  | nil => simp [differingBytes]
  | cons x a ih =>
    cases b with
    | nil => simp [differingBytes]
    | cons y b =>
      rw [differingBytes, List.length_cons, List.range'_succ]
      split
      · exact (ih _ _).cons _
      · exact (ih _ _).cons_cons _

theorem pairwise_differingBytes (start : Nat) (a b : List UInt8) :
    ((differingBytes start a b).map Prod.fst).Pairwise (· < ·) :=
  (List.pairwise_lt_range' (s := start) (n := a.length)).sublist (sublist_differingBytes start a b)

theorem differingBytes_swap (start : Nat) (a b : List UInt8) :
    differingBytes start b a = (differingBytes start a b).map fun p => (p.1, p.2.swap) := by
  induction a generalizing b start with
  | nil => cases b <;> rfl
  | cons x a ih =>
    cases b with
    | nil => rfl
    | cons y b =>
      simp only [differingBytes, ih, eq_comm (a := y)]
      split <;> rfl

theorem differingBytes_eq_nil_iff (start : Nat) (h : a.length = b.length) :
    differingBytes start a b = [] ↔ a = b := by
  induction a generalizing b start with
  | nil => simp [differingBytes, List.length_eq_zero_iff.1 h.symm]
  | cons x a ih =>
    cases b with
    | nil => cases h
    | cons y b =>
      rw [differingBytes, List.cons_eq_cons]
      split
      · next hxy => rw [ih _ (Nat.succ.inj h), and_iff_right hxy]
      · next hxy => exact iff_of_false (List.cons_ne_nil _ _) fun heq => hxy heq.1

theorem toFinset_differingBytes (h : a.length = b.length) :
    ((differingBytes 0 a b).map Prod.fst).toFinset = differingPlaces a b := by
  ext i
  rw [List.mem_toFinset, List.mem_map, differingPlaces, Finset.mem_filter, Finset.mem_range]
  constructor
  · rintro ⟨p, hp, rfl⟩
    obtain ⟨i, hi, ha, hb, hne⟩ := mem_differingBytes_iff.1 hp
    rw [hi, Nat.zero_add, ha, hb]
    exact ⟨(List.getElem?_eq_some_iff.1 ha).1, fun heq => hne (Option.some.inj heq)⟩
  · rintro ⟨hlt, hne⟩
    have ha := List.getElem?_eq_getElem hlt
    have hb := List.getElem?_eq_getElem (h ▸ hlt)
    rw [ha, hb] at hne
    exact ⟨(i, _, _), mem_differingBytes_iff.2 ⟨i, (Nat.zero_add i).symm, ha, hb,
      fun heq => hne (congrArg some heq)⟩, rfl⟩

theorem length_differingBytes (h : a.length = b.length) :
    (differingBytes 0 a b).length = (differingPlaces a b).card := by
  have hnodup := (pairwise_differingBytes 0 a b).imp fun h => Nat.ne_of_lt h
  rw [← toFinset_differingBytes h, List.toFinset_card_of_nodup hnodup, List.length_map]

theorem isLeast_of_differingBytes (h : a.length = b.length) {p : Nat × UInt8 × UInt8}
    {rest : List (Nat × UInt8 × UInt8)} (hp : differingBytes 0 a b = p :: rest) :
    IsLeast (differingPlaces a b : Set Nat) p.1 := by
  have hplaces := toFinset_differingBytes h
  have hpairwise := pairwise_differingBytes 0 a b
  rw [hp, List.map_cons] at hplaces hpairwise
  rw [← hplaces]
  refine ⟨by simp, ?_⟩
  intro i hi
  rcases List.mem_cons.1 (List.mem_toFinset.1 hi) with rfl | hi
  · exact Nat.le_refl _
  · exact Nat.le_of_lt (List.rel_of_pairwise_cons hpairwise hi)

end DifferingBytes

/-- What the shape of a buffer consists of. -/
inductive ShapePart | format | size | width | height
  deriving DecidableEq

namespace ShapePart

def error : ShapePart → BufferError
  | format => .differentFormat
  | size => .differentSize
  | width => .differentWidth
  | height => .differentHeight

theorem error_ne (part : ShapePart) : part.error ≠ .differentValueCount ∧
    ∀ count index left right, part.error ≠ .valuesDiffer count index left right := by
  cases part <;> simp [error]

/-- Whether two buffers have a part in common. -/
def Agrees (a b : Buffer) : ShapePart → Prop
  | format => a.format.sameLayout b.format = true
  | size => a.elementCount = b.elementCount
  | width => a.width = b.width
  | height => a.height = b.height

instance (a b : Buffer) : DecidablePred (Agrees a b)
  | format => inferInstanceAs (Decidable (a.format.sameLayout b.format = true))
  | size => inferInstanceAs (Decidable (a.elementCount = b.elementCount))
  | width => inferInstanceAs (Decidable (a.width = b.width))
  | height => inferInstanceAs (Decidable (a.height = b.height))

theorem agrees_comm {a b : Buffer} {part : ShapePart} : part.Agrees a b ↔ part.Agrees b a := by
  cases part with
  | format => rw [Agrees, Agrees, Format.sameLayout_comm]
  | size | width | height => exact eq_comm

/-- The first part, in an order, that two buffers do not have in common. -/
def firstMismatch? (order : List ShapePart) (a b : Buffer) : Option ShapePart :=
  order.find? fun part => ¬ part.Agrees a b

@[simp] theorem firstMismatch?_nil (a b : Buffer) : firstMismatch? [] a b = none := rfl

theorem firstMismatch?_cons (part : ShapePart) (order : List ShapePart) (a b : Buffer) :
    firstMismatch? (part :: order) a b =
      if part.Agrees a b then firstMismatch? order a b else some part := by
  rw [firstMismatch?, List.find?_cons, firstMismatch?]
  by_cases h : part.Agrees a b <;> simp [h]

end ShapePart

namespace Buffer

variable {a b : Buffer}

/-- Whether two buffers have every part of their shape in common. -/
def SameShape (a b : Buffer) : Prop := ∀ part : ShapePart, part.Agrees a b

theorem SameShape.symm (h : a.SameShape b) : b.SameShape a :=
  fun part => ShapePart.agrees_comm.1 (h part)

theorem sameShape_iff : a.SameShape b ↔ a.format.sameLayout b.format = true ∧
    a.elementCount = b.elementCount ∧ a.width = b.width ∧ a.height = b.height := by
  constructor
  · intro h
    exact ⟨h .format, h .size, h .width, h .height⟩
  · rintro ⟨hformat, hsize, hwidth, hheight⟩ (_ | _ | _ | _)
    exacts [hformat, hsize, hwidth, hheight]

theorem firstMismatch?_eq_none_iff {order : List ShapePart} (horder : ∀ part, part ∈ order) :
    ShapePart.firstMismatch? order a b = none ↔ a.SameShape b := by
  simp [ShapePart.firstMismatch?, SameShape, horder]

/-- The order in which the parts of two shapes are compared. -/
def compareOrder : List ShapePart := [.format, .size, .width, .height]

theorem mem_compareOrder (part : ShapePart) : part ∈ compareOrder := by cases part <;> decide

theorem checkShape_eq (a b : Buffer) :
    a.checkShape b = match ShapePart.firstMismatch? compareOrder a b with
      | none => .ok ()
      | some part => .error part.error := by
  simp only [checkShape, compareOrder, ShapePart.firstMismatch?_cons]
  grind [ShapePart.Agrees, ShapePart.error, ShapePart.firstMismatch?_nil]

theorem checkEqual_of_mismatch {part : ShapePart}
    (h : ShapePart.firstMismatch? compareOrder a b = some part) :
    a.checkEqual b = .error part.error := by
  rw [checkEqual, checkShape_eq, h]
  rfl

theorem checkEqual_of_sameShape (ha : a.bytes.length = a.size) (hb : b.bytes.length = b.size)
    (h : a.SameShape b) :
    a.checkEqual b = match differingBytes 0 a.bytes b.bytes with
      | [] => .ok ()
      | (index, left, right) :: rest =>
        .error (.valuesDiffer (rest.length + 1) index left right) := by
  have hshape : a.checkShape b = .ok () := checkShape_eq_ok_iff.2 (sameShape_iff.1 h)
  have hlength := length_eq_of_checkShape ha hb hshape
  rw [checkEqual, hshape]
  exact if_neg (not_not_intro hlength)

theorem exists_firstMismatch (h : ¬ a.SameShape b) :
    ∃ part, ShapePart.firstMismatch? compareOrder a b = some part :=
  Option.ne_none_iff_exists'.1 (mt (firstMismatch?_eq_none_iff mem_compareOrder).1 h)

theorem exists_shapeError_iff :
    (∃ part : ShapePart, a.checkEqual b = .error part.error) ↔ ¬ a.SameShape b := by
  constructor
  · rintro ⟨part, hpart⟩ hshape
    obtain ⟨hcount, hvalues⟩ := part.error_ne
    rw [checkEqual, checkShape_eq_ok_iff.2 (sameShape_iff.1 hshape)] at hpart
    simp only [bind, Except.bind] at hpart
    split at hpart
    · exact hcount (Except.error.inj hpart).symm
    · split at hpart
      · cases hpart
      · exact hvalues _ _ _ _ (Except.error.inj hpart).symm
  · intro hshape
    obtain ⟨part, hpart⟩ := exists_firstMismatch hshape
    exact ⟨part, checkEqual_of_mismatch hpart⟩

theorem checkEqual_eq_ok_iff (ha : a.bytes.length = a.size) (hb : b.bytes.length = b.size) :
    a.checkEqual b = .ok () ↔ a.SameShape b ∧ a.bytes = b.bytes := by
  by_cases hshape : a.SameShape b
  · have hlength := length_eq_of_checkShape ha hb (checkShape_eq_ok_iff.2 (sameShape_iff.1 hshape))
    rw [checkEqual_of_sameShape ha hb hshape, and_iff_right hshape,
      ← differingBytes_eq_nil_iff 0 hlength]
    split
    · next hnil => exact iff_of_true rfl hnil
    · next hcons => exact iff_of_false nofun (hcons ▸ List.cons_ne_nil _ _)
  · obtain ⟨part, hpart⟩ := exists_firstMismatch hshape
    rw [checkEqual_of_mismatch hpart]
    exact iff_of_false nofun fun h => hshape h.1

/-- Buffers of one shape with other bytes are told apart by the first of these, and so the other way
round. -/
theorem exists_checkEqual_of_ne (ha : a.bytes.length = a.size) (hb : b.bytes.length = b.size)
    (hshape : a.SameShape b) (hne : a.bytes ≠ b.bytes) :
    ∃ count index left right, count = (differingPlaces a.bytes b.bytes).card ∧ 1 ≤ count ∧
      IsLeast (differingPlaces a.bytes b.bytes : Set Nat) index ∧
      a.bytes[index]? = some left ∧ b.bytes[index]? = some right ∧
      a.checkEqual b = .error (.valuesDiffer count index left right) ∧
      b.checkEqual a = .error (.valuesDiffer count index right left) := by
  have hlength := length_eq_of_checkShape ha hb (checkShape_eq_ok_iff.2 (sameShape_iff.1 hshape))
  have hsome : differingBytes 0 a.bytes b.bytes ≠ [] :=
    fun hnil => hne ((differingBytes_eq_nil_iff 0 hlength).1 hnil)
  obtain ⟨⟨index, left, right⟩, rest, hfirst⟩ := List.exists_cons_of_ne_nil hsome
  obtain ⟨i, hi, hleft, hright, -⟩ := mem_differingBytes_iff.1
    (hfirst ▸ List.mem_cons_self : (index, left, right) ∈ differingBytes 0 a.bytes b.bytes)
  obtain rfl : index = i := by simpa using hi
  have hcount : rest.length + 1 = (differingPlaces a.bytes b.bytes).card := by
    rw [← length_differingBytes hlength, hfirst, List.length_cons]
  refine ⟨_, index, left, right, hcount, Nat.le_add_left ..,
    isLeast_of_differingBytes hlength hfirst, hleft, hright, ?_, ?_⟩
  · rw [checkEqual_of_sameShape ha hb hshape, hfirst]
  · rw [checkEqual_of_sameShape hb ha hshape.symm, differingBytes_swap, hfirst, List.map_cons]
    simp

/-- Two buffers compare as equal exactly if their formats, element counts, widths, heights and bytes
are the same. If they have the same shape and other bytes, the error tells at how many places the
bytes differ, the least of these places and the bytes there, and the same with the bytes exchanged
the other way round. If they have other shapes, the error names the first part in which these
differ. -/
theorem checkEqual_first_difference (ha : a.bytes.length = a.size)
    (hb : b.bytes.length = b.size) :
    (a.checkEqual b = .ok () ↔
      a.format.sameLayout b.format = true ∧ a.elementCount = b.elementCount ∧
        a.width = b.width ∧ a.height = b.height ∧ a.bytes = b.bytes) ∧
    (a.SameShape b → a.bytes ≠ b.bytes → ∃ count index left right,
      count = (differingPlaces a.bytes b.bytes).card ∧ 1 ≤ count ∧
      IsLeast (differingPlaces a.bytes b.bytes : Set Nat) index ∧
      a.bytes[index]? = some left ∧ b.bytes[index]? = some right ∧
      a.checkEqual b = .error (.valuesDiffer count index left right) ∧
      b.checkEqual a = .error (.valuesDiffer count index right left)) ∧
    (¬ a.SameShape b → ∃ part,
      ShapePart.firstMismatch? [.format, .size, .width, .height] a b = some part ∧
      a.checkEqual b = .error part.error) := by
  refine ⟨?_, exists_checkEqual_of_ne ha hb, ?_⟩
  · rw [checkEqual_eq_ok_iff ha hb, sameShape_iff]
    simp only [and_assoc]
  · intro hshape
    obtain ⟨part, hpart⟩ := exists_firstMismatch hshape
    exact ⟨part, hpart, checkEqual_of_mismatch hpart⟩

/-- Elements of two bytes: three of them that differ at two places, and two of another width. -/
theorem checkEqual_first_difference_of_pairs :
    ∃ a b c : Buffer, Format.ofName? "R8G8_UINT" = some a.format ∧
      a.bytes = [1, 2, 3, 4, 5, 6] ∧ b = { a with bytes := [1, 7, 3, 9, 5, 6] } ∧
      c = { a with bytes := [1, 2, 3, 4], elementCount := 2, width := 5 } ∧
      a.bytes.length = a.size ∧ b.bytes.length = b.size ∧ c.bytes.length = c.size ∧
      a.SameShape b ∧ a.checkEqual b = .error (.valuesDiffer 2 1 2 7) ∧
      b.checkEqual a = .error (.valuesDiffer 2 1 7 2) ∧
      ¬ a.SameShape c ∧ a.checkEqual c = .error .differentSize := by
  let f : Format :=
    { name := some "R8G8_UINT", packedSize := none
      parts := [⟨.r, 8, .uint⟩, ⟨.g, 8, .uint⟩]
      segments := List.replicate 2 (.component .uint .uint8)
      scalarsOf_ne_nil := by decide }
  let a : Buffer := { ofFormat .storage f with bytes := [1, 2, 3, 4, 5, 6], elementCount := 3 }
  let b : Buffer := { a with bytes := [1, 7, 3, 9, 5, 6] }
  let c : Buffer := { a with bytes := [1, 2, 3, 4], elementCount := 2, width := 5 }
  have ha : a.bytes.length = a.size := by decide
  have hb : b.bytes.length = b.size := by decide
  have hc : c.bytes.length = c.size := by decide
  have hab : a.SameShape b := sameShape_iff.2 (by decide)
  have hac : ¬ a.SameShape c := fun h => absurd (h .size) (by decide)
  obtain ⟨-, hdiffer, -⟩ := checkEqual_first_difference ha hb
  obtain ⟨-, -, hmismatch⟩ := checkEqual_first_difference ha hc
  obtain ⟨_, index, left, right, rfl, -, hleast, hleft, hright, hforth, hback⟩ :=
    hdiffer hab (by decide)
  have hplaces : differingPlaces a.bytes b.bytes = {1, 3} := by decide
  rw [hplaces] at hleast hforth hback
  obtain rfl : index = 1 := hleast.unique ⟨by simp, by simp [lowerBounds]⟩
  cases hleft
  cases hright
  obtain ⟨part, hpart, herror⟩ := hmismatch hac
  cases hpart.symm.trans (by decide : _ = some ShapePart.size)
  exact ⟨a, b, c, by decide +kernel, rfl, rfl, rfl, ha, hb, hc, hab, hforth, hback, hac, herror⟩

end Buffer

end GpuScript
