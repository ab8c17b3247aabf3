import GpuScript.Proofs.ExactComparison

/-!
# Copied buffers

A buffer is copied to another one exactly if an exact comparison finds no difference in their
shapes, though the two look at the parts of the shape in different orders. The copy then compares as
equal, holds the same values and has kept everything but its bytes. The parts are looked at before
the first change, so that a copy that is refused has changed nothing.
-/

namespace GpuScript

/-- The order in which the parts of two shapes are looked at for a copy. -/
def copyOrder : List ShapePart := [.format, .width, .height, .size]

theorem mem_copyOrder (part : ShapePart) : part ∈ copyOrder := by cases part <;> decide

namespace ShapePart

/-- Stops unless the buffer in place has a part in common with another one. -/
def demand (source : Buffer) (part : ShapePart) : EStateM BufferError Buffer Unit := do
  unless part.Agrees (← get) source do throw part.error

theorem run_demand (source target : Buffer) (part : ShapePart) :
    (demand source part).run target =
      if part.Agrees target source then .ok () target else .error part.error target := by
  simp only [demand, EStateM.run_bind, EStateM.run_get]
  split <;> rfl

theorem run_forM_demand (source target : Buffer) (order : List ShapePart) :
    (forM order (demand source)).run target =
      match firstMismatch? order target source with
      | none => .ok () target
      | some part => .error part.error target := by
  induction order with
  | nil => rfl
  | cons part order ih =>
    rw [List.forM_cons, EStateM.run_bind, run_demand, firstMismatch?_cons]
    by_cases h : part.Agrees target source
    · rw [if_pos h, if_pos h]
      exact ih
    · rw [if_neg h, if_neg h]

end ShapePart

namespace Buffer

variable {source target : Buffer}

/-- Copies the bytes of a buffer to the one in place. -/
def copyInPlace (source : Buffer) : EStateM BufferError Buffer Unit := do
  forM copyOrder (ShapePart.demand source)
  modify fun target => { target with bytes := source.bytes }

theorem copyTo_eq (source target : Buffer) :
    source.copyTo target = match ShapePart.firstMismatch? copyOrder target source with
      | none => .ok { target with bytes := source.bytes }
      | some part => .error part.error := by
  simp only [copyTo, copyOrder, ShapePart.firstMismatch?_cons]
  grind [ShapePart.Agrees, ShapePart.error, ShapePart.firstMismatch?_nil]

theorem run_copyInPlace (source target : Buffer) :
    (copyInPlace source).run target = match source.copyTo target with
      | .ok new => .ok () new
      | .error cause => .error cause target := by
  rw [copyInPlace, EStateM.run_bind, ShapePart.run_forM_demand, copyTo_eq]
  cases ShapePart.firstMismatch? copyOrder target source <;> rfl

theorem exists_copyTo_iff :
    (∃ new, source.copyTo target = .ok new) ↔ source.SameShape target := by
  have hnone := firstMismatch?_eq_none_iff (a := target) (b := source) mem_copyOrder
  rw [copyTo_eq]
  cases hfirst : ShapePart.firstMismatch? copyOrder target source with
  | none => exact iff_of_true ⟨_, rfl⟩ (hnone.1 hfirst).symm
  | some part => exact iff_of_false nofun fun h => nomatch hfirst.symm.trans (hnone.2 h.symm)

theorem values_of_copyTo {new : Buffer} (h : source.copyTo target = .ok new) :
    new.values = source.values := by
  obtain ⟨hlayout, -, -, hcount, rfl⟩ := copyTo_eq_ok_iff.1 h
  simp only [values, hcount, Format.components_congr (Format.segments_eq_of_sameLayout hlayout)]

theorem sameShape_of_copyTo {new : Buffer} (h : source.copyTo target = .ok new) :
    source.SameShape new := by
  have hshape := sameShape_iff.1 (exists_copyTo_iff.1 ⟨new, h⟩)
  obtain ⟨-, -, -, -, rfl⟩ := copyTo_eq_ok_iff.1 h
  exact sameShape_iff.2 hshape

/-- A copy is made exactly if the buffers are of one shape, which is if comparing them names no part
of it. The copy compares as equal, holds the same values and differs from the target in its bytes
alone, and a target that is refused stays as it was. -/
theorem checkEqual_of_copyTo (hsource : source.bytes.length = source.size) (target : Buffer) :
    ((∃ new, source.copyTo target = .ok new) ↔
      source.format.sameLayout target.format = true ∧
        source.elementCount = target.elementCount ∧ source.width = target.width ∧
        source.height = target.height) ∧
    ((∃ new, source.copyTo target = .ok new) ↔
      ¬ ∃ part : ShapePart, source.checkEqual target = .error part.error) ∧
    (∀ new, source.copyTo target = .ok new →
      (copyInPlace source).run target = .ok () new ∧ source.checkEqual new = .ok () ∧
      (∃ values, source.values = .ok values ∧ new.values = .ok values) ∧
      new = { target with bytes := new.bytes }) ∧
    ∀ cause, source.copyTo target = .error cause →
      (copyInPlace source).run target = .error cause target := by
  refine ⟨?_, ?_, ?_, ?_⟩
  · rw [exists_copyTo_iff, sameShape_iff]
  · rw [exists_copyTo_iff, exists_shapeError_iff, not_not]
  · intro new hnew
    refine ⟨by rw [run_copyInPlace, hnew], ?_, ?_, ?_⟩
    · have hlength := length_copyTo hsource hnew
      refine (checkEqual_eq_ok_iff hsource hlength).2 ⟨sameShape_of_copyTo hnew, ?_⟩
      obtain ⟨-, -, -, -, rfl⟩ := copyTo_eq_ok_iff.1 hnew
      rfl
    · exact ⟨_, values_eq hsource, (values_of_copyTo hnew).trans (values_eq hsource)⟩
    · obtain ⟨-, -, -, -, rfl⟩ := copyTo_eq_ok_iff.1 hnew
      rfl
  · intro cause hcause
    rw [run_copyInPlace, hcause]

/-- Elements of the same bytes for colours in another order, and a target of another size and
width, of which a copy names the width and a comparison the size. -/
theorem checkEqual_of_copyTo_reordered :
    ∃ source target other : Buffer, Format.ofName? "R8G8B8_UINT" = some source.format ∧
      Format.ofName? "B8G8R8_UINT" = some target.format ∧ source.format ≠ target.format ∧
      source.bytes = [1, 2, 3, 4, 5, 6] ∧ target.bytes = [9, 9, 9, 9, 9, 9] ∧
      other = { target with bytes := [9, 9, 9], elementCount := 1, width := 5 } ∧
      source.bytes.length = source.size ∧
      (∃ new, source.copyTo target = .ok new ∧ (copyInPlace source).run target = .ok () new ∧
        source.checkEqual new = .ok () ∧
        (∃ values, source.values = .ok values ∧ new.values = .ok values) ∧
        new = { target with bytes := new.bytes }) ∧
      source.copyTo other = .error .differentWidth ∧
      source.checkEqual other = .error .differentSize ∧
      (copyInPlace source).run other = .error .differentWidth other := by
  let source : Buffer :=
    { ofFormat .storage
        { name := some "R8G8B8_UINT", packedSize := none
          parts := [⟨.r, 8, .uint⟩, ⟨.g, 8, .uint⟩, ⟨.b, 8, .uint⟩]
          segments := List.replicate 3 (.component .uint .uint8)
          scalarsOf_ne_nil := by decide } with
      bytes := [1, 2, 3, 4, 5, 6], elementCount := 2 }
  let target : Buffer :=
    { ofFormat .uniform
        { name := some "B8G8R8_UINT", packedSize := none
          parts := [⟨.b, 8, .uint⟩, ⟨.g, 8, .uint⟩, ⟨.r, 8, .uint⟩]
          segments := List.replicate 3 (.component .uint .uint8)
          scalarsOf_ne_nil := by decide } with
      bytes := [9, 9, 9, 9, 9, 9], elementCount := 2 }
  let other : Buffer := { target with bytes := [9, 9, 9], elementCount := 1, width := 5 }
  have hsource : source.bytes.length = source.size := by decide
  obtain ⟨hsame, -, hcopy, -⟩ := checkEqual_of_copyTo hsource target
  obtain ⟨-, -, -, hrefused⟩ := checkEqual_of_copyTo hsource other
  obtain ⟨new, hnew⟩ := hsame.2 (by decide)
  have hother : source.copyTo other = .error .differentWidth := by decide
  exact ⟨source, target, other, by decide +kernel, by decide +kernel, by decide, rfl, rfl, rfl,
    hsource, ⟨new, hnew, hcopy new hnew⟩, hother, by decide, hrefused _ hother⟩

end Buffer

end GpuScript
