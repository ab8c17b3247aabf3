import GpuScript.Proofs.LoadingRun

/-!
# Kept columns

Only the rows of vertex data change the buffers of vertex data, and no line after the header of the
data starts it anew. So a line that is not a row leaves every column as it is.
-/

namespace GpuScript

/-- Whether the buffers of vertex data in a table are also in another one. -/
def KeepsVertex (old new : List Buffer) : Prop :=
  ∀ (i : Nat) (b : Buffer), old[i]? = some b → b.kind = .vertex → new[i]? = some b

namespace KeepsVertex

variable {buffers new : List Buffer}

theorem refl (buffers : List Buffer) : KeepsVertex buffers buffers := fun _ _ h _ => h

theorem set {i : Nat} {old : Buffer} (hi : buffers[i]? = some old) (hkind : old.kind ≠ .vertex)
    (b : Buffer) : KeepsVertex buffers (buffers.set i b) := by
  intro j c hj hvertex
  have hne : i ≠ j := by
    rintro rfl
    rw [hi] at hj
    cases hj
    exact hkind hvertex
  rw [List.getElem?_set_ne hne, hj]

theorem append (buffers more : List Buffer) : KeepsVertex buffers (buffers ++ more) := by
  intro i b hi _
  rw [List.getElem?_append_left (List.getElem?_eq_some_iff.1 hi).1, hi]

theorem map {change : Buffer → Buffer} (h : ∀ b : Buffer, b.kind = .vertex → change b = b) :
    KeepsVertex buffers (buffers.map change) := by
  intro i b hi hkind
  rw [List.getElem?_map, hi, Option.map_some, h b hkind]

theorem put (hvalid : ValidTable buffers) {binding : Binding} {b : Buffer}
    (hbinding : b.binding = some binding) :
    KeepsVertex buffers (putAt buffers (bindingIndex buffers binding) b) := by
  intro i c hc hkind
  have hunbound := hvalid.binding_eq_none hc (by simp [hkind, BufferKind.IsBound])
  exact (getElem?_put_eq_some_iff hbinding (by simp [hunbound]) i).2 hc

end KeepsVertex

theorem IsColumn.keepsVertex {buffers new : List Buffer} {i : Nat} {format : Format}
    (h : IsColumn buffers i format) (hkeeps : KeepsVertex buffers new) : IsColumn new i format := by
  obtain ⟨b, hb, hkind, hformat⟩ := h
  exact ⟨b, hkeeps i b hb hkind, hkind, hformat⟩

section Tables

variable {buffers new : List Buffer}

theorem keepsVertex_of_updateAt {i : Nat}
    {change : Buffer → Except (Failure BufferError) Buffer}
    (h : updateAt buffers i change = .ok new)
    (hkind : ∀ b, buffers[i]? = some b → b.kind ≠ .vertex) : KeepsVertex buffers new := by
  obtain ⟨b, c, hb, -, rfl⟩ := exists_of_updateAt h
  exact .set hb (hkind b hb) c

theorem kind_of_indexOfKind? {kind : BufferKind} {i : Nat} (h : indexOfKind? buffers kind = some i)
    (b : Buffer) (hb : buffers[i]? = some b) : b.kind = kind := by
  obtain ⟨c, hc, hkind⟩ := exists_of_findIdx?_eq_some h
  rw [hc] at hb
  cases hb
  exact of_decide_eq_true hkind

theorem keepsVertex_of_setDepthFormat {format : Format}
    (h : setDepthFormat buffers format = .ok new) : KeepsVertex buffers new := by
  unfold setDepthFormat at h
  split at h
  · next i hi =>
    refine keepsVertex_of_updateAt h fun b hb => ?_
    rw [kind_of_indexOfKind? hi b hb]
    decide
  · obtain ⟨color, -, h⟩ := exists_of_bind_eq_ok h
    cases h
    exact .append _ _

theorem keepsVertex_of_appendIndices {values : List Value}
    (h : appendIndices buffers values = .ok new) : KeepsVertex buffers new := by
  unfold appendIndices at h
  split at h
  · next i hi =>
    refine keepsVertex_of_updateAt h fun b hb => ?_
    rw [kind_of_indexOfKind? hi b hb]
    decide
  · obtain ⟨format, -, h⟩ := exists_of_bind_eq_ok h
    obtain ⟨b, c, hb, -, rfl⟩ := exists_of_updateAt h
    intro i x hx hkind
    have hlt := (List.getElem?_eq_some_iff.1 hx).1
    rw [List.getElem?_set_ne (Nat.ne_of_gt hlt), List.getElem?_append_left hlt, hx]

theorem keepsVertex_of_runTestLine (hvalid : ValidTable buffers) {line : TestLine}
    (hread : line.WellRead) {operation? : Option Operation}
    (h : runTestLine line buffers = .ok (new, operation?)) : KeepsVertex buffers new := by
  cases (ensures_runTestLine hread).property_of_eq_ok h with
  | clear operation => exact .refl _
  | bound hbinding hstep =>
    exact .put hvalid (hstep.binding_eq hbinding fun _ => binding_of_getElem?_bindingIndex)

end Tables

namespace Loading

/-- Whether a state has the columns of another one. -/
structure KeepsColumns (old new : Loading) : Prop where
  buffers : KeepsVertex old.script.buffers new.script.buffers
  vertexData : new.vertexData = old.vertexData

variable {state new : Loading}

theorem KeepsColumns.of_eq (hbuffers : new.script.buffers = state.script.buffers)
    (hdata : new.vertexData = state.vertexData) : state.KeepsColumns new := by
  refine ⟨?_, hdata⟩
  rw [hbuffers]
  exact .refl _

theorem keepsColumns_of_takeHeader {text : List Char} (hdata : state.vertexData ≠ .absent)
    (h : state.takeHeader text = .ok new) : state.KeepsColumns new := by
  obtain ⟨header, -, h⟩ := exists_of_bind_eq_ok h
  have hkeeps := keepsScript_of_header (orInvalid_eq_ok_iff.1 h)
  refine .of_eq hkeeps.buffers (hkeeps.vertexData.resolve_right ?_)
  rintro ⟨habsent, -⟩
  exact hdata habsent

theorem keepsColumns_of_takeRequireLine (hvalid : ValidTable state.script.buffers)
    {line : List Char} (h : state.takeRequireLine line = .ok new) : state.KeepsColumns new := by
  obtain ⟨asked, -, h⟩ := exists_of_bind_eq_ok h
  cases asked with
  | none =>
    cases h
    exact .of_eq rfl rfl
  | some asked =>
    cases asked with
    | framebuffer format =>
      obtain ⟨buffers, hbuffers, h⟩ := exists_of_bind_eq_ok h
      cases h
      obtain ⟨color, hcolor, hkind⟩ := hvalid.color
      refine ⟨keepsVertex_of_updateAt hbuffers fun b hb => ?_, rfl⟩
      rw [hcolor] at hb
      cases hb
      simp [hkind]
    | depthStencil format =>
      obtain ⟨buffers, hbuffers, h⟩ := exists_of_bind_eq_ok h
      cases h
      exact ⟨keepsVertex_of_setDepthFormat hbuffers, rfl⟩
    | framebufferSize width height =>
      cases h
      exact ⟨.map fun b hb => if_neg (by simp [hb]), rfl⟩
    | fenceTimeout | requirement =>
      cases h
      exact .of_eq rfl rfl

theorem keepsColumns_of_takeIndexLine {line : List Char} (h : state.takeIndexLine line = .ok new) :
    state.KeepsColumns new := by
  unfold takeIndexLine at h
  split at h
  · cases h
    exact .of_eq rfl rfl
  · obtain ⟨values, -, h⟩ := exists_of_bind_eq_ok h
    obtain ⟨buffers, hbuffers, h⟩ := exists_of_bind_eq_ok h
    cases h
    exact ⟨keepsVertex_of_appendIndices hbuffers, rfl⟩

theorem keepsColumns_of_takeTestLine (hvalid : ValidTable state.script.buffers) {number : Nat}
    {line : List Char} (h : state.takeTestLine number line = .ok new) : state.KeepsColumns new := by
  obtain ⟨asked, hasked, h⟩ := exists_of_bind_eq_ok h
  cases asked with
  | none =>
    cases h
    exact .of_eq rfl rfl
  | some asked =>
    obtain ⟨⟨buffers, operation?⟩, hbuffers, h⟩ := exists_of_bind_eq_ok h
    cases h
    have hread := wellRead_of_readTestLine (orInvalid_eq_ok_iff.1 hasked)
    exact ⟨keepsVertex_of_runTestLine hvalid hread hbuffers, rfl⟩

theorem keepsColumns_of_takeBodyLine (hvalid : ValidTable state.script.buffers)
    (hcurrent : state.current ≠ .vertexData) {number : Nat} {line : List Char}
    (h : state.takeBodyLine number line = .ok new) : state.KeepsColumns new := by
  unfold takeBodyLine at h
  split at h
  · split at h
    · cases h
      exact .of_eq rfl rfl
    · cases h
  · cases h
    exact .of_eq rfl rfl
  · exact keepsColumns_of_takeRequireLine hvalid h
  · obtain ⟨body, -, h⟩ := exists_of_bind_eq_ok h
    cases h
    exact .of_eq rfl rfl
  · next hvertex => exact (hcurrent hvertex).elim
  · exact keepsColumns_of_takeIndexLine h
  · exact keepsColumns_of_takeTestLine hvalid h

end Loading

end GpuScript
