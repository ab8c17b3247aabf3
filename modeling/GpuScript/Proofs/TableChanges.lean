import GpuScript.Proofs.BoundBuffers
import GpuScript.Proofs.BufferCalls
import Mathlib.Logic.Relation

/-!
# Changes of the table of buffers

All that a line does to the table of buffers is a chain of changes of three forms: a buffer is
replaced by one that is for the same and no shorter, the framebuffer is given dimensions, or a buffer
is added at the end, for which the table has none of its role yet. What these keep, every line keeps.
-/

namespace GpuScript

/-- Whether a buffer is another one after a change in place. Bytes that are as many as the elements
need stay so, and there are no fewer. -/
structure Buffer.Revised (old new : Buffer) : Prop where
  kind : new.kind = old.kind
  location : new.location = old.location
  binding : new.binding = old.binding
  width : new.width = old.width
  height : new.height = old.height
  isDefault : new.formatIsDefault = true → old.formatIsDefault = true
  length : old.bytes.length = old.size →
    new.bytes.length = new.size ∧ old.bytes.length ≤ new.bytes.length

/-- A buffer that a table has room for: none of its kind or its binding is there yet, where one is
all there may be. -/
inductive Addition (buffers : List Buffer) : Buffer → Prop
  | depth (format : Format) {color : Buffer} (hcolor : buffers[0]? = some color)
      (hnone : indexOfKind? buffers .depth = none) :
      Addition buffers { Buffer.ofFormat .depth format with
        width := color.width, height := color.height }
  | index (format : Format) (hnone : indexOfKind? buffers .index = none) :
      Addition buffers (Buffer.ofFormat .index format)
  | column (column : Nat × Format) : Addition buffers (columnBuffer column)
  | bound {b : Buffer} {binding : Binding} (hkind : b.kind.IsBound)
      (hbinding : b.binding = some binding) (hlocation : b.location = none)
      (hlength : b.bytes.length = b.size) (hnone : indexOfBinding? buffers binding = none) :
      Addition buffers b

/-- Whether a table is another one after one change. -/
inductive TableChange : List Buffer → List Buffer → Prop
  | revise {buffers : List Buffer} {i : Nat} {old new : Buffer} (hold : buffers[i]? = some old)
      (h : old.Revised new) : TableChange buffers (buffers.set i new)
  | resize (buffers : List Buffer) (width height : Nat) :
      TableChange buffers (setFramebufferSize buffers width height)
  | add {buffers : List Buffer} {b : Buffer} (h : Addition buffers b) :
      TableChange buffers (buffers ++ [b])

def TableChanges : List Buffer → List Buffer → Prop := Relation.ReflTransGen TableChange

namespace Buffer

variable {a b c : Buffer}

namespace Revised

theorem refl (b : Buffer) : b.Revised b :=
  ⟨rfl, rfl, rfl, rfl, rfl, id, fun h => ⟨h, Nat.le_refl _⟩⟩

theorem trans (h : a.Revised b) (h' : b.Revised c) : a.Revised c := by
  refine ⟨h'.kind.trans h.kind, h'.location.trans h.location, h'.binding.trans h.binding,
    h'.width.trans h.width, h'.height.trans h.height, h.isDefault ∘ h'.isDefault, ?_⟩
  intro ha
  obtain ⟨hb, hab⟩ := h.length ha
  obtain ⟨hc, hbc⟩ := h'.length hb
  exact ⟨hc, Nat.le_trans hab hbc⟩

end Revised

theorem revised_setFormat (b : Buffer) (format : Format) : b.Revised (b.setFormat format) := by
  refine ⟨rfl, rfl, rfl, rfl, rfl, id, fun _ => ⟨length_setElementCount .., ?_⟩⟩
  rw [setFormat, length_setElementCount]
  exact format.le_elementsIn_mul _

theorem revised_of_ensureSize {bytes : Nat} (h : b.ensureSize bytes = .ok c) : b.Revised c := by
  rw [ensureSize_eq] at h
  cases h
  split
  · next hlt =>
    refine ⟨rfl, rfl, rfl, rfl, rfl, id, fun hb => ⟨length_setElementCount .., ?_⟩⟩
    rw [length_setElementCount, hb]
    exact Nat.mul_le_mul_right _ (Nat.le_of_lt hlt)
  · exact .refl b

theorem revised_of_setData {values : List Value} {offset : Nat}
    (h : b.setData values offset = .ok c) : b.Revised c := by
  have hlength := length_setData h
  obtain ⟨-, bytes, -, rfl⟩ := setData_eq_ok_iff.1 h
  refine ⟨rfl, rfl, rfl, rfl, rfl, id, fun hb => ⟨hlength, ?_⟩⟩
  rw [hlength, hb]
  exact Nat.mul_le_mul_right _ (Nat.le_max_left ..)

theorem revised_recordData (b : Buffer) (values : List Value) (offset : Nat) :
    b.Revised (b.recordData values offset) := by
  rw [recordData_eq]
  exact ⟨rfl, rfl, rfl, rfl, rfl, id, fun h => ⟨h, Nat.le_refl _⟩⟩

end Buffer

theorem Prepared.revised {kind : BufferKind} {binding : Binding} {format? : Option Format}
    {old ready : Buffer} (h : Prepared kind binding format? (some old) ready) :
    old.Revised ready := by
  cases h with
  | same | matching => exact .refl old
  | settled _ format =>
    obtain ⟨hkind, hlocation, hbinding, hwidth, hheight, -, hlength⟩ := old.revised_setFormat format
    exact ⟨hkind, hlocation, hbinding, hwidth, hheight, (nomatch ·), hlength⟩

/-- A buffer that is made ready where there was none is blank. -/
theorem Prepared.fresh_eq {kind : BufferKind} {binding : Binding} {format? : Option Format}
    {ready : Buffer} (h : Prepared kind binding format? none ready) :
    ready.location = none ∧ ready.bytes.length = ready.size := by
  cases h with
  | fresh | placeholder => exact ⟨rfl, (Nat.zero_mul _).symm⟩

namespace BoundStep

variable {old? : Option Buffer} {line : TestLine} {new : Buffer}

theorem exists_revised (h : BoundStep old? line new) : ∃ kind binding format? ready,
    Prepared kind binding format? old? ready ∧ ready.Revised new := by
  cases h with
  | subdata hready hnew =>
    exact ⟨_, _, _, _, hready, (Buffer.revised_recordData ..).trans (Buffer.revised_of_setData hnew)⟩
  | size hready hnew => exact ⟨_, _, _, _, hready, Buffer.revised_of_ensureSize hnew⟩

theorem revised {old : Buffer} (h : BoundStep (some old) line new) : old.Revised new := by
  obtain ⟨kind, binding, format?, ready, hready, hnew⟩ := h.exists_revised
  exact hready.revised.trans hnew

theorem fresh_eq (h : BoundStep none line new) :
    new.location = none ∧ new.bytes.length = new.size := by
  obtain ⟨kind, binding, format?, ready, hready, hnew⟩ := h.exists_revised
  obtain ⟨hlocation, hlength⟩ := hready.fresh_eq
  exact ⟨hnew.location.trans hlocation, (hnew.length hlength).1⟩

end BoundStep

namespace TableChanges

variable {buffers new mid : List Buffer}

theorem refl (buffers : List Buffer) : TableChanges buffers buffers :=
  Relation.ReflTransGen.refl

theorem single (h : TableChange buffers new) : TableChanges buffers new :=
  Relation.ReflTransGen.single h

theorem trans (h : TableChanges buffers mid) (h' : TableChanges mid new) :
    TableChanges buffers new :=
  Relation.ReflTransGen.trans h h'

theorem preserves {property : List Buffer → Prop}
    (hchange : ∀ {old new : List Buffer}, TableChange old new → property old → property new)
    (h : TableChanges buffers new) (hold : property buffers) : property new := by
  induction h with
  | refl => exact hold
  | tail _ hlast ih => exact hchange hlast ih

theorem of_updateAt {i : Nat} {change : Buffer → Except (Failure BufferError) Buffer}
    (h : updateAt buffers i change = .ok new)
    (hchange : ∀ b c, change b = .ok c → b.Revised c) : TableChanges buffers new := by
  obtain ⟨b, c, hb, hc, rfl⟩ := exists_of_updateAt h
  exact .single (.revise hb (hchange b c hc))

theorem of_setFormat {i : Nat} {format : Format}
    (h : updateAt buffers i (fun buffer => .ok (buffer.setFormat format)) = .ok new) :
    TableChanges buffers new :=
  of_updateAt h fun b _ hc => Except.ok.inj hc ▸ b.revised_setFormat format

theorem of_setDepthFormat {format : Format} (h : setDepthFormat buffers format = .ok new) :
    TableChanges buffers new := by
  unfold setDepthFormat at h
  split at h
  · exact of_setFormat h
  · next hnone =>
    obtain ⟨color, hcolor, h⟩ := exists_of_bind_eq_ok h
    cases h
    unfold bufferAt at hcolor
    split at hcolor <;> cases hcolor
    exact .single (.add (.depth format ‹_› hnone))

theorem of_appendAt {i : Nat} {values : List Value} (h : appendAt buffers i values = .ok new) :
    TableChanges buffers new :=
  of_updateAt h fun _ _ => Buffer.revised_of_setData

theorem of_appendIndices {values : List Value} (h : appendIndices buffers values = .ok new) :
    TableChanges buffers new := by
  unfold appendIndices at h
  split at h
  · exact of_appendAt h
  · next hnone =>
    obtain ⟨format, -, h⟩ := exists_of_bind_eq_ok h
    exact trans (.single (.add (.index format hnone))) (of_appendAt h)

theorem of_appendRow {cells : List (Nat × List Value)} (h : appendRow cells buffers = .ok new) :
    TableChanges buffers new := by
  induction cells generalizing buffers with
  | nil => exact Except.ok.inj h ▸ refl buffers
  | cons p rest ih =>
    obtain ⟨mid, hmid, hrest⟩ := exists_of_bind_eq_ok h
    exact (of_appendAt hmid).trans (ih hrest)

theorem addColumns (buffers : List Buffer) (columns : List (Nat × Format)) :
    TableChanges buffers (buffers ++ columns.map columnBuffer) := by
  induction columns generalizing buffers with
  | nil => exact (List.append_nil buffers).symm ▸ refl buffers
  | cons column rest ih =>
    have hrest := ih (buffers ++ [columnBuffer column])
    rw [List.append_assoc, List.singleton_append] at hrest
    exact trans (.single (.add (.column column))) hrest

theorem of_lineEffect {line : TestLine} (hread : line.WellRead) {operation? : Option Operation}
    (h : LineEffect buffers line (new, operation?)) : TableChanges buffers new := by
  cases h with
  | clear operation => exact refl _
  | @bound line binding b hbinding hstep =>
    have hle := bindingIndex_le buffers binding
    cases hold : buffers[bindingIndex buffers binding]? with
    | some old =>
      rw [hold] at hstep
      rw [putAt_of_lt (List.getElem?_eq_some_iff.1 hold).1]
      exact .single (.revise hold hstep.revised)
    | none =>
      rw [hold] at hstep
      obtain ⟨hlocation, hlength⟩ := hstep.fresh_eq
      have hindex : bindingIndex buffers binding = buffers.length :=
        Nat.le_antisymm hle (List.getElem?_eq_none_iff.1 hold)
      have hnone : indexOfBinding? buffers binding = none := by
        rw [indexOfBinding?_eq, hold, Option.map_none]
      rw [hindex, putAt_length]
      exact .single (.add (.bound (hstep.isBound hread) (hstep.binding_eq hbinding (by simp))
        hlocation hlength hnone))

theorem of_runTestLine {line : TestLine} (hread : line.WellRead) {operation? : Option Operation}
    (h : runTestLine line buffers = .ok (new, operation?)) : TableChanges buffers new :=
  of_lineEffect hread ((ensures_runTestLine hread).property_of_eq_ok h)

end TableChanges

end GpuScript
