import GpuScript.Proofs.TableEdits

/-!
# Bound buffers

A test line only touches the buffer of its binding, which it adds to the table if there is none.
What it does to that buffer is a step on the buffer alone. A step never fails: a line can only be
refused because the binding was used for another kind or another layout.
-/

namespace GpuScript

def TestLine.binding? : TestLine → Option Binding
  | .clear _ => none
  | .subdata _ binding _ _ _ => some binding
  | .size _ binding _ => some binding

def TestLine.operation? (index : Nat) : TestLine → Option Operation
  | .clear operation => some operation
  | .subdata _ _ _ offset values => some (.setBufferData index offset values)
  | .size .. => none

/-- How a bound buffer is used: its kind, and its format unless that is a placeholder. -/
structure BoundUse where
  kind : BufferKind
  format? : Option Format

def Buffer.use (b : Buffer) : BoundUse :=
  ⟨b.kind, if b.formatIsDefault then none else some b.format⟩

/-- The binding of a line and the use it asks for there. -/
def TestLine.use? : TestLine → Option (Binding × BoundUse)
  | .clear _ => none
  | .subdata kind binding format _ _ => some (binding, ⟨kind, some format⟩)
  | .size kind binding _ => some (binding, ⟨kind, none⟩)

theorem TestLine.binding?_of_use? {line : TestLine} {binding : Binding} {asked : BoundUse}
    (h : line.use? = some (binding, asked)) : line.binding? = some binding := by
  cases line <;> cases h <;> rfl

/-- Whether a buffer is made ready for a kind and perhaps a format from the one at a binding. -/
inductive Prepared (kind : BufferKind) (binding : Binding) :
    Option Format → Option Buffer → Buffer → Prop
  | fresh (format : Format) : Prepared kind binding (some format) none
      { Buffer.ofFormat kind format with binding := some binding }
  | placeholder : Prepared kind binding none none
      { Buffer.ofFormat kind byteFormat with binding := some binding, formatIsDefault := true }
  | same (b : Buffer) (hkind : b.kind = kind) : Prepared kind binding none (some b) b
  | settled (b : Buffer) (format : Format) (hkind : b.kind = kind)
      (hdefault : b.formatIsDefault = true) :
      Prepared kind binding (some format) (some b)
        { b.setFormat format with formatIsDefault := false }
  | matching (b : Buffer) (format : Format) (hkind : b.kind = kind)
      (hdefault : b.formatIsDefault = false) (hlayout : format.segments = b.format.segments) :
      Prepared kind binding (some format) (some b) b

/-- Whether a line turns the buffer at its binding, if there is one, into another. -/
inductive BoundStep (old? : Option Buffer) : TestLine → Buffer → Prop
  | subdata {kind : BufferKind} {binding : Binding} {format : Format} {offset : Nat}
      {values : List Value} {ready new : Buffer}
      (hready : Prepared kind binding (some format) old? ready)
      (hnew : (ready.recordData values offset).setData values offset = .ok new) :
      BoundStep old? (.subdata kind binding format offset values) new
  | size {kind : BufferKind} {binding : Binding} {bytes : Nat} {ready new : Buffer}
      (hready : Prepared kind binding none old? ready)
      (hnew : ready.ensureSize bytes = .ok new) :
      BoundStep old? (.size kind binding bytes) new

namespace Buffer

variable {b : Buffer}

/-- Recording data only changes what is recorded. -/
theorem recordData_eq (values : List Value) (offset : Nat) :
    b.recordData values offset =
      { b with recordedMax := (b.recordData values offset).recordedMax } := by
  simp only [recordData]
  split <;> rfl

/-- Asking for a size never fails, since whole elements are asked for. -/
theorem ensureSize_eq (bytes : Nat) :
    b.ensureSize bytes = .ok
      (if b.elementCount < b.format.elementsIn bytes then
        b.setElementCount (b.format.elementsIn bytes)
      else b) := by
  have hpos := b.format.size_pos
  have hlt : b.size < b.format.elementsIn bytes * b.format.size ↔
      b.elementCount < b.format.elementsIn bytes := Nat.mul_lt_mul_right hpos
  simp only [ensureSize, hlt]
  split
  · rw [setSize, if_pos (Nat.mul_mod_left ..), Nat.mul_div_cancel _ hpos]
  · rfl

theorem exists_recordData_setData {values : List Value} (h : b.format.Accepts values)
    (hne : values ≠ []) (offset : Nat) :
    ∃ c, (b.recordData values offset).setData values offset = .ok c := by
  refine exists_setData ?_ (.inl hne)
  rw [recordData_eq]
  exact h

end Buffer

namespace Prepared

variable {kind : BufferKind} {binding : Binding} {format : Format} {format? : Option Format}
  {old? : Option Buffer} {ready : Buffer}

theorem segments_eq (h : Prepared kind binding (some format) old? ready) :
    format.segments = ready.format.segments := by
  cases h with
  | fresh | settled => rfl
  | matching _ _ _ _ hlayout => exact hlayout

theorem kind_eq (h : Prepared kind binding format? old? ready) : ready.kind = kind := by
  cases h with
  | fresh | placeholder => rfl
  | same _ hkind => exact hkind
  | settled _ _ hkind => exact hkind
  | matching _ _ hkind => exact hkind

theorem binding_eq (h : Prepared kind binding format? old? ready)
    (hold : ∀ b, old? = some b → b.binding = some binding) : ready.binding = some binding := by
  cases h with
  | fresh | placeholder => rfl
  | same => exact hold _ rfl
  | settled b => exact hold b rfl
  | matching => exact hold _ rfl

end Prepared

namespace BoundStep

variable {old? : Option Buffer} {line : TestLine} {new : Buffer}

theorem exists_prepared (h : BoundStep old? line new) :
    ∃ kind binding format? ready, line.binding? = some binding ∧
      Prepared kind binding format? old? ready ∧ new.kind = ready.kind ∧
      new.binding = ready.binding := by
  cases h with
  | subdata hready hnew =>
    refine ⟨_, _, _, _, rfl, hready, ?_⟩
    obtain ⟨-, bytes, -, rfl⟩ := Buffer.setData_eq_ok_iff.1 hnew
    rw [Buffer.recordData_eq]
    exact ⟨rfl, rfl⟩
  | size hready hnew =>
    refine ⟨_, _, _, _, rfl, hready, ?_⟩
    rw [Buffer.ensureSize_eq] at hnew
    cases hnew
    split <;> exact ⟨rfl, rfl⟩

theorem binding_eq {binding : Binding} (h : BoundStep old? line new)
    (hbinding : line.binding? = some binding)
    (hold : ∀ b, old? = some b → b.binding = some binding) : new.binding = some binding := by
  obtain ⟨kind, other, format?, ready, hother, hready, -, hsame⟩ := h.exists_prepared
  rw [hbinding] at hother
  cases hother
  rw [hsame]
  exact hready.binding_eq hold

theorem isBound (h : BoundStep old? line new) (hread : line.WellRead) : new.kind.IsBound := by
  cases h with
  | subdata hready hnew =>
    obtain ⟨-, bytes, -, rfl⟩ := Buffer.setData_eq_ok_iff.1 hnew
    rw [Buffer.recordData_eq]
    exact hready.kind_eq ▸ hread.1
  | size hready hnew =>
    rw [Buffer.ensureSize_eq] at hnew
    cases hnew
    split <;> exact hready.kind_eq ▸ hread

end BoundStep

/-- Where the buffer of a binding stands, or where it would be added. -/
def bindingIndex (buffers : List Buffer) (binding : Binding) : Nat :=
  (indexOfBinding? buffers binding).getD buffers.length

def putAt (buffers : List Buffer) (index : Nat) (b : Buffer) : List Buffer :=
  buffers.take index ++ b :: buffers.drop (index + 1)

section Tables

variable {buffers : List Buffer} {index : Nat} {binding : Binding} {b c : Buffer}

theorem putAt_of_lt (h : index < buffers.length) : putAt buffers index b = buffers.set index b :=
  (List.set_eq_take_append_cons_drop ..).trans (if_pos h) |>.symm

theorem putAt_length (buffers : List Buffer) (b : Buffer) :
    putAt buffers buffers.length b = buffers ++ [b] := by
  simp [putAt]

theorem getElem?_putAt (h : index ≤ buffers.length) (j : Nat) :
    (putAt buffers index b)[j]? = if j = index then some b else buffers[j]? := by
  rcases Nat.lt_or_eq_of_le h with hlt | rfl
  · rw [putAt_of_lt hlt, List.getElem?_set]
    by_cases hj : j = index
    · subst hj
      simp [hlt]
    · rw [if_neg hj, if_neg (Ne.symm hj)]
  · rw [putAt_length, List.getElem?_append]
    by_cases hj : j = buffers.length
    · subst hj
      simp
    · rw [if_neg hj]
      split
      · rfl
      · rw [List.getElem?_eq_none (by simp; omega), List.getElem?_eq_none (by omega)]

theorem length_le_length_putAt (h : index ≤ buffers.length) :
    index < (putAt buffers index b).length := by
  simp only [putAt, List.length_append, List.length_take, List.length_cons]
  omega

theorem putAt_putAt (h : index ≤ buffers.length) :
    (putAt buffers index b).set index c = putAt buffers index c := by
  apply List.ext_getElem?
  intro j
  rw [List.getElem?_set, getElem?_putAt h, getElem?_putAt h]
  by_cases hj : index = j
  · subst hj
    simp [length_le_length_putAt h]
  · rw [if_neg hj, if_neg (Ne.symm hj), if_neg (Ne.symm hj)]

theorem indexOfBinding?_eq (buffers : List Buffer) (binding : Binding) :
    indexOfBinding? buffers binding =
      buffers[bindingIndex buffers binding]?.map fun _ => bindingIndex buffers binding := by
  unfold bindingIndex
  cases hi : indexOfBinding? buffers binding with
  | none => rw [Option.getD_none, List.getElem?_eq_none (Nat.le_refl _), Option.map_none]
  | some i =>
    obtain ⟨b, hb, -⟩ := exists_of_findIdx?_eq_some hi
    rw [Option.getD_some, hb, Option.map_some]

theorem bindingIndex_le (buffers : List Buffer) (binding : Binding) :
    bindingIndex buffers binding ≤ buffers.length := by
  unfold bindingIndex
  cases h : indexOfBinding? buffers binding with
  | none => exact Nat.le_refl _
  | some i =>
    obtain ⟨x, hx, -⟩ := exists_of_findIdx?_eq_some h
    exact Nat.le_of_lt (List.getElem?_eq_some_iff.1 hx).1

theorem binding_of_getElem?_bindingIndex (h : buffers[bindingIndex buffers binding]? = some b) :
    b.binding = some binding := by
  have hi := indexOfBinding?_eq buffers binding
  rw [h, Option.map_some] at hi
  obtain ⟨x, hx, hbinding⟩ := exists_of_findIdx?_eq_some hi
  rw [h] at hx
  cases hx
  exact of_decide_eq_true hbinding

theorem bindingIndex_of_getElem? (hvalid : ValidTable buffers) (h : buffers[index]? = some b)
    (hbinding : b.binding = some binding) : bindingIndex buffers binding = index := by
  have hmem : b ∈ buffers := List.mem_of_getElem? h
  cases hi : indexOfBinding? buffers binding with
  | none =>
    have := List.findIdx?_eq_none_iff.1 hi b hmem
    simp [hbinding] at this
  | some i =>
    obtain ⟨x, hx, hsame⟩ := exists_of_findIdx?_eq_some hi
    have hsame : x.binding = some binding := of_decide_eq_true hsame
    rw [bindingIndex, hi, Option.getD_some]
    exact hvalid.unique i index x b hx h (by simp [hsame]) (hsame.trans hbinding.symm)

theorem getElem?_put_eq_some_iff (hb : b.binding = some binding)
    (hc : c.binding ≠ some binding) (i : Nat) :
    (putAt buffers (bindingIndex buffers binding) b)[i]? = some c ↔ buffers[i]? = some c := by
  rw [getElem?_putAt (bindingIndex_le buffers binding)]
  split
  · next hi =>
    subst hi
    constructor
    · intro heq
      cases heq
      exact (hc hb).elim
    · intro heq
      exact (hc (binding_of_getElem?_bindingIndex heq)).elim
  · rfl

/-- A bound buffer put where its binding belongs keeps a table in order. -/
theorem ValidTable.put (hvalid : ValidTable buffers) (hb : b.InOrder)
    (hbinding : b.binding = some binding) :
    ValidTable (putAt buffers (bindingIndex buffers binding) b) := by
  have hget := getElem?_putAt (b := b) (bindingIndex_le buffers binding)
  have hindex : ∀ (i : Nat) (x : Buffer),
      (putAt buffers (bindingIndex buffers binding) b)[i]? = some x →
      x.binding = some binding → i = bindingIndex buffers binding := by
    intro i x hx hsame
    rw [hget] at hx
    split at hx
    · assumption
    · exact (bindingIndex_of_getElem? hvalid hx hsame).symm
  refine ⟨?_, ?_, ?_⟩
  · obtain ⟨color, hcolor, hkind⟩ := hvalid.color
    have hunbound := hvalid.binding_eq_none hcolor (by simp [hkind, BufferKind.IsBound])
    exact ⟨color, (getElem?_put_eq_some_iff hbinding (by simp [hunbound]) 0).2 hcolor, hkind⟩
  · intro x hx
    obtain ⟨i, hi⟩ := List.getElem?_of_mem hx
    rw [hget] at hi
    split at hi
    · cases hi
      exact hb
    · exact hvalid.inOrder x (List.mem_of_getElem? hi)
  · intro i j x y hx hy hbound hsame
    by_cases hx' : x.binding = some binding
    · rw [hindex i x hx hx', hindex j y hy (hsame.symm.trans hx')]
    · rw [getElem?_put_eq_some_iff hbinding hx'] at hx
      rw [getElem?_put_eq_some_iff hbinding (hsame ▸ hx')] at hy
      exact hvalid.unique i j x y hx hy hbound hsame

theorem IsColumn.put {format : Format} (hvalid : ValidTable buffers)
    (h : IsColumn buffers index format) (hbinding : b.binding = some binding) :
    IsColumn (putAt buffers (bindingIndex buffers binding) b) index format := by
  obtain ⟨c, hc, hkind, hformat⟩ := h
  have hunbound := hvalid.binding_eq_none hc (by simp [hkind, BufferKind.IsBound])
  exact ⟨c, (getElem?_put_eq_some_iff hbinding (by simp [hunbound]) index).2 hc, hkind, hformat⟩

end Tables

/-- Whether a line turns a table into another one and stands for an operation. -/
inductive LineEffect (buffers : List Buffer) : TestLine → List Buffer × Option Operation → Prop
  | clear (operation : Operation) : LineEffect buffers (.clear operation) (buffers, some operation)
  | bound {line : TestLine} {binding : Binding} {new : Buffer}
      (hbinding : line.binding? = some binding)
      (hstep : BoundStep buffers[bindingIndex buffers binding]? line new) :
      LineEffect buffers line
        (putAt buffers (bindingIndex buffers binding) new,
          line.operation? (bindingIndex buffers binding))

section Lines

variable {buffers : List Buffer}

theorem boundBuffer_eq {kind : BufferKind} {binding : Binding} {format? : Option Format} :
    ∃ ready, boundBuffer kind binding format? = .ok ready ∧
      Prepared kind binding format? none ready := by
  cases format? with
  | some format => exact ⟨_, rfl, .fresh format⟩
  | none =>
    refine ⟨_, ?_, .placeholder⟩
    rw [boundBuffer, placeholderFormat_eq]
    rfl

theorem prepared_of_matchBound {kind : BufferKind} {binding : Binding} {format? : Option Format}
    {b ready : Buffer} (h : matchBound kind binding format? b = .ok ready) :
    Prepared kind binding format? (some b) ready := by
  unfold matchBound at h
  split at h
  · cases h
  · next hkind =>
    have hkind : b.kind = kind := Decidable.not_not.1 hkind
    cases format? with
    | none =>
      cases h
      exact .same b hkind
    | some format =>
      dsimp only at h
      split at h
      · next hdefault =>
        cases h
        exact .settled b format hkind hdefault
      · next hdefault =>
        split at h
        · next hlayout =>
          cases h
          have hsegments := Format.segments_eq_of_sameLayout hlayout
          exact .matching b format hkind (Bool.not_eq_true _ ▸ hdefault) hsegments.symm
        · cases h

theorem bindBuffer_of_some {binding : Binding} {b : Buffer}
    (hb : buffers[bindingIndex buffers binding]? = some b) (kind : BufferKind)
    (format? : Option Format) :
    bindBuffer kind binding format? buffers =
      orInvalid ((matchBound kind binding format? b).map fun ready =>
        (bindingIndex buffers binding, putAt buffers (bindingIndex buffers binding) ready)) := by
  have hi := indexOfBinding?_eq buffers binding
  rw [hb, Option.map_some] at hi
  have hlt := (List.getElem?_eq_some_iff.1 hb).1
  simp only [bindBuffer, hi, bufferAt_eq hb, putAt_of_lt hlt, bind, Except.bind]
  cases matchBound kind binding format? b <;> rfl

theorem bindBuffer_of_none {binding : Binding}
    (hnone : buffers[bindingIndex buffers binding]? = none) (kind : BufferKind)
    (format? : Option Format) :
    bindBuffer kind binding format? buffers =
      orFault ((boundBuffer kind binding format?).map fun ready =>
        (bindingIndex buffers binding, putAt buffers (bindingIndex buffers binding) ready)) := by
  have hindex : bindingIndex buffers binding = buffers.length :=
    Nat.le_antisymm (bindingIndex_le ..) (List.getElem?_eq_none_iff.1 hnone)
  have hi := indexOfBinding?_eq buffers binding
  rw [hnone, Option.map_none] at hi
  simp only [bindBuffer, hi, hindex, putAt_length]
  cases boundBuffer kind binding format? <;> rfl

theorem ensures_bindBuffer (kind : BufferKind) (binding : Binding) (format? : Option Format) :
    Ensures LoadCause.IsInvalid
      (fun r => ∃ ready, Prepared kind binding format? buffers[bindingIndex buffers binding]? ready ∧
        r = (bindingIndex buffers binding, putAt buffers (bindingIndex buffers binding) ready))
      (bindBuffer kind binding format? buffers) := by
  cases hold : buffers[bindingIndex buffers binding]? with
  | some b =>
    rw [bindBuffer_of_some hold]
    refine .of_orInvalid ?_
    intro r hr
    obtain ⟨ready, hready, rfl⟩ := exists_of_map_eq_ok hr
    exact ⟨ready, prepared_of_matchBound hready, rfl⟩
  | none =>
    obtain ⟨ready, heq, hready⟩ := @boundBuffer_eq kind binding format?
    rw [bindBuffer_of_none hold, heq]
    exact ⟨ready, hready, rfl⟩

theorem updateAt_putAt {index : Nat} {ready new : Buffer} (h : index ≤ buffers.length)
    {change : Buffer → Except (Failure BufferError) Buffer} (hnew : change ready = .ok new) :
    updateAt (putAt buffers index ready) index change = .ok (putAt buffers index new) := by
  have hready : (putAt buffers index ready)[index]? = some ready := by
    rw [getElem?_putAt h, if_pos rfl]
  rw [updateAt_eq hready hnew, putAt_putAt h]

theorem exists_runTestLine {line : TestLine} (hread : line.WellRead) {kind : BufferKind}
    {binding : Binding} {format? : Option Format} {ready : Buffer}
    (hasked : line.use? = some (binding, ⟨kind, format?⟩))
    (hready : Prepared kind binding format? buffers[bindingIndex buffers binding]? ready)
    (hbind : bindBuffer kind binding format? buffers =
      .ok (bindingIndex buffers binding, putAt buffers (bindingIndex buffers binding) ready)) :
    ∃ new, BoundStep buffers[bindingIndex buffers binding]? line new ∧ new.use = ready.use ∧
      runTestLine line buffers = .ok (putAt buffers (bindingIndex buffers binding) new,
        line.operation? (bindingIndex buffers binding)) := by
  cases line with
  | clear operation => cases hasked
  | subdata kind binding format offset values =>
    cases hasked
    obtain ⟨-, hne, haccepts, -⟩ := hread
    obtain ⟨new, hnew⟩ :=
      Buffer.exists_recordData_setData (haccepts.congr hready.segments_eq) hne offset
    refine ⟨new, .subdata hready hnew, ?_, ?_⟩
    · obtain ⟨-, bytes, -, rfl⟩ := Buffer.setData_eq_ok_iff.1 hnew
      rw [Buffer.recordData_eq]
      rfl
    · rw [runTestLine, hbind]
      simp only [bind, Except.bind]
      rw [updateAt_putAt (bindingIndex_le ..) hnew]
      rfl
  | size kind binding bytes =>
    cases hasked
    have hnew := Buffer.ensureSize_eq (b := ready) bytes
    refine ⟨_, .size hready hnew, ?_, ?_⟩
    · split <;> rfl
    · rw [runTestLine, hbind]
      simp only [bind, Except.bind]
      rw [updateAt_putAt (bindingIndex_le ..) (congrArg orFault hnew)]
      rfl

theorem runTestLine_of_refused {line : TestLine} {kind : BufferKind} {binding : Binding}
    {format? : Option Format} {failure : Failure LoadCause}
    (hasked : line.use? = some (binding, ⟨kind, format?⟩))
    (hbind : bindBuffer kind binding format? buffers = .error failure) :
    runTestLine line buffers = .error failure := by
  cases line <;> cases hasked <;>
    rw [runTestLine, hbind] <;> rfl

/-- A line that was read is carried out on the buffer of its binding, or is refused. -/
theorem ensures_runTestLine {line : TestLine} (h : line.WellRead) :
    Ensures LoadCause.IsInvalid (LineEffect buffers line) (runTestLine line buffers) := by
  cases hasked : line.use? with
  | none =>
    cases line <;> cases hasked
    exact .clear _
  | some use =>
    obtain ⟨binding, kind, format?⟩ := use
    rcases (ensures_bindBuffer kind binding format?).cases with
      ⟨_, hbind, ready, hready, rfl⟩ | ⟨cause, hbind, hcause⟩
    · obtain ⟨new, hstep, -, hrun⟩ := exists_runTestLine h hasked hready hbind
      rw [hrun]
      exact .bound (TestLine.binding?_of_use? hasked) hstep
    · rw [runTestLine_of_refused hasked hbind]
      exact hcause

end Lines

end GpuScript
