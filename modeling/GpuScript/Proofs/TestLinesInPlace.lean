import GpuScript.Proofs.DataBytes
import GpuScript.Proofs.LoadingRun
import GpuScript.Proofs.TableChanges

/-!
# Test lines in place

A test line looks a buffer up or adds one, gives a placeholder its format, records a size, writes
data and adds a command, each in lists that it changes in place and keeps as they are where it is
refused. Nothing that can fail comes behind the first change all the same: a line that is refused
leaves the lists as they were, and any other one changes no buffer but that of its binding.
-/

namespace GpuScript

/-- The lists that test lines change. -/
structure TestLists where
  buffers : List Buffer
  commands : List Command

/-- A step on the lists. What it has changed before it fails stays so. -/
abbrev InPlace (α : Type) := EStateM (Failure LoadCause) TestLists α

namespace TestLists

def addBuffer (b : Buffer) : InPlace Unit :=
  modify fun lists => { lists with buffers := lists.buffers ++ [b] }

def addCommand (number : Nat) (operation : Operation) : InPlace Unit :=
  modify fun lists => { lists with commands := lists.commands ++ [⟨number, operation⟩] }

/-- Changes the buffer at an index, which can fail with some of the change made. -/
def changeBuffer (index : Nat) (change : Buffer → Buffer × Option (Failure BufferError)) :
    InPlace Unit := do
  let lists ← get
  let changed := change (← ofExcept (bufferAt lists.buffers index))
  set { lists with buffers := lists.buffers.set index changed.1 }
  ofExcept (onBuffer (settle ((), changed.2)))

/-- Takes the buffer at an index for a kind and perhaps a format, which replaces a placeholder. -/
def matchBuffer (kind : BufferKind) (binding : Binding) (format? : Option Format) (index : Nat) :
    InPlace Unit := do
  let buffer ← ofExcept (bufferAt (← get).buffers index)
  if buffer.kind ≠ kind then ofExcept (reject (.bindingOfOtherKind binding))
  else
    match format? with
    | none => return
    | some format =>
      if buffer.formatIsDefault then
        changeBuffer index fun b => (b.setFormat format, none)
        changeBuffer index fun b => ({ b with formatIsDefault := false }, none)
      else if buffer.format.sameLayout format then return
      else ofExcept (reject (.bindingOfOtherFormat binding))

/-- Makes the buffer at a binding ready for a kind and perhaps a format, or adds one there, and
gives its index. -/
def bindBuffer (kind : BufferKind) (binding : Binding) (format? : Option Format) :
    InPlace Nat := do
  match indexOfBinding? (← get).buffers binding with
  | some index =>
    matchBuffer kind binding format? index
    return index
  | none =>
    addBuffer (← ofExcept (orFault (boundBuffer kind binding format?)))
    return (← get).buffers.length - 1

/-- Makes a buffer as large as asked for, unless its size would be ragged. -/
def ensureSize (bytes : Nat) (b : Buffer) : Buffer × Option (Failure BufferError) :=
  match b.ensureSize bytes with
  | .ok sized => (sized, none)
  | .error fault => (b, some (.fault fault))

def runTestLine (number : Nat) : TestLine → InPlace Unit
  | .clear operation => addCommand number operation
  | .subdata kind binding format offset values => do
    let index ← bindBuffer kind binding (some format)
    changeBuffer index fun b => (b.recordData values offset, none)
    changeBuffer index fun b => b.setDataInPlace values offset
    addCommand number (.setBufferData index offset values)
  | .size kind binding bytes => do
    changeBuffer (← bindBuffer kind binding none) (ensureSize bytes)

def takeTestLine (number : Nat) (line : List Char) : InPlace Unit := do
  match ← ofExcept (orInvalid (readTestLine line)) with
  | none => return
  | some asked => runTestLine number asked

section Steps

variable {α : Type} {lists : TestLists} {index : Nat}

/-- What a step comes to that leaves the lists as they were where it fails. -/
def atOnce (lists : TestLists) :
    LineResult (α × TestLists) → EStateM.Result (Failure LoadCause) TestLists α
  | .ok (a, new) => .ok a new
  | .error failure => .error failure lists

theorem run_ofExcept (x : LineResult α) :
    (ofExcept x : InPlace α).run lists = atOnce lists (x.map (·, lists)) := by
  cases x <;> rfl

theorem run_changeBuffer {change : Buffer → Buffer × Option (Failure BufferError)} {b c : Buffer}
    (hb : lists.buffers[index]? = some b) (hc : change b = (c, none)) :
    (changeBuffer index change).run lists =
      .ok () { lists with buffers := lists.buffers.set index c } := by
  simp only [changeBuffer, EStateM.run_bind, EStateM.run_get, bufferAt_eq hb, run_ofExcept]
  simp only [Except.map, atOnce, EStateM.run_set, hc]
  rfl

theorem run_changeBuffer_putAt {buffers : List Buffer} {commands : List Command}
    (h : index ≤ buffers.length) {change : Buffer → Buffer × Option (Failure BufferError)}
    {b c : Buffer} (hc : change b = (c, none)) :
    (changeBuffer index change).run ⟨putAt buffers index b, commands⟩ =
      .ok () ⟨putAt buffers index c, commands⟩ := by
  have hb : (putAt buffers index b)[index]? = some b := by rw [getElem?_putAt h, if_pos rfl]
  rw [run_changeBuffer hb hc, putAt_putAt h]

theorem run_matchBuffer {b : Buffer} (hb : lists.buffers[index]? = some b) (kind : BufferKind)
    (binding : Binding) (format? : Option Format) :
    (matchBuffer kind binding format? index).run lists =
      atOnce lists ((orInvalid (matchBound kind binding format? b)).map fun ready =>
        ((), { lists with buffers := lists.buffers.set index ready })) := by
  have hlt : index < lists.buffers.length := (List.getElem?_eq_some_iff.1 hb).1
  have hsame : lists.buffers.set index b = lists.buffers := by
    rw [← (List.getElem?_eq_some_iff.1 hb).2, List.set_getElem_self]
  simp only [matchBuffer, matchBound, EStateM.run_bind, EStateM.run_get, bufferAt_eq hb,
    run_ofExcept, Except.map, atOnce]
  split
  · rfl
  · cases format? with
    | none =>
      dsimp only [orInvalid]
      rw [hsame]
      rfl
    | some format =>
      dsimp only
      split
      · have hset : (lists.buffers.set index (b.setFormat format))[index]? =
            some (b.setFormat format) := List.getElem?_set_self hlt
        rw [EStateM.run_bind, run_changeBuffer hb rfl]
        dsimp only
        rw [run_changeBuffer hset rfl, List.set_set]
        rfl
      · split
        · dsimp only [orInvalid]
          rw [hsame]
          rfl
        · rfl

theorem run_bindBuffer (kind : BufferKind) (binding : Binding) (format? : Option Format) :
    (bindBuffer kind binding format?).run lists =
      atOnce lists ((GpuScript.bindBuffer kind binding format? lists.buffers).map fun r =>
        (r.1, { lists with buffers := r.2 })) := by
  simp only [bindBuffer, GpuScript.bindBuffer, EStateM.run_bind, EStateM.run_get]
  cases hi : indexOfBinding? lists.buffers binding with
  | some i =>
    obtain ⟨b, hb, -⟩ := exists_of_findIdx?_eq_some hi
    simp only [EStateM.run_bind, run_matchBuffer hb, bufferAt_eq hb]
    simp only [bind, Except.bind]
    cases matchBound kind binding format? b <;> rfl
  | none =>
    obtain ⟨ready, hready, -⟩ := @boundBuffer_eq kind binding format?
    have hlast : (lists.buffers ++ [ready]).length - 1 = lists.buffers.length := by simp
    simp only [EStateM.run_bind, run_ofExcept, hready, orFault, Except.map, atOnce, addBuffer,
      EStateM.run_modify, EStateM.run_get, hlast]
    rfl

/-- The lists with other buffers, and with a command for an operation. -/
def extended (lists : TestLists) (number : Nat) (r : List Buffer × Option Operation) : TestLists :=
  ⟨r.1, lists.commands ++ (r.2.map (Command.mk number)).toList⟩

theorem run_bindBuffer_bind {kind : BufferKind} {binding : Binding} {format? : Option Format}
    (number : Nat) {rest : Nat → InPlace Unit}
    {next : Nat × List Buffer → LineResult (List Buffer × Option Operation)}
    (h : ∀ ready, Prepared kind binding format?
        lists.buffers[bindingIndex lists.buffers binding]? ready →
      ∃ r, next (bindingIndex lists.buffers binding,
          putAt lists.buffers (bindingIndex lists.buffers binding) ready) = .ok r ∧
        (rest (bindingIndex lists.buffers binding)).run
          ⟨putAt lists.buffers (bindingIndex lists.buffers binding) ready, lists.commands⟩ =
            .ok () (lists.extended number r)) :
    (bindBuffer kind binding format? >>= rest).run lists =
      atOnce lists ((GpuScript.bindBuffer kind binding format? lists.buffers >>= next).map fun r =>
        ((), lists.extended number r)) := by
  have hbound : Ensures _ _ (GpuScript.bindBuffer kind binding format? lists.buffers) :=
    ensures_bindBuffer kind binding format?
  rw [EStateM.run_bind, run_bindBuffer]
  rcases hbound.cases with ⟨_, hbind, ready, hready, rfl⟩ | ⟨cause, hbind, -⟩
  · obtain ⟨r, hnext, hrest⟩ := h ready hready
    simp only [hbind, Except.map, atOnce, bind, Except.bind, hnext, hrest]
  · rw [hbind]
    rfl

theorem run_runTestLine {asked : TestLine} (hread : asked.WellRead) (lists : TestLists)
    (number : Nat) :
    (runTestLine number asked).run lists =
      atOnce lists ((GpuScript.runTestLine asked lists.buffers).map fun r =>
        ((), lists.extended number r)) := by
  have hle := bindingIndex_le lists.buffers
  cases asked with
  | clear operation => rfl
  | subdata kind binding format offset values =>
    obtain ⟨-, hne, haccepts, -⟩ := hread
    refine run_bindBuffer_bind number ?_
    intro ready hready
    -- the values were read for the layout that the buffer has been made ready for
    obtain ⟨new, hnew⟩ :=
      Buffer.exists_recordData_setData (haccepts.congr hready.segments_eq) hne offset
    have hwrite := settle_eq_ok_iff.1 ((Buffer.setData_eq_settle ..).symm.trans hnew)
    refine ⟨(putAt lists.buffers (bindingIndex lists.buffers binding) new,
      some (.setBufferData (bindingIndex lists.buffers binding) offset values)), ?_, ?_⟩
    · dsimp only
      rw [updateAt_putAt (hle binding) hnew]
      rfl
    · rw [EStateM.run_bind, run_changeBuffer_putAt (hle binding) rfl]
      dsimp only
      rw [EStateM.run_bind, run_changeBuffer_putAt (hle binding) hwrite]
      rfl
  | size kind binding bytes =>
    refine run_bindBuffer_bind number ?_
    intro ready _
    obtain ⟨new, hnew⟩ : ∃ new, ready.ensureSize bytes = .ok new := ⟨_, Buffer.ensureSize_eq bytes⟩
    have hsized : ensureSize bytes ready = (new, none) := by rw [ensureSize, hnew]
    refine ⟨(putAt lists.buffers (bindingIndex lists.buffers binding) new, none), ?_, ?_⟩
    · dsimp only
      rw [updateAt_putAt (hle binding) (congrArg orFault hnew)]
      rfl
    · rw [run_changeBuffer_putAt (hle binding) hsized, extended, Option.map_none, Option.toList_none,
        List.append_nil]

end Steps

end TestLists

def lineBinding? (line : List Char) : Option Binding :=
  match readTestLine line with
  | .ok (some asked) => asked.binding?
  | _ => none

/-- Whether lists are other ones after a change of one buffer at most, the one at a binding. -/
structure ChangedAt (binding? : Option Binding) (old new : TestLists) : Prop where
  commands : ∃ added : Option Command, new.commands = old.commands ++ added.toList
  length : new.buffers.length = old.buffers.length ∨
    new.buffers.length = old.buffers.length + 1
  others : ∀ (i : Nat) (b : Buffer), old.buffers[i]? = some b →
    (∀ binding, binding? = some binding → indexOfBinding? old.buffers binding ≠ some i) →
    new.buffers[i]? = some b
  kept : ∀ (i : Nat) (b : Buffer), old.buffers[i]? = some b → ∃ c, new.buffers[i]? = some c ∧
    c.kind = b.kind ∧ c.binding = b.binding ∧ c.location = b.location
  added : ∀ (i : Nat) (b : Buffer), old.buffers[i]? = none → new.buffers[i]? = some b →
    ∃ binding, binding? = some binding ∧ b.binding = some binding ∧
      indexOfBinding? old.buffers binding = none

namespace ChangedAt

theorem of_commands {old : TestLists} {binding? : Option Binding} {commands : List Command}
    (h : ∃ added : Option Command, commands = old.commands ++ added.toList) :
    ChangedAt binding? old ⟨old.buffers, commands⟩ where
  commands := h
  length := .inl rfl
  others := fun _ _ hb _ => hb
  kept := fun _ b hb => ⟨b, hb, rfl, rfl, rfl⟩
  added := fun _ _ hnone hb => nomatch hnone.symm.trans hb

theorem of_boundStep {old : TestLists} {asked : TestLine} {binding : Binding} {new : Buffer}
    (hbinding : asked.binding? = some binding)
    (hstep : BoundStep old.buffers[bindingIndex old.buffers binding]? asked new)
    (added : Option Command) :
    ChangedAt (some binding) old ⟨putAt old.buffers (bindingIndex old.buffers binding) new,
      old.commands ++ added.toList⟩ := by
  have hle := bindingIndex_le old.buffers binding
  have hget := getElem?_putAt (b := new) hle
  have hindex := indexOfBinding?_eq old.buffers binding
  refine ⟨⟨added, rfl⟩, ?length, ?others, ?kept, ?added⟩
  case length =>
    rcases Nat.lt_or_eq_of_le hle with hlt | heq
    · rw [putAt_of_lt hlt, List.length_set]
      exact .inl rfl
    · rw [heq, putAt_length, List.length_append]
      exact .inr rfl
  case others =>
    intro i b hb hother
    -- the look-up finds a buffer at its index, so that it is none of the others
    have hne : i ≠ bindingIndex old.buffers binding := by
      rintro rfl
      rw [hb] at hindex
      exact hother binding rfl hindex
    rw [hget, if_neg hne, hb]
  case kept =>
    intro i b hb
    by_cases hi : i = bindingIndex old.buffers binding
    · rw [← hi, hb] at hstep
      have hrevised := hstep.revised
      exact ⟨new, by rw [hget, if_pos hi], hrevised.kind, hrevised.binding, hrevised.location⟩
    · exact ⟨b, by rw [hget, if_neg hi, hb], rfl, rfl, rfl⟩
  case added =>
    intro i b hnone hb
    by_cases hi : i = bindingIndex old.buffers binding
    · rw [hget, if_pos hi] at hb
      cases hb
      rw [← hi, hnone] at hstep hindex
      exact ⟨binding, rfl, hstep.binding_eq hbinding (by simp), hindex⟩
    · rw [hget, if_neg hi, hnone] at hb
      cases hb

theorem of_lineEffect (old : TestLists) {asked : TestLine} {r : List Buffer × Option Operation}
    (h : LineEffect old.buffers asked r) (number : Nat) :
    ChangedAt asked.binding? old (old.extended number r) := by
  cases h with
  | clear operation => exact .of_commands ⟨_, rfl⟩
  | bound hbinding hstep =>
    rw [hbinding]
    exact .of_boundStep hbinding hstep _

end ChangedAt

namespace Loading

def testLists (state : Loading) : TestLists := ⟨state.script.buffers, state.script.commands⟩

def withTestLists (state : Loading) (lists : TestLists) : Loading :=
  { state with
    script := { state.script with buffers := lists.buffers, commands := lists.commands } }

/-- Whether a line that comes to something in place, and to something all at once, was taken with
the lists changed at a binding, or refused with the lists as they were. -/
inductive TakenAtOnce (state : Loading) (binding? : Option Binding) :
    EStateM.Result (Failure LoadCause) TestLists Unit → LineResult Loading → Prop
  | taken {lists : TestLists} (h : ChangedAt binding? state.testLists lists) :
      TakenAtOnce state binding? (.ok () lists) (.ok (state.withTestLists lists))
  | refused (error : LineError) :
      TakenAtOnce state binding? (.error (.error (.invalid error)) state.testLists) (reject error)

/-- A line of a test section that is refused leaves both lists as they were. Any other one adds at
most a command and a buffer, and of the buffers that were there it changes at most the one at its
binding, which keeps its kind, its binding and its location. -/
theorem takenAtOnce_takeTestLine (state : Loading) (number : Nat) (line : List Char) :
    state.TakenAtOnce (lineBinding? line)
      ((TestLists.takeTestLine number line).run state.testLists)
      (state.takeTestLine number line) := by
  rw [takeTestLine, TestLists.takeTestLine, lineBinding?, EStateM.run_bind,
    TestLists.run_ofExcept]
  cases hread : readTestLine line with
  | error error => exact .refused error
  | ok asked? =>
    cases asked? with
    | none => exact .taken (.of_commands ⟨none, (List.append_nil _).symm⟩)
    | some asked =>
      have hwell := wellRead_of_readTestLine hread
      have hrun := TestLists.run_runTestLine hwell state.testLists number
      have heffects : Ensures _ _ (runTestLine asked state.script.buffers) :=
        ensures_runTestLine hwell
      simp only [orInvalid, Except.map, TestLists.atOnce, hrun]
      rcases heffects.cases with ⟨r, heq, heffect⟩ | ⟨_, heq, error, rfl⟩
      · have hchanged := ChangedAt.of_lineEffect state.testLists heffect number
        simp only [bind, Except.bind, testLists, heq]
        exact .taken hchanged
      · simp only [bind, Except.bind, testLists, heq]
        exact .refused error

end Loading

end GpuScript
