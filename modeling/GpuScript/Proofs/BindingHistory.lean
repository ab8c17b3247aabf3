import GpuScript.Proofs.BoundBuffers
import GpuScript.Script

/-!
# Histories of bindings

The buffer at a binding is the result of the test lines about that binding, carried out in order on
it alone. The commands of a script that write to a buffer are the data of those lines. Both hold of
the empty table and are kept by every line.
-/

namespace GpuScript

/-- Whether some lines about a binding, carried out in order, leave a buffer there. -/
inductive History (binding : Binding) : Option Buffer → List TestLine → Prop
  | start : History binding none []
  | next {old? : Option Buffer} {lines : List TestLine} {line : TestLine} {new : Buffer}
      (hold : History binding old? lines) (hread : line.WellRead)
      (hbinding : line.binding? = some binding) (hstep : BoundStep old? line new) :
      History binding (some new) (lines ++ [line])

def linesOn (binding : Binding) (lines : List TestLine) : List TestLine :=
  lines.filter fun line => line.binding? = some binding

def TestLine.data? : TestLine → Option (Nat × List Value)
  | .subdata _ _ _ offset values => some (offset, values)
  | _ => none

/-- The offset and the values of an operation that writes to the buffer at an index. -/
def Operation.dataFor? (index : Nat) (operation : Operation) : Option (Nat × List Value) :=
  operation.write?.bind fun write => if write.1 = index then some write.2 else none

/-- The offsets and values that some commands write to the buffer at an index, in order. -/
def writesTo (index : Nat) (commands : List Command) : List (Nat × List Value) :=
  commands.filterMap fun command => command.operation.dataFor? index

namespace History

variable {binding : Binding} {old? : Option Buffer} {lines : List TestLine} {b : Buffer}

theorem eq_nil (h : History binding old? lines) (hnone : old? = none) : lines = [] := by
  cases h with
  | start => rfl
  | next => cases hnone

theorem wellRead (h : History binding old? lines) : ∀ line ∈ lines, line.WellRead := by
  induction h with
  | start => simp
  | next hold hread hbinding hstep ih =>
    intro line hline
    rcases List.mem_append.1 hline with hline | hline
    · exact ih line hline
    · rw [List.mem_singleton.1 hline]
      exact hread

/-- What every step gives, holds of the buffer that some lines leave. -/
theorem rec_some {motive : Buffer → List TestLine → Prop}
    (hstep : ∀ {old? : Option Buffer} {lines : List TestLine} {line : TestLine} {new : Buffer},
      History binding old? lines → line.WellRead → line.binding? = some binding →
        BoundStep old? line new → (∀ b, old? = some b → motive b lines) →
          motive new (lines ++ [line]))
    (h : History binding (some b) lines) : motive b lines := by
  generalize hb : some b = old? at h
  induction h generalizing b with
  | start => cases hb
  | next hold hread hbinding hnext ih =>
    cases hb
    exact hstep hold hread hbinding hnext fun b hb => ih hb.symm

theorem binding_eq (h : History binding (some b) lines) : b.binding = some binding :=
  h.rec_some (motive := fun b _ => b.binding = some binding)
    fun _ _ hbinding hnext ih => hnext.binding_eq hbinding ih

theorem isBound (h : History binding (some b) lines) : b.kind.IsBound := by
  cases h with
  | next hold hread hbinding hstep => exact hstep.isBound hread

theorem inOrder (h : History binding (some b) lines) : b.InOrder := by
  have hkind := h.isBound
  have hbinding := h.binding_eq
  refine ⟨⟨fun _ => by simp [hbinding], fun _ => hkind⟩, ?_, ?_⟩
  · intro hnone
    rw [hbinding] at hnone
    cases hnone
  · intro hindex
    simp [hindex, BufferKind.IsBound] at hkind

end History

/-- Whether a table and some commands are what lines of test sections lead to. -/
structure Tracks (buffers : List Buffer) (commands : List Command) (lines : List TestLine) :
    Prop where
  valid : ValidTable buffers
  history : ∀ binding, History binding buffers[bindingIndex buffers binding]? (linesOn binding lines)
  writes : ∀ (i : Nat) (b : Buffer) (binding : Binding), buffers[i]? = some b →
    b.binding = some binding → writesTo i commands = (linesOn binding lines).filterMap TestLine.data?
  written : ∀ i : Nat, writesTo i commands ≠ [] → ∃ b, buffers[i]? = some b ∧ b.binding ≠ none

theorem getElem?_bindingIndex_eq_some_iff {buffers : List Buffer} (hvalid : ValidTable buffers)
    {binding : Binding} {b : Buffer} :
    buffers[bindingIndex buffers binding]? = some b ↔
      ∃ i : Nat, buffers[i]? = some b ∧ b.binding = some binding := by
  constructor
  · intro h
    exact ⟨_, h, binding_of_getElem?_bindingIndex h⟩
  · rintro ⟨i, hi, hbinding⟩
    rw [bindingIndex_of_getElem? hvalid hi hbinding]
    exact hi

theorem getElem?_bindingIndex_congr {buffers new : List Buffer} (hvalid : ValidTable buffers)
    (hnew : ValidTable new) (binding : Binding)
    (h : ∀ (i : Nat) (b : Buffer), b.binding = some binding →
      (new[i]? = some b ↔ buffers[i]? = some b)) :
    new[bindingIndex new binding]? = buffers[bindingIndex buffers binding]? := by
  apply Option.ext
  intro b
  rw [getElem?_bindingIndex_eq_some_iff hnew, getElem?_bindingIndex_eq_some_iff hvalid]
  apply exists_congr
  intro i
  apply and_congr_left
  intro hb
  exact h i b hb

theorem getElem?_bindingIndex_put {buffers : List Buffer} (hvalid : ValidTable buffers)
    {binding : Binding} {b : Buffer} (horder : b.InOrder) (hb : b.binding = some binding)
    (other : Binding) :
    (putAt buffers (bindingIndex buffers binding) b)[bindingIndex
        (putAt buffers (bindingIndex buffers binding) b) other]? =
      if other = binding then some b else buffers[bindingIndex buffers other]? := by
  have hput := hvalid.put horder hb
  have hget := getElem?_putAt (b := b) (bindingIndex_le buffers binding)
  split
  · next hsame =>
    subst hsame
    rw [bindingIndex_of_getElem? hput (by rw [hget, if_pos rfl]) hb, hget, if_pos rfl]
  -- A new buffer at the end does not take the place of another binding that has none yet.
  · next hother =>
    exact getElem?_bindingIndex_congr hvalid hput other
      fun i c hc => getElem?_put_eq_some_iff hb (by simpa [hc] using hother) i

theorem linesOn_append_self {binding : Binding} {line : TestLine} (lines : List TestLine)
    (h : line.binding? = some binding) :
    linesOn binding (lines ++ [line]) = linesOn binding lines ++ [line] := by
  simp [linesOn, List.filter_append, h]

theorem linesOn_append_other {binding : Binding} {line : TestLine} (lines : List TestLine)
    (h : line.binding? ≠ some binding) :
    linesOn binding (lines ++ [line]) = linesOn binding lines := by
  simp [linesOn, List.filter_append, h]

def commandsOf (number : Nat) (operation? : Option Operation) : List Command :=
  (operation?.map fun operation => Command.mk number operation).toList

theorem writesTo_append (i : Nat) (commands more : List Command) :
    writesTo i (commands ++ more) = writesTo i commands ++ writesTo i more :=
  List.filterMap_append

theorem writesTo_commandsOf {line : TestLine} {index : Nat} (number i : Nat)
    (hbinding : line.binding? ≠ none) :
    writesTo i (commandsOf number (line.operation? index)) =
      if index = i then line.data?.toList else [] := by
  cases line with
  | clear operation => exact (hbinding rfl).elim
  | subdata kind binding format offset values =>
    simp only [commandsOf, TestLine.operation?, writesTo, Option.map_some, Option.toList_some,
      Operation.dataFor?, Operation.write?, TestLine.data?]
    split <;> simp [*]
  | size => simp [commandsOf, TestLine.operation?, writesTo, TestLine.data?]

theorem filterMap_data?_append (lines : List TestLine) (line : TestLine) :
    (lines ++ [line]).filterMap TestLine.data? =
      lines.filterMap TestLine.data? ++ line.data?.toList := by
  rw [List.filterMap_append]
  cases h : line.data? <;> simp [h]

theorem writesTo_commandsOf_clear {operation : Operation} (h : operation.write? = none)
    (number i : Nat) : writesTo i (commandsOf number (some operation)) = [] := by
  simp [writesTo, commandsOf, Operation.dataFor?, h]

namespace Tracks

variable {buffers new : List Buffer} {commands : List Command} {lines : List TestLine}

/-- Edits of the table leave what the test lines led to. -/
theorem keepsBound (h : Tracks buffers commands lines) (hkeeps : KeepsBound buffers new) :
    Tracks new commands lines := by
  have hvalid := h.valid.keepsBound hkeeps
  refine ⟨hvalid, ?_, ?_, ?_⟩
  · intro binding
    have hsame := getElem?_bindingIndex_congr h.valid hvalid binding
      fun i b hb => hkeeps.getElem?_eq_some_iff (by simp [hb])
    rw [hsame]
    exact h.history binding
  · intro i b binding hb hbinding
    exact h.writes i b binding ((hkeeps.getElem?_eq_some_iff (by simp [hbinding])).1 hb) hbinding
  · intro i hi
    obtain ⟨b, hb, hbound⟩ := h.written i hi
    exact ⟨b, (hkeeps.getElem?_eq_some_iff hbound).2 hb, hbound⟩

theorem clear (h : Tracks buffers commands lines) {operation : Operation}
    (hread : (TestLine.clear operation).WellRead) (number : Nat) :
    Tracks buffers (commands ++ commandsOf number (some operation))
      (lines ++ [.clear operation]) := by
  have hlines : ∀ binding, linesOn binding (lines ++ [.clear operation]) = linesOn binding lines :=
    fun binding => linesOn_append_other lines (by simp [TestLine.binding?])
  have hwrites : ∀ i, writesTo i (commands ++ commandsOf number (some operation)) =
      writesTo i commands := by
    intro i
    rw [writesTo_append, writesTo_commandsOf_clear hread, List.append_nil]
  refine ⟨h.valid, ?_, ?_, ?_⟩
  · intro binding
    rw [hlines]
    exact h.history binding
  · intro i b binding hb hbinding
    rw [hlines, hwrites]
    exact h.writes i b binding hb hbinding
  · intro i hi
    rw [hwrites] at hi
    exact h.written i hi

theorem writesTo_bindingIndex (h : Tracks buffers commands lines) (binding : Binding) :
    writesTo (bindingIndex buffers binding) commands =
      (linesOn binding lines).filterMap TestLine.data? := by
  cases hb : buffers[bindingIndex buffers binding]? with
  | some b => exact h.writes _ b binding hb (binding_of_getElem?_bindingIndex hb)
  | none =>
    have hhistory := h.history binding
    rw [hb] at hhistory
    rw [hhistory.eq_nil rfl]
    by_contra hne
    obtain ⟨b, hb', -⟩ := h.written _ hne
    rw [hb] at hb'
    cases hb'

theorem history_of_getElem? (h : Tracks buffers commands lines) {i : Nat} {b : Buffer}
    {binding : Binding} (hb : buffers[i]? = some b) (hbinding : b.binding = some binding) :
    History binding (some b) (linesOn binding lines) := by
  have hhistory := h.history binding
  rwa [bindingIndex_of_getElem? h.valid hb hbinding, hb] at hhistory

theorem history_put (h : Tracks buffers commands lines) {line : TestLine} {binding : Binding}
    {b : Buffer} (hbinding : line.binding? = some binding)
    (hnext : History binding (some b) (linesOn binding lines ++ [line])) (other : Binding) :
    History other (putAt buffers (bindingIndex buffers binding) b)[bindingIndex
      (putAt buffers (bindingIndex buffers binding) b) other]? (linesOn other (lines ++ [line])) := by
  rw [getElem?_bindingIndex_put h.valid hnext.inOrder hnext.binding_eq]
  split
  · next hsame =>
    subst hsame
    rw [linesOn_append_self lines hbinding]
    exact hnext
  · next hother =>
    rw [linesOn_append_other lines (by simpa [hbinding] using Ne.symm hother)]
    exact h.history other

theorem bound (h : Tracks buffers commands lines) {line : TestLine} {binding : Binding}
    {b : Buffer} (hread : line.WellRead) (hbinding : line.binding? = some binding)
    (hstep : BoundStep buffers[bindingIndex buffers binding]? line b) (number : Nat) :
    Tracks (putAt buffers (bindingIndex buffers binding) b)
      (commands ++ commandsOf number (line.operation? (bindingIndex buffers binding)))
      (lines ++ [line]) := by
  have hnext : History binding (some b) (linesOn binding lines ++ [line]) :=
    .next (h.history binding) hread hbinding hstep
  have hb : b.binding = some binding := hnext.binding_eq
  have hget := getElem?_putAt (b := b) (bindingIndex_le buffers binding)
  have hwrites : ∀ i, writesTo i
      (commands ++ commandsOf number (line.operation? (bindingIndex buffers binding))) =
        writesTo i commands ++
          if bindingIndex buffers binding = i then line.data?.toList else [] := by
    intro i
    rw [writesTo_append, writesTo_commandsOf number i (by simp [hbinding])]
  refine ⟨h.valid.put hnext.inOrder hb, h.history_put hbinding hnext, ?_, ?_⟩
  · intro i c other hc hcother
    rw [hwrites]
    by_cases hi : bindingIndex buffers binding = i
    · subst hi
      rw [hget, if_pos rfl] at hc
      cases hc
      rw [hb] at hcother
      cases hcother
      rw [if_pos rfl, h.writesTo_bindingIndex, linesOn_append_self lines hbinding,
        filterMap_data?_append]
    · rw [hget, if_neg (Ne.symm hi)] at hc
      have hsame : other ≠ binding := by
        rintro rfl
        exact hi (bindingIndex_of_getElem? h.valid hc hcother)
      rw [if_neg hi, List.append_nil,
        linesOn_append_other lines (by simpa [hbinding] using Ne.symm hsame)]
      exact h.writes i c other hc hcother
  · intro i hi
    rw [hwrites] at hi
    by_cases heq : bindingIndex buffers binding = i
    · subst heq
      exact ⟨b, by rw [hget, if_pos rfl], by simp [hb]⟩
    · rw [if_neg heq, List.append_nil] at hi
      obtain ⟨c, hc, hbound⟩ := h.written i hi
      exact ⟨c, by rw [hget, if_neg (Ne.symm heq), hc], hbound⟩

theorem line (h : Tracks buffers commands lines) {line : TestLine} (hread : line.WellRead)
    {operation? : Option Operation} (heffect : LineEffect buffers line (new, operation?))
    (number : Nat) : Tracks new (commands ++ commandsOf number operation?) (lines ++ [line]) := by
  cases heffect with
  | clear operation => exact h.clear hread number
  | bound hbinding hstep => exact h.bound hread hbinding hstep number

end Tracks

end GpuScript
