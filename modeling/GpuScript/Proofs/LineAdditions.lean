import GpuScript.Proofs.LineStarts
import GpuScript.Proofs.LoadingRun
import GpuScript.Proofs.TableChanges

/-!
# What lines add

A line that is taken in changes the table of buffers, adds at most one command, which has the number
of the line, and may add a requirement. Nothing that was there is removed. So a script can be loaded
in parts: what comes behind whole lines starts in the state that they lead to.
-/

namespace GpuScript

/-- Whether requirements are others with further ones behind them. -/
structure Requirements.Extended (old new : Requirements) : Prop where
  features : old.features <+: new.features
  deviceExtensions : old.deviceExtensions <+: new.deviceExtensions
  instanceExtensions : old.instanceExtensions <+: new.instanceExtensions

namespace Requirements.Extended

variable {a b c : Requirements}

theorem refl (a : Requirements) : a.Extended a :=
  ⟨List.prefix_refl _, List.prefix_refl _, List.prefix_refl _⟩

theorem trans (h : a.Extended b) (h' : b.Extended c) : a.Extended c :=
  ⟨h.features.trans h'.features, h.deviceExtensions.trans h'.deviceExtensions,
    h.instanceExtensions.trans h'.instanceExtensions⟩

theorem insert (a : Requirements) (kind : RequirementKind) (name : String) :
    a.Extended (a.insert kind name) := by
  obtain ⟨hfeatures, hdevice, hinstance⟩ := refl a
  cases kind with
  | feature => exact ⟨List.prefix_append _ _, hdevice, hinstance⟩
  | deviceExtension => exact ⟨hfeatures, List.prefix_append _ _, hinstance⟩
  | instanceExtension => exact ⟨hfeatures, hdevice, List.prefix_append _ _⟩

end Requirements.Extended

namespace Loading

/-- Whether a state is another one after a line with a number. -/
structure Adds (number : Nat) (old new : Loading) : Prop where
  buffers : TableChanges old.script.buffers new.script.buffers
  commands : ∃ operation?,
    new.script.commands = old.script.commands ++ commandsOf number operation?
  requirements : old.script.requirements.Extended new.script.requirements

variable {settings : Settings} {state mid new final : Loading} {number : Nat}

theorem Adds.of_eq (hbuffers : new.script.buffers = state.script.buffers)
    (hcommands : new.script.commands = state.script.commands)
    (hrequirements : new.script.requirements = state.script.requirements) :
    state.Adds number new :=
  ⟨hbuffers ▸ .refl _, ⟨none, by rw [hcommands]; exact (List.append_nil _).symm⟩,
    hrequirements ▸ .refl _⟩

theorem Adds.setBuffers {buffers : List Buffer} (h : TableChanges state.script.buffers buffers) :
    state.Adds number (state.setBuffers buffers) :=
  ⟨h, ⟨none, (List.append_nil _).symm⟩, .refl _⟩

theorem adds_of_takeHeader {text : List Char} (h : state.takeHeader text = .ok new) :
    state.Adds number new := by
  obtain ⟨header, -, h⟩ := exists_of_bind_eq_ok h
  have hkeeps := keepsScript_of_header (orInvalid_eq_ok_iff.1 h)
  exact .of_eq hkeeps.buffers hkeeps.commands hkeeps.requirements

theorem adds_of_runRequireLine {asked : RequireLine} (h : state.runRequireLine asked = .ok new) :
    state.Adds number new := by
  cases asked with
  | framebuffer format =>
    obtain ⟨buffers, hbuffers, h⟩ := exists_of_bind_eq_ok h
    cases h
    exact .setBuffers (.of_setFormat hbuffers)
  | depthStencil format =>
    obtain ⟨buffers, hbuffers, h⟩ := exists_of_bind_eq_ok h
    cases h
    exact .setBuffers (.of_setDepthFormat hbuffers)
  | framebufferSize width height =>
    cases h
    exact .setBuffers (.single (.resize _ width height))
  | fenceTimeout timeout =>
    cases h
    exact .of_eq rfl rfl rfl
  | requirement kind name =>
    cases h
    exact ⟨.refl _, ⟨none, (List.append_nil _).symm⟩, .insert _ kind name⟩

theorem adds_of_takeRequireLine {line : List Char} (h : state.takeRequireLine line = .ok new) :
    state.Adds number new := by
  obtain ⟨asked, -, h⟩ := exists_of_bind_eq_ok h
  cases asked with
  | none =>
    cases h
    exact .of_eq rfl rfl rfl
  | some asked => exact adds_of_runRequireLine h

theorem adds_of_takeVertexLine {line : List Char} (h : state.takeVertexLine line = .ok new) :
    state.Adds number new := by
  unfold takeVertexLine at h
  split at h
  · cases h
    exact .of_eq rfl rfl rfl
  · obtain ⟨formats, -, h⟩ := exists_of_bind_eq_ok h
    obtain ⟨row, -, h⟩ := exists_of_bind_eq_ok h
    obtain ⟨buffers, hbuffers, h⟩ := exists_of_bind_eq_ok h
    cases h
    exact .setBuffers (.of_appendRow hbuffers)
  · obtain ⟨columns, -, h⟩ := exists_of_bind_eq_ok h
    cases h
    exact ⟨.addColumns _ columns, ⟨none, (List.append_nil _).symm⟩, .refl _⟩

theorem adds_of_takeIndexLine {line : List Char} (h : state.takeIndexLine line = .ok new) :
    state.Adds number new := by
  unfold takeIndexLine at h
  split at h
  · cases h
    exact .of_eq rfl rfl rfl
  · obtain ⟨values, -, h⟩ := exists_of_bind_eq_ok h
    obtain ⟨buffers, hbuffers, h⟩ := exists_of_bind_eq_ok h
    cases h
    exact .setBuffers (.of_appendIndices hbuffers)

theorem adds_of_takeTestLine {line : List Char} (h : state.takeTestLine number line = .ok new) :
    state.Adds number new := by
  obtain ⟨asked, hasked, h⟩ := exists_of_bind_eq_ok h
  cases asked with
  | none =>
    cases h
    exact .of_eq rfl rfl rfl
  | some asked =>
    obtain ⟨⟨buffers, operation?⟩, hbuffers, h⟩ := exists_of_bind_eq_ok h
    cases h
    have hread := wellRead_of_readTestLine (orInvalid_eq_ok_iff.1 hasked)
    exact ⟨.of_runTestLine hread hbuffers, ⟨operation?, rfl⟩, .refl _⟩

theorem adds_of_takeLine {text : List Char} (h : state.takeLine number text = .ok new) :
    state.Adds number new := by
  unfold takeLine at h
  split at h
  · exact adds_of_takeHeader h
  · unfold takeBodyLine at h
    split at h
    · split at h <;> cases h
      exact .of_eq rfl rfl rfl
    · cases h
      exact .of_eq rfl rfl rfl
    · exact adds_of_takeRequireLine h
    · obtain ⟨body, -, h⟩ := exists_of_bind_eq_ok h
      cases h
      exact .of_eq rfl rfl rfl
    · exact adds_of_takeVertexLine h
    · exact adds_of_takeIndexLine h
    · exact adds_of_takeTestLine h

theorem adds_of_step {line : NumberedLine} (h : state.step settings line = .ok new) :
    state.Adds line.number new := by
  obtain ⟨text, -, htake⟩ := step_eq_ok_iff.1 h
  exact adds_of_takeLine htake

theorem run_append (state : Loading) (lines more : List NumberedLine) :
    state.run settings (lines ++ more) =
      state.run settings lines >>= fun mid => mid.run settings more := by
  induction lines generalizing state with
  | nil => rfl
  | cons line rest ih =>
    simp only [List.cons_append, run, bind_assoc]
    exact bind_congr fun next => ih next

theorem changes_of_run {lines : List NumberedLine} (h : state.run settings lines = .ok final) :
    TableChanges state.script.buffers final.script.buffers := by
  induction lines generalizing state with
  | nil => exact Except.ok.inj h ▸ .refl _
  | cons line rest ih =>
    obtain ⟨next, hnext, hrest⟩ := exists_of_bind_eq_ok h
    exact (adds_of_step hnext).buffers.trans (ih hrest)

theorem requirements_of_run {lines : List NumberedLine}
    (h : state.run settings lines = .ok final) :
    state.script.requirements.Extended final.script.requirements := by
  induction lines generalizing state with
  | nil => exact Except.ok.inj h ▸ .refl _
  | cons line rest ih =>
    obtain ⟨next, hnext, hrest⟩ := exists_of_bind_eq_ok h
    exact (adds_of_step hnext).requirements.trans (ih hrest)

theorem commandsOf_length_le (number : Nat) (operation? : Option Operation) :
    (commandsOf number operation?).length ≤ 1 := by
  cases operation? <;> simp [commandsOf]

theorem line_of_mem_commandsOf {operation? : Option Operation} {command : Command}
    (h : command ∈ commandsOf number operation?) : command.line = number := by
  cases operation? with
  | none => cases h
  | some operation => rw [List.mem_singleton.1 h]

/-- The commands that a run adds have the numbers of some of its lines, in order. -/
theorem commands_of_run {lines : List NumberedLine} (h : state.run settings lines = .ok final) :
    ∃ added, final.script.commands = state.script.commands ++ added ∧
      (added.map Command.line).Sublist (lines.map NumberedLine.number) := by
  induction lines generalizing state with
  | nil => exact ⟨[], by rw [← Except.ok.inj h, List.append_nil], .slnil⟩
  | cons line rest ih =>
    obtain ⟨next, hnext, hrest⟩ := exists_of_bind_eq_ok h
    obtain ⟨operation?, hcommands⟩ := (adds_of_step hnext).commands
    obtain ⟨added, hadded, hlines⟩ := ih hrest
    refine ⟨commandsOf line.number operation? ++ added, ?_, ?_⟩
    · rw [hadded, hcommands, List.append_assoc]
    · cases operation? with
      | none => exact hlines.cons _
      | some operation => exact hlines.cons_cons _

theorem exists_line_of_command {lines : List NumberedLine}
    (h : state.run settings lines = .ok final) {k : Nat} {command : Command}
    (hk : state.script.commands.length ≤ k) (hcommand : final.script.commands[k]? = some command) :
    ∃ before line rest mid next, lines = before ++ line :: rest ∧
      state.run settings before = .ok mid ∧ mid.step settings line = .ok next ∧
      mid.script.commands = final.script.commands.take k ∧
      next.script.commands = final.script.commands.take (k + 1) ∧ command.line = line.number := by
  induction lines generalizing state with
  | nil =>
    rw [← Except.ok.inj h, List.getElem?_eq_none hk] at hcommand
    cases hcommand
  | cons line rest ih =>
    obtain ⟨next, hnext, hrest⟩ := exists_of_bind_eq_ok h
    rcases Nat.lt_or_ge k next.script.commands.length with hlt | hge
    · obtain ⟨operation?, hcommands⟩ := (adds_of_step hnext).commands
      obtain ⟨added, hadded, -⟩ := commands_of_run hrest
      have hone := commandsOf_length_le line.number operation?
      have hlength := congrArg List.length hcommands
      rw [List.length_append] at hlength
      have hlast : k = state.script.commands.length := by omega
      have hall : next.script.commands.length = k + 1 := by omega
      refine ⟨[], line, rest, state, next, rfl, rfl, hnext, ?_, ?_, ?_⟩
      · rw [hadded, hcommands, hlast, List.append_assoc, List.take_left]
      · rw [hadded, ← hall, List.take_left]
      · rw [hadded, List.getElem?_append_left hlt, hcommands,
          List.getElem?_append_right hk] at hcommand
        exact line_of_mem_commandsOf (List.mem_of_getElem? hcommand)
    · obtain ⟨before, own, others, mid, after, rfl, hbefore, hown⟩ := ih hrest hge
      refine ⟨line :: before, own, others, mid, after, rfl, ?_, hown⟩
      rw [run, hnext]
      exact hbefore

/-- A run that fails stops at one of its lines. -/
theorem exists_line_of_error {lines : List NumberedLine} {failure : Failure LoadError}
    (h : state.run settings lines = .error failure) :
    ∃ before line rest mid, lines = before ++ line :: rest ∧
      state.run settings before = .ok mid ∧ mid.step settings line = .error failure := by
  induction lines generalizing state with
  | nil => cases h
  | cons line rest ih =>
    cases hnext : state.step settings line with
    | error other =>
      rw [run, hnext] at h
      cases h
      exact ⟨[], line, rest, state, rfl, rfl, hnext⟩
    | ok next =>
      rw [run, hnext] at h
      obtain ⟨before, own, others, mid, rfl, hbefore, hown⟩ := ih h
      refine ⟨line :: before, own, others, mid, rfl, ?_, hown⟩
      rw [run, hnext]
      exact hbefore

def after (settings : Settings) (text : List Char) : Except (Failure LoadError) Loading := do
  let state ← orFault (Loading.start settings)
  state.run settings (logicalLines text)

theorem after_eq_run {start : Loading} (h : Loading.start settings = .ok start)
    (text : List Char) : after settings text = start.run settings (logicalLines text) := by
  rw [after, h]
  rfl

theorem after_append {s : List Char} (h : EndsLine s) (t : List Char) :
    after settings (s ++ t) = after settings s >>= fun state =>
      state.run settings (linesFrom (1 + (physicalLines s).length) t) := by
  obtain ⟨start, hstart, -⟩ := exists_start settings
  rw [after_eq_run hstart, after_eq_run hstart, ← run_append]
  congr 1
  exact linesFrom_append h 1 t

theorem testLines_append {s : List Char} (h : EndsLine s) (hafter : after settings s = .ok state)
    (t : List Char) :
    Script.testLines settings (s ++ t) = Script.testLines settings s ++
      state.asked settings (linesFrom (1 + (physicalLines s).length) t) := by
  obtain ⟨start, hstart, -⟩ := exists_start settings
  rw [after_eq_run hstart] at hafter
  rw [Script.testLines, Script.testLines, hstart]
  dsimp only
  rw [← asked_append hafter]
  congr 1
  exact linesFrom_append h 1 t

theorem inStep_of_after {text : List Char} (h : after settings text = .ok state) :
    state.InStep (Script.testLines settings text) := by
  obtain ⟨start, hstart, hin⟩ := exists_start settings
  rw [after_eq_run hstart] at h
  have hrun := (ensures_run settings hin (logicalLines text)).property_of_eq_ok h
  rw [Script.testLines, hstart]
  exact hrun

end Loading

theorem Script.load_eq (settings : Settings) (source : List Char) :
    load settings source =
      (Loading.after settings source).map fun state => state.endSection.script := by
  obtain ⟨start, hstart, -⟩ := Loading.exists_start settings
  rw [load, Loading.after, hstart]
  rfl

end GpuScript
