import GpuScript.Proofs.BindingHistory

/-!
# Runs over the lines of a script

Every line keeps the state in step with the test lines taken in so far. Lines of other sections only
edit the table of buffers; a line of a test section is carried out on the buffer of its binding. A
whole run is followed by induction on its lines.
-/

namespace GpuScript

namespace Loading

/-- What a line whose tokens were replaced asks for, if it belongs to a test section. -/
def asked? (state : Loading) (text : List Char) : Option TestLine :=
  if text.head? = some '[' ∨ state.current ≠ .test then none
  else
    match readTestLine text with
    | .ok asked => asked
    | .error _ => none

/-- The test lines among some logical lines, up to one that cannot be taken in. -/
def asked (settings : Settings) : Loading → List NumberedLine → List TestLine
  | _, [] => []
  | state, line :: rest =>
    let here := (replaceTokens settings.rules replacementLimit line.text).bind state.asked?
    match state.step settings line with
    | .ok next => here.toList ++ next.asked settings rest
    | .error _ => here.toList

/-- Whether a state is what some test lines led to, with the columns of vertex data in place. -/
structure InStep (state : Loading) (lines : List TestLine) : Prop where
  tracks : Tracks state.script.buffers state.script.commands lines
  columns : ∀ columns, state.vertexData = .rows columns →
    ∀ i ∈ columns, ∃ format, IsColumn state.script.buffers i format

/-- Whether a state is another one after a line that is not carried out as a test line. -/
structure Advances (old new : Loading) : Prop where
  buffers : KeepsBound old.script.buffers new.script.buffers
  commands : new.script.commands = old.script.commands
  columns : ∀ columns, new.vertexData = .rows columns → old.vertexData = .rows columns ∨
    ∀ i ∈ columns, ∃ format, IsColumn new.script.buffers i format

/-- Whether a state is another one after a header, which leaves the script but for its shaders. -/
structure KeepsScript (old new : Loading) : Prop where
  buffers : new.script.buffers = old.script.buffers
  commands : new.script.commands = old.script.commands
  requirements : new.script.requirements = old.script.requirements
  vertexData : new.vertexData = old.vertexData ∨
    old.vertexData = .absent ∧ new.vertexData = .header

/-- Whether a state is another one after edits of the table or of what the script requires. -/
structure Edits (old new : Loading) : Prop where
  buffers : KeepsBound old.script.buffers new.script.buffers
  commands : new.script.commands = old.script.commands
  shaders : new.script.shaders = old.script.shaders
  current : new.current = old.current
  begun : new.begun = old.begun
  vertexData : new.vertexData = old.vertexData

section Lines

variable {state new : Loading} {lines : List TestLine}

theorem Edits.refl (state : Loading) : state.Edits state :=
  ⟨.refl _, rfl, rfl, rfl, rfl, rfl⟩

theorem Edits.setBuffers {buffers : List Buffer} (h : KeepsBound state.script.buffers buffers) :
    state.Edits (state.setBuffers buffers) :=
  ⟨h, rfl, rfl, rfl, rfl, rfl⟩

theorem Edits.advances (h : state.Edits new) : state.Advances new :=
  ⟨h.buffers, h.commands, fun _ hcolumns => .inl (h.vertexData ▸ hcolumns)⟩

theorem InStep.advances (h : state.InStep lines) (hnew : state.Advances new) :
    new.InStep lines := by
  refine ⟨?_, ?_⟩
  · rw [hnew.commands]
    exact h.tracks.keepsBound hnew.buffers
  · intro columns hcolumns i hi
    rcases hnew.columns columns hcolumns with hold | hcolumns
    · obtain ⟨format, hcolumn⟩ := h.columns columns hold i hi
      exact ⟨format, hcolumn.keepsBound hnew.buffers⟩
    · exact hcolumns i hi

/-- A state whose script has the same buffers and commands, and no new columns. -/
theorem Advances.of_eq (hbuffers : new.script.buffers = state.script.buffers)
    (hcommands : new.script.commands = state.script.commands)
    (hcolumns : ∀ columns, new.vertexData = .rows columns → state.vertexData = .rows columns) :
    state.Advances new := by
  refine ⟨?_, hcommands, fun columns h => .inl (hcolumns columns h)⟩
  rw [hbuffers]
  exact .refl _

theorem endSection_frame (state : Loading) :
    state.endSection.script.buffers = state.script.buffers ∧
      state.endSection.script.commands = state.script.commands ∧
      state.endSection.vertexData = state.vertexData := by
  unfold endSection
  split <;> exact ⟨rfl, rfl, rfl⟩

theorem requirements_endSection (state : Loading) :
    state.endSection.script.requirements = state.script.requirements := by
  unfold endSection
  split <;> rfl

theorem keepsScript_of_enter {header : Header} (h : state.enter header = .ok new) :
    state.KeepsScript new := by
  cases header with
  | comment | test | indices =>
    cases h
    exact ⟨rfl, rfl, rfl, .inl rfl⟩
  | require =>
    simp only [enter] at h
    split at h <;> cases h
    exact ⟨rfl, rfl, rfl, .inl rfl⟩
  | vertexData =>
    simp only [enter] at h
    split at h <;> cases h
    next habsent => exact ⟨rfl, rfl, rfl, .inr ⟨Decidable.not_not.1 habsent, rfl⟩⟩
  | shader stage shader =>
    simp only [enter] at h
    split at h
    · cases h
    · split at h <;>
        cases h <;> exact ⟨rfl, rfl, rfl, .inl rfl⟩

theorem keepsScript_of_header {header : Header} (h : state.endSection.enter header = .ok new) :
    state.KeepsScript new := by
  obtain ⟨hbuffers, hcommands, hrequirements, hdata⟩ := keepsScript_of_enter h
  obtain ⟨hbuffers', hcommands', hdata'⟩ := endSection_frame state
  rw [hdata'] at hdata
  exact ⟨hbuffers.trans hbuffers', hcommands.trans hcommands',
    hrequirements.trans (requirements_endSection state), hdata⟩

theorem KeepsScript.advances (h : state.KeepsScript new) : state.Advances new := by
  refine .of_eq h.buffers h.commands ?_
  intro columns hcolumns
  rcases h.vertexData with hsame | ⟨-, hheader⟩
  · rw [← hsame, hcolumns]
  · rw [hheader] at hcolumns
    cases hcolumns

theorem ensures_takeHeader (state : Loading) (text : List Char) :
    Ensures LoadCause.IsInvalid state.Advances (state.takeHeader text) := by
  refine .bind_orInvalid ?_
  intro header _
  refine .of_orInvalid ?_
  intro new hnew
  exact (keepsScript_of_header hnew).advances

theorem exists_runRequireLine (hvalid : ValidTable state.script.buffers) (line : RequireLine) :
    ∃ new, state.runRequireLine line = .ok new ∧ state.Edits new := by
  cases line with
  | framebuffer format =>
    obtain ⟨color, hcolor, hkind⟩ := hvalid.color
    obtain ⟨buffers, hbuffers, hkeeps⟩ :=
      exists_updateAt_setFormat hvalid hcolor (.inl hkind) format
    exact ⟨_, congrArg (· >>= fun buffers => pure (state.setBuffers buffers)) hbuffers,
      .setBuffers hkeeps⟩
  | depthStencil format =>
    obtain ⟨buffers, hbuffers, hkeeps⟩ := exists_setDepthFormat hvalid format
    exact ⟨_, congrArg (· >>= fun buffers => pure (state.setBuffers buffers)) hbuffers,
      .setBuffers hkeeps⟩
  | framebufferSize width height =>
    exact ⟨_, rfl, .setBuffers (keepsBound_setFramebufferSize hvalid width height)⟩
  | fenceTimeout | requirement => exact ⟨_, rfl, .refl _, rfl, rfl, rfl, rfl, rfl⟩

theorem ensures_takeRequireLine (hvalid : ValidTable state.script.buffers) (line : List Char) :
    Ensures LoadCause.IsInvalid state.Advances (state.takeRequireLine line) := by
  refine .bind_orInvalid ?_
  intro asked _
  cases asked with
  | none => exact (Edits.refl state).advances
  | some asked =>
    obtain ⟨new, hnew, hedits⟩ := exists_runRequireLine hvalid asked
    dsimp only
    rw [hnew]
    exact hedits.advances

theorem ensures_takeShaderLine (state : Loading) (stage : Stage) (body : ShaderBody)
    (line : List Char) :
    Ensures LoadCause.IsInvalid state.Advances (state.takeShaderLine stage body line) := by
  refine .bind_orInvalid ?_
  intro more _
  exact .of_eq rfl rfl fun _ => id

theorem ensures_takeColumns (state : Loading) (text : List Char) :
    Ensures LoadCause.IsInvalid state.Advances (state.takeColumns text) := by
  refine .bind_orInvalid ?_
  intro columns _
  refine ⟨keepsBound_addColumns columns, rfl, ?_⟩
  intro indices hindices
  right
  cases hindices
  intro i hi
  obtain ⟨k, hk, rfl⟩ := List.mem_map.1 hi
  exact ⟨_, isColumn_addColumns (List.mem_range.1 hk)⟩

theorem exists_takeRow (hvalid : ValidTable state.script.buffers) {columns : List Nat}
    {formats : List Format}
    (hcolumns : List.Forall₂ (IsColumn state.script.buffers) columns formats) {text : List Char}
    {row : List (List Value)} (hrow : readRow formats (words text) = .ok row) :
    ∃ new, state.takeRow columns text = .ok new ∧ state.Edits new := by
  obtain ⟨buffers, hbuffers, hkeeps⟩ := exists_appendRow_of_readRow hvalid hcolumns hrow
  refine ⟨state.setBuffers buffers, ?_, .setBuffers hkeeps⟩
  rw [takeRow, formatsAt_eq hcolumns]
  simp only [bind, Except.bind, hrow, orInvalid, hbuffers]
  rfl

theorem ensures_takeRow (h : state.InStep lines) {columns : List Nat}
    (hcolumns : state.vertexData = .rows columns) (text : List Char) :
    Ensures LoadCause.IsInvalid state.Advances (state.takeRow columns text) := by
  obtain ⟨formats, hformats, hall⟩ := exists_formatsAt (h.columns columns hcolumns)
  cases hrow : readRow formats (words text) with
  | error cause =>
    rw [takeRow, hformats]
    simp only [bind, Except.bind, hrow]
    exact .reject cause
  | ok row =>
    obtain ⟨new, hnew, hedits⟩ := exists_takeRow h.tracks.valid hall hrow
    rw [hnew]
    exact hedits.advances

theorem ensures_takeVertexLine (h : state.InStep lines) (line : List Char) :
    Ensures LoadCause.IsInvalid state.Advances (state.takeVertexLine line) := by
  unfold takeVertexLine
  split
  · exact .of_eq rfl rfl fun _ => id
  · next columns hcolumns => exact ensures_takeRow h hcolumns _
  · exact ensures_takeColumns state _

theorem exists_takeIndexLine (hvalid : ValidTable state.script.buffers) {line text : List Char}
    (htext : content? line = some text) {values : List Value}
    (hvalues : readIndices (words text) = .ok values) :
    ∃ new, state.takeIndexLine line = .ok new ∧ state.Edits new := by
  obtain ⟨buffers, hbuffers, hkeeps⟩ :=
    exists_appendIndices hvalid (scalar_of_readIndices hvalues)
  refine ⟨state.setBuffers buffers, ?_, .setBuffers hkeeps⟩
  rw [takeIndexLine, htext]
  simp only [bind, Except.bind, hvalues, orInvalid, hbuffers]
  rfl

theorem ensures_takeIndexLine (hvalid : ValidTable state.script.buffers) (line : List Char) :
    Ensures LoadCause.IsInvalid state.Edits (state.takeIndexLine line) := by
  cases htext : content? line with
  | none =>
    rw [takeIndexLine, htext]
    exact Edits.refl state
  | some text =>
    cases hvalues : readIndices (words text) with
    | error cause =>
      rw [takeIndexLine, htext]
      simp only [bind, Except.bind, hvalues]
      exact .reject cause
    | ok values =>
      obtain ⟨new, hnew, hedits⟩ := exists_takeIndexLine hvalid htext hvalues
      rw [hnew]
      exact hedits

theorem ensures_takeTestLine (h : state.InStep lines) (number : Nat) (text : List Char) :
    Ensures LoadCause.IsInvalid
      (fun new => ∃ asked, readTestLine text = .ok asked ∧ new.InStep (lines ++ asked.toList))
      (state.takeTestLine number text) := by
  refine .bind_orInvalid ?_
  intro asked hasked
  cases asked with
  | none =>
    refine ⟨none, hasked, ?_⟩
    rw [Option.toList_none, List.append_nil]
    exact h
  | some line =>
    have hread := wellRead_of_readTestLine hasked
    refine .bind (ensures_runTestLine hread) ?_
    rintro ⟨buffers, operation?⟩ heffect
    refine ⟨some line, hasked, h.tracks.line hread heffect number, ?_⟩
    intro columns hcolumns i hi
    obtain ⟨format, hcolumn⟩ := h.columns columns hcolumns i hi
    cases heffect with
    | clear operation => exact ⟨format, hcolumn⟩
    | bound hbinding hstep =>
      have hnew := hstep.binding_eq hbinding fun _ => binding_of_getElem?_bindingIndex
      exact ⟨format, hcolumn.put h.tracks.valid hnew⟩

theorem asked?_bracket (text : List Char) : state.asked? ('[' :: text) = none := by
  simp [asked?]

theorem asked?_of_not_test {text : List Char} (h : state.current ≠ .test) :
    state.asked? text = none := by
  simp [asked?, h]

theorem asked?_of_test {text : List Char} {read : Option TestLine} (hcurrent : state.current = .test)
    (htext : text.head? ≠ some '[') (hread : readTestLine text = .ok read) :
    state.asked? text = read := by
  simp [asked?, hcurrent, htext, hread]

theorem ensures_takeBodyLine (h : state.InStep lines) (number : Nat) {text : List Char}
    (htext : text.head? ≠ some '[') :
    Ensures LoadCause.IsInvalid (fun new => new.InStep (lines ++ (state.asked? text).toList))
      (state.takeBodyLine number text) := by
  have hother : state.current ≠ .test → ∀ {x : LineResult Loading},
      Ensures LoadCause.IsInvalid state.Advances x → Ensures LoadCause.IsInvalid
        (fun new => new.InStep (lines ++ (state.asked? text).toList)) x := by
    intro hcurrent x hx
    rw [asked?_of_not_test hcurrent, Option.toList_none, List.append_nil]
    exact hx.mono fun new hnew => h.advances hnew
  have hvalid := h.tracks.valid
  have hrefl : Ensures LoadCause.IsInvalid state.Advances (.ok state) :=
    Advances.of_eq rfl rfl fun _ => id
  unfold takeBodyLine
  split
  · next hcurrent =>
    refine hother (by simp [hcurrent]) ?_
    split
    · exact hrefl
    · exact .reject _
  · next hcurrent => exact hother (by simp [hcurrent]) hrefl
  · next hcurrent => exact hother (by simp [hcurrent]) (ensures_takeRequireLine hvalid text)
  · next hcurrent => exact hother (by simp [hcurrent]) (ensures_takeShaderLine state _ _ text)
  · next hcurrent => exact hother (by simp [hcurrent]) (ensures_takeVertexLine h text)
  · next hcurrent =>
    exact hother (by simp [hcurrent]) ((ensures_takeIndexLine hvalid text).mono fun _ => Edits.advances)
  · next hcurrent =>
    refine (ensures_takeTestLine h number text).mono ?_
    rintro new ⟨read, hread, hnew⟩
    rw [asked?_of_test hcurrent htext hread]
    exact hnew

theorem ensures_takeLine (h : state.InStep lines) (number : Nat) (text : List Char) :
    Ensures LoadCause.IsInvalid (fun new => new.InStep (lines ++ (state.asked? text).toList))
      (state.takeLine number text) := by
  unfold takeLine
  split
  · rw [asked?_bracket, Option.toList_none, List.append_nil]
    exact (ensures_takeHeader state _).mono fun new hnew => h.advances hnew
  · next htext =>
    refine ensures_takeBodyLine h number ?_
    intro hhead
    obtain ⟨rest, hrest⟩ := List.head?_eq_some_iff.1 hhead
    exact htext rest hrest

end Lines

end Loading

/-- Whether a text is refused for what is wrong with a line or for endless replacements. -/
def LoadError.IsExpected (error : LoadError) : Prop :=
  error.cause.IsInvalid ∨ error.cause = .replacementLoop

namespace Loading

variable {state : Loading} {lines : List TestLine}

theorem ensures_report {property : Loading → Prop} {number : Nat} {x : LineResult Loading}
    (h : Ensures LoadCause.IsInvalid property x) :
    Ensures LoadError.IsExpected property (report number x) := by
  rcases h.cases with ⟨new, rfl, hnew⟩ | ⟨cause, rfl, hcause⟩
  · exact hnew
  · exact .inl hcause

theorem ensures_step (settings : Settings) (h : state.InStep lines) (line : NumberedLine) :
    Ensures LoadError.IsExpected
      (fun new => new.InStep (lines ++ ((replaceTokens settings.rules replacementLimit
        line.text).bind state.asked?).toList))
      (state.step settings line) := by
  unfold step
  split
  · exact .inr rfl
  · next text htext =>
    rw [htext, Option.bind_some]
    exact ensures_report (ensures_takeLine h line.number text)

theorem takeLine_of_ne_bracket {number : Nat} {text : List Char}
    (h : text.head? ≠ some '[') :
    state.takeLine number text = state.takeBodyLine number text := by
  unfold takeLine
  split
  · exact (h rfl).elim
  · rfl

theorem step_eq_ok_iff {settings : Settings} {line : NumberedLine} {next : Loading} :
    state.step settings line = .ok next ↔
      ∃ text, replaceTokens settings.rules replacementLimit line.text = some text ∧
        state.takeLine line.number text = .ok next := by
  unfold step
  cases replaceTokens settings.rules replacementLimit line.text with
  | none => simp [refuse]
  | some text =>
    simp only [Option.some.injEq, exists_eq_left']
    cases state.takeLine line.number text with
    | ok new => simp [report]
    | error failure => cases failure <;> simp [report, refuse]

theorem asked_cons {settings : Settings} {line : NumberedLine} {next : Loading}
    (h : state.step settings line = .ok next) (rest : List NumberedLine) :
    state.asked settings (line :: rest) =
      ((replaceTokens settings.rules replacementLimit line.text).bind state.asked?).toList ++
        next.asked settings rest := by
  rw [asked, h]

theorem asked_append {settings : Settings} {ahead : List NumberedLine} {mid : Loading}
    (h : state.run settings ahead = .ok mid) (more : List NumberedLine) :
    state.asked settings (ahead ++ more) =
      state.asked settings ahead ++ mid.asked settings more := by
  induction ahead generalizing state with
  | nil =>
    cases h
    rfl
  | cons line rest ih =>
    obtain ⟨next, hnext, hrest⟩ := exists_of_bind_eq_ok h
    rw [List.cons_append, asked_cons hnext, asked_cons hnext, ih hrest, List.append_assoc]

/-- A run over further lines adds the test lines among them. -/
theorem ensures_run (settings : Settings) (h : state.InStep lines) (more : List NumberedLine) :
    Ensures LoadError.IsExpected (fun new => new.InStep (lines ++ state.asked settings more))
      (state.run settings more) := by
  -- Every step adds to the lines that led to the state, so both vary in the induction.
  induction more generalizing state lines with
  | nil =>
    rw [asked, List.append_nil]
    exact h
  | cons line rest ih =>
    rw [run, asked]
    have hstep := ensures_step settings h line
    cases hnext : state.step settings line with
    | ok next =>
      rw [hnext] at hstep
      have hrest := ih hstep
      rw [List.append_assoc] at hrest
      exact hrest
    | error failure =>
      rw [hnext] at hstep
      cases failure with
      | error cause => exact hstep
      | fault fault => exact hstep

end Loading

theorem named_framebufferFormat : (Format.named "B8G8R8A8_UNORM").isOk = true := by
  decide +kernel

theorem exists_framebufferFormat (settings : Settings) :
    ∃ format, settings.framebufferFormat = .ok format := by
  unfold Settings.framebufferFormat
  split
  · exact ⟨_, rfl⟩
  · have h := named_framebufferFormat
    cases hnamed : Format.named "B8G8R8A8_UNORM" with
    | ok format => exact ⟨format, rfl⟩
    | error fault =>
      rw [hnamed] at h
      cases h

/-- A table of an unbound colour buffer has no history. -/
theorem tracks_singleton {color : Buffer} (hcolor : color.InOrder) (hkind : color.kind = .color)
    (hbinding : color.binding = none) : Tracks [color] [] [] := by
  have hmem : ∀ {i : Nat} {b : Buffer}, [color][i]? = some b → b = color :=
    fun h => List.mem_singleton.1 (List.mem_of_getElem? h)
  have hvalid : ValidTable [color] := by
    refine ⟨⟨color, rfl, hkind⟩, ?_, ?_⟩
    · intro b hb
      rw [List.mem_singleton.1 hb]
      exact hcolor
    · intro i j b c hb _ hbound
      rw [hmem hb] at hbound
      exact (hbound hbinding).elim
  refine ⟨hvalid, ?_, ?_, ?_⟩
  · intro binding
    cases hb : [color][bindingIndex [color] binding]? with
    | none => exact .start
    | some b =>
      have hbound := binding_of_getElem?_bindingIndex hb
      rw [hmem hb, hbinding] at hbound
      cases hbound
  · intro i b binding hb hbound
    rw [hmem hb, hbinding] at hbound
    cases hbound
  · intro i hi
    exact (hi rfl).elim

/-- The state before the first line has no history. -/
theorem Loading.exists_start (settings : Settings) :
    ∃ state, Loading.start settings = .ok state ∧ state.InStep [] := by
  obtain ⟨format, hformat⟩ := exists_framebufferFormat settings
  let color : Buffer :=
    { Buffer.ofFormat .color format with width := settings.width, height := settings.height }
  have horder : (Buffer.ofFormat .color format).InOrder :=
    Buffer.inOrder_ofFormat (by simp [BufferKind.IsBound]) (by simp)
  have htracks : Tracks [color] [] [] :=
    tracks_singleton ⟨horder.bound_iff, horder.recorded, horder.indices⟩ rfl rfl
  refine ⟨{ script := { buffers := [color] } }, ?_, htracks, fun _ h => by cases h⟩
  rw [start, hformat]
  rfl

namespace Script

/-- The test lines of a text in order, up to a line that cannot be taken in. -/
def testLines (settings : Settings) (source : List Char) : List TestLine :=
  match Loading.start settings with
  | .ok state => state.asked settings (logicalLines source)
  | .error _ => []

/-- A text is loaded to what its test lines lead to, or is refused for what is wrong with a line or
for endless replacements. -/
theorem ensures_load (settings : Settings) (source : List Char) :
    Ensures LoadError.IsExpected
      (fun script => Tracks script.buffers script.commands (testLines settings source))
      (load settings source) := by
  obtain ⟨state, hstart, hstate⟩ := Loading.exists_start settings
  have hrun := Loading.ensures_run settings hstate (logicalLines source)
  rw [testLines, load, hstart]
  refine .bind_of_eq_ok rfl (hrun.bind ?_)
  intro final hfinal
  obtain ⟨hbuffers, hcommands, -⟩ := final.endSection_frame
  have htracked := hfinal.tracks
  rw [List.nil_append, ← hbuffers, ← hcommands] at htracked
  exact htracked

end Script

theorem settleStart_nil (left : Nat) (text : List Char) :
    settleStart [] left text = some (left, text) := by
  cases left <;> rfl

theorem replaceTokens_nil (left : Nat) (text : List Char) :
    replaceTokens [] left text = some text := by
  induction text with
  | nil => rw [replaceTokens]
  | cons c rest ih =>
    rw [replaceTokens]
    split
    · next h =>
      rw [settleStart_nil] at h
      cases h
    · next h =>
      rw [settleStart_nil] at h
      cases h
    · next h =>
      rw [settleStart_nil] at h
      cases h
      rw [ih, Option.map_some]

namespace Loading

/-- The state after a line whose tokens stay as they are. -/
def takeNumbered (state : Loading) (line : NumberedLine) : Except (Failure LoadError) Loading :=
  report (state.reportedLine line.number line.text) (state.takeLine line.number line.text)

theorem step_of_no_rules {settings : Settings} (h : settings.rules = []) (state : Loading)
    (line : NumberedLine) : state.step settings line = state.takeNumbered line := by
  rw [step, h, replaceTokens_nil]
  rfl

theorem run_of_no_rules {settings : Settings} (h : settings.rules = []) (state : Loading)
    (lines : List NumberedLine) : state.run settings lines = lines.foldlM takeNumbered state := by
  induction lines generalizing state with
  | nil => rfl
  | cons line rest ih =>
    rw [run, List.foldlM_cons, step_of_no_rules h]
    exact bind_congr ih

end Loading

theorem Script.load_of_no_rules {settings : Settings} (h : settings.rules = [])
    (source : List Char) :
    Script.load settings source = do
      let state ← orFault (Loading.start settings)
      return (← (logicalLines source).foldlM Loading.takeNumbered state).endSection.script := by
  simp only [load, Loading.run_of_no_rules h]

end GpuScript
