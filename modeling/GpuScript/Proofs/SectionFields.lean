import GpuScript.Loader
import GpuScript.Proofs.UntouchedShaders

/-!
# The fields of the loader in step

The loader keeps the kind of its section, the shader that is being read and the stage of that shader
in three fields, and the state of the pass keeps them in one section. Line by line the two do the
same, so in the fields of the loader a shader section always has a shader with a body, and no other
section has a shader.
-/

namespace GpuScript

namespace Section

def kind : Section → SectionKind
  | .outside => .outside
  | .comment => .comment
  | .require => .require
  | .shader _ _ => .shader
  | .vertexData => .vertexData
  | .indices => .indices
  | .test => .test

def shader? : Section → Option Shader
  | .shader _ body => some (.body body)
  | _ => none

theorem isDataBlock_kind (current : Section) : current.kind.isDataBlock = current.isDataBlock := by
  cases current <;> rfl

end Section

namespace Loader

/-- Whether there is a shader with a body to be read in a shader section, and none elsewhere. -/
structure HoldsShader (loader : Loader) : Prop where
  shader : loader.kind = .shader → ∃ body, loader.shader? = some (.body body)
  other : loader.kind ≠ .shader → loader.shader? = none

/-- Whether a loader is in the state of a pass, with what its section consists of in its fields. -/
structure Matches (loader : Loader) (state : Loading) : Prop where
  script : loader.script = state.script
  kind : loader.kind = state.current.kind
  shader? : loader.shader? = state.current.shader?
  stage : ∀ stage body, state.current = .shader stage body → loader.stage = stage
  begun : loader.begun = state.begun
  vertexData : loader.vertexData = state.vertexData

variable {loader : Loader} {state : Loading} {settings : Settings}

/-- Without a shader on either side the stage of the last one does not matter. -/
theorem Matches.of_no_shader (hscript : loader.script = state.script)
    (hkind : loader.kind = state.current.kind) (hnone : loader.shader? = none)
    (hother : state.current.shader? = none) (hbegun : loader.begun = state.begun)
    (hdata : loader.vertexData = state.vertexData) : loader.Matches state := by
  refine ⟨hscript, hkind, hnone.trans hother.symm, ?_, hbegun, hdata⟩
  intro stage body hcurrent
  rw [hcurrent] at hother
  cases hother

theorem Matches.holdsShader (h : loader.Matches state) : loader.HoldsShader := by
  have hkind := h.kind
  have hshader := h.shader?
  cases hcurrent : state.current with
  | shader stage body =>
    rw [hcurrent] at hkind hshader
    exact ⟨fun _ => ⟨body, hshader⟩, fun hother => (hother hkind).elim⟩
  | outside | comment | require | vertexData | indices | test =>
    rw [hcurrent] at hkind hshader
    refine ⟨fun hinside => ?_, fun _ => hshader⟩
    cases hkind.symm.trans hinside

/-- Without a shader the two states differ in the name of the section alone. -/
theorem Matches.parts (h : loader.Matches state) :
    loader.parts = state.setShaders state.script.shaders .outside := by
  rw [Loader.parts, h.script, h.begun, h.vertexData]
  rfl

theorem matches_endSection (h : loader.Matches state) :
    loader.endSection.Matches state.endSection := by
  obtain ⟨hscript, hkind, hshader, hstage, hbegun, hdata⟩ := h
  unfold Loader.endSection Loading.endSection
  cases hcurrent : state.current with
  | shader stage body =>
    rw [hcurrent] at hshader
    rw [hshader]
    refine .of_no_shader ?_ rfl rfl rfl hbegun hdata
    simp only [Section.shader?, hscript, hstage stage body hcurrent]
  | outside | comment | require | vertexData | indices | test =>
    rw [hcurrent] at hshader
    rw [hshader]
    exact .of_no_shader hscript rfl rfl rfl hbegun hdata

theorem matches_enter (h : loader.Matches state) (hoff : state.current = .outside)
    (header : Header) : SameOutcome Matches (loader.enter header) (state.enter header) := by
  obtain ⟨hscript, -, hshader, -, hbegun, hdata⟩ := h
  rw [hoff] at hshader
  cases header with
  | comment => exact .ok (.of_no_shader hscript rfl hshader rfl hbegun hdata)
  | test | indices => exact .ok (.of_no_shader hscript rfl hshader rfl rfl hdata)
  | require =>
    simp only [Loader.enter, Loading.enter, hbegun]
    split
    · exact .error _
    · exact .ok (.of_no_shader hscript rfl hshader rfl rfl hdata)
  | vertexData =>
    simp only [Loader.enter, Loading.enter, hdata]
    split
    · exact .error _
    · exact .ok (.of_no_shader hscript rfl hshader rfl rfl rfl)
  | shader stage shader =>
    simp only [Loader.enter, Loading.enter, hscript]
    split
    · exact .error _
    · cases shader with
      | body body =>
        refine .ok ⟨hscript, rfl, rfl, ?_, rfl, hdata⟩
        intro _ _ hcurrent
        cases hcurrent
        rfl
      | passthrough => exact .ok (.of_no_shader rfl rfl hshader rfl rfl hdata)

theorem current_endSection (state : Loading) : state.endSection.current = .outside := by
  unfold Loading.endSection
  split <;> rfl

theorem matches_takeHeader (h : loader.Matches state) (text : List Char) :
    SameOutcome Matches (loader.takeHeader text) (state.takeHeader text) := by
  refine .bind_left _ ?_
  intro header
  have hentered := matches_enter (matches_endSection h) (current_endSection state) header
  exact hentered.handled (fun _ => .error _) fun _ _ hnew => .ok hnew

/-- A line that is read without regard to the shaders changes the same on both sides. -/
theorem matches_withParts (h : loader.Matches state) {take : Loading → LineResult Loading}
    (hignores : Loading.IgnoresShaders take) :
    SameOutcome Matches ((take loader.parts).map loader.withParts) (take state) := by
  rw [h.parts, hignores state state.script.shaders .outside]
  cases hnew : take state with
  | error failure => exact .error failure
  | ok new =>
    obtain ⟨hshaders, hcurrent⟩ := hignores.keeps hnew
    refine .ok ⟨?_, ?_, ?_, ?_, rfl, rfl⟩
    · rw [← hshaders]
      rfl
    · rw [hcurrent]
      exact h.kind
    · rw [hcurrent]
      exact h.shader?
    · intro stage body hsection
      exact h.stage stage body (hcurrent.symm.trans hsection)

theorem matches_takeShaderLine (h : loader.Matches state) {stage : Stage} {body : ShaderBody}
    (hcurrent : state.current = .shader stage body) (line : List Char) :
    SameOutcome Matches (loader.takeShaderLine line) (state.takeShaderLine stage body line) := by
  obtain ⟨hscript, hkind, hshader, hstage, hbegun, hdata⟩ := h
  rw [hcurrent] at hkind hshader
  rw [Loader.takeShaderLine, hshader]
  refine .bind_left _ ?_
  intro more
  refine .ok ⟨hscript, hkind, rfl, ?_, hbegun, hdata⟩
  intro other _ hnew
  cases hnew
  exact hstage stage body hcurrent

theorem matches_takeBodyLine (h : loader.Matches state) (number : Nat) (line : List Char) :
    SameOutcome Matches (loader.takeBodyLine number line) (state.takeBodyLine number line) := by
  unfold Loader.takeBodyLine Loading.takeBodyLine
  rw [h.kind]
  cases hcurrent : state.current with
  | outside =>
    dsimp only [Section.kind]
    cases content? line with
    | none => exact .ok h
    | some text => exact .error _
  | comment => exact .ok h
  | require => exact matches_withParts h (Loading.ignoresShaders_takeRequireLine line)
  | shader stage body => exact matches_takeShaderLine h hcurrent line
  | vertexData => exact matches_withParts h (Loading.ignoresShaders_takeVertexLine line)
  | indices => exact matches_withParts h (Loading.ignoresShaders_takeIndexLine line)
  | test => exact matches_withParts h (Loading.ignoresShaders_takeTestLine number line)

theorem matches_takeLine (h : loader.Matches state) (number : Nat) (line : List Char) :
    SameOutcome Matches (loader.takeLine number line) (state.takeLine number line) := by
  unfold Loader.takeLine
  split
  · exact matches_takeHeader h _
  · next hline =>
    have hhead : line.head? ≠ some '[' := by
      intro hhead
      obtain ⟨rest, hrest⟩ := List.head?_eq_some_iff.1 hhead
      exact hline rest hrest
    rw [Loading.takeLine_of_ne_bracket hhead]
    exact matches_takeBodyLine h number line

theorem reportedLine_eq (h : loader.Matches state) (number : Nat) (line : List Char) :
    loader.reportedLine number line = state.reportedLine number line := by
  rw [Loader.reportedLine, Loading.reportedLine, h.kind, Section.isDataBlock_kind]

theorem matches_step (h : loader.Matches state) (line : NumberedLine) :
    SameOutcome Matches (loader.step settings line) (state.step settings line) := by
  unfold Loader.step Loading.step
  cases replaceTokens settings.rules replacementLimit line.text with
  | none => exact .error _
  | some text =>
    dsimp only
    rw [reportedLine_eq h]
    refine (matches_takeLine h line.number text).handled ?_ fun _ _ hnew => .ok hnew
    intro failure
    cases failure <;> exact .error _

theorem matches_run (h : loader.Matches state) (lines : List NumberedLine) :
    SameOutcome Matches (loader.run settings lines) (state.run settings lines) := by
  induction lines generalizing loader state with
  | nil => exact .ok h
  | cons line rest ih =>
    rw [Loader.run, Loading.run]
    exact (matches_step h line).bind fun _ _ hnew => ih hnew

theorem matches_start (settings : Settings) :
    SameOutcome Matches (Loader.start settings) (Loading.start settings) :=
  .map_left _ fun _ => .of_no_shader rfl rfl rfl rfl rfl rfl

theorem holdsShader_of_run {start : Loader} (hstart : Loader.start settings = .ok start)
    {lines : List NumberedLine} (hrun : start.run settings lines = .ok loader) :
    loader.HoldsShader := by
  obtain ⟨first, -, hfirst⟩ := (matches_start settings).exists_of_eq_ok hstart
  obtain ⟨state, -, hstate⟩ := (matches_run hfirst lines).exists_of_eq_ok hrun
  exact hstate.holdsShader

/-- Loading comes to the same with the fields of the loader as with one section. -/
theorem load_eq_load (settings : Settings) (source : List Char) :
    Loader.load settings source = Script.load settings source := by
  refine SameOutcome.eq_of_eq ?_
  unfold Loader.load Script.load
  have hstart : SameOutcome Matches
      (orFault (Loader.start settings) : Except (Failure LoadError) Loader)
      (orFault (Loading.start settings)) :=
    (matches_start settings).handled (fun _ => .error _) fun _ _ hfirst => .ok hfirst
  refine hstart.bind fun _ _ hfirst => (matches_run hfirst _).bind ?_
  intro loader state hmatches
  exact .ok (matches_endSection hmatches).script

end Loader

end GpuScript
