import GpuScript.Proofs.CarriageReturns
import GpuScript.Proofs.HeaderWords
import GpuScript.Proofs.UntouchedShaders

/-!
# Line ends

Whether lines end with a line feed or with a carriage return before it does not matter to what a
script is loaded to, or to what is wrong with it. Only the texts of the shaders keep the carriage
returns. Each line takes a state with the returns in its shaders to one with them.
-/

namespace GpuScript

def ShaderBody.withReturns : ShaderBody → ShaderBody
  | .glsl text => .glsl (GpuScript.withReturns text)
  | .spirv text => .spirv (GpuScript.withReturns text)
  | .binary words => .binary words

def Shader.withReturns : Shader → Shader
  | .body read => .body read.withReturns
  | .passthrough => .passthrough

/-- A script with a carriage return before each line feed of the texts of its shaders, and nothing
else changed. -/
def Script.withReturns (script : Script) : Script :=
  { script with shaders := script.shaders.map fun p => (p.1, p.2.withReturns) }

def Section.withReturns : Section → Section
  | .shader stage body => .shader stage body.withReturns
  | other => other

def Loading.withReturns (state : Loading) : Loading :=
  { state with script := state.script.withReturns, current := state.current.withReturns }

theorem Section.withReturns_of_ne {s : Section} (h : ∀ stage body, s ≠ .shader stage body) :
    s.withReturns = s := by
  cases s with
  | shader stage body => exact (h stage body rfl).elim
  | _ => rfl

@[simp] theorem Section.isDataBlock_withReturns (s : Section) :
    s.withReturns.isDataBlock = s.isDataBlock := by
  cases s <;> rfl

@[simp] theorem Shader.isSpirv_withReturns (shader : Shader) :
    shader.withReturns.isSpirv = shader.isSpirv := by
  cases shader with
  | body body => cases body <;> rfl
  | passthrough => rfl

theorem Shader.withReturns_of_emptied {shader : Shader} (h : shader.emptied = shader) :
    shader.withReturns = shader := by
  rw [← h]
  cases shader with
  | body body => cases body <;> rfl
  | passthrough => rfl

namespace Script

variable (script : Script)

theorem shadersOf_withReturns (stage : Stage) :
    script.withReturns.shadersOf stage = (script.shadersOf stage).map Shader.withReturns := by
  simp only [shadersOf, withReturns, List.filter_map, List.map_map]
  rfl

theorem canLink_withReturns (stage : Stage) (shader : Shader) :
    script.withReturns.canLink stage shader = script.canLink stage shader := by
  simp only [canLink, shadersOf_withReturns, List.getLast?_map]
  cases (script.shadersOf stage).getLast? with
  | none => rfl
  | some last => simp

theorem addShader_withReturns (stage : Stage) (shader : Shader) :
    script.withReturns.addShader stage shader.withReturns =
      (script.addShader stage shader).withReturns := by
  simp [addShader, withReturns]

end Script

theorem orInvalid_map {α β : Type} (x : Except LineError α) (f : α → β) :
    orInvalid (x.map f) = (orInvalid x).map f := by
  cases x <;> rfl

theorem readHexWords_congr {a b : List Char} (h : content? a = content? b) :
    readHexWords a = readHexWords b := by
  rw [readHexWords, readHexWords, h]

theorem ShaderBody.addLine_withReturns {line : List Char} (h : '\n' ∉ line.dropLast)
    (body : ShaderBody) :
    body.withReturns.addLine (GpuScript.withReturns line) =
      (body.addLine line).map ShaderBody.withReturns := by
  cases body with
  | glsl text | spirv text =>
    rw [withReturns, addLine, addLine, ← withReturns_append]
    rfl
  | binary words =>
    rw [withReturns, addLine, addLine, readHexWords_congr (content?_withReturns h)]
    cases readHexWords line <;> rfl

theorem head?_withReturns_eq_bracket_iff {line : List Char} :
    (withReturns line).head? = some '[' ↔ line.head? = some '[' := by
  cases line with
  | nil => rfl
  | cons c rest =>
    by_cases hc : c = '\n'
    · subst hc
      simp [withReturns]
    · rw [withReturns_cons_of_ne hc]
      rfl

namespace Loading

variable {state : Loading} {line : List Char}

theorem withReturns_eq_setShaders (state : Loading) : state.withReturns =
    state.setShaders state.withReturns.script.shaders state.withReturns.current := rfl

theorem endSection_withReturns (state : Loading) :
    state.withReturns.endSection = state.endSection.withReturns := by
  obtain ⟨script, current, begun, vertexData⟩ := state
  cases current with
  | shader stage body =>
    exact congrArg (fun script => Loading.mk script .outside begun vertexData)
      (script.addShader_withReturns stage (.body body))
  | _ => rfl

/-- A header whose shader has no body yet opens the same section. -/
theorem enter_withReturns {header : Header}
    (h : ∀ stage shader, header = .shader stage shader → shader.withReturns = shader)
    (state : Loading) :
    state.withReturns.enter header = (state.enter header).map withReturns := by
  cases header with
  | comment | test | indices => rfl
  | require =>
    have hbegun : state.withReturns.begun = state.begun := rfl
    simp only [enter, hbegun]
    split <;> rfl
  | vertexData =>
    have hdata : state.withReturns.vertexData = state.vertexData := rfl
    simp only [enter, hdata]
    split <;> rfl
  | shader stage shader =>
    have hlink : state.withReturns.script.canLink stage shader =
        state.script.canLink stage shader :=
      state.script.canLink_withReturns stage shader
    simp only [enter, hlink]
    split
    · rfl
    · cases shader with
      | body body =>
        have hbody : body.withReturns = body := Shader.body.inj (h stage _ rfl)
        exact congrArg Except.ok
          (congrArg (fun new => state.withReturns.beginSection (.shader stage new)) hbody.symm)
      | passthrough =>
        have hscript := state.script.addShader_withReturns stage .passthrough
        exact congrArg Except.ok (congrArg (fun script : Script =>
          { state.withReturns.beginSection .outside with script := script }) hscript)

theorem takeHeader_withReturns {text : List Char} (h : '\n' ∉ text.dropLast) (state : Loading) :
    state.withReturns.takeHeader (GpuScript.withReturns text) =
      (state.takeHeader text).map withReturns := by
  rw [takeHeader, takeHeader, readHeader_withReturns h]
  cases hheader : readHeader text with
  | error error => rfl
  | ok header =>
    have hempty : ∀ stage shader, header = .shader stage shader → shader.withReturns = shader := by
      rintro stage shader rfl
      exact Shader.withReturns_of_emptied (announced?_cases (announced?_of_readHeader hheader)).1
    have henter : state.withReturns.endSection.enter header =
        (state.endSection.enter header).map withReturns := by
      rw [endSection_withReturns]
      exact enter_withReturns hempty state.endSection
    change orInvalid (state.withReturns.endSection.enter header) =
      (orInvalid (state.endSection.enter header)).map withReturns
    rw [henter, orInvalid_map]

theorem takeBodyLine_congr {a b : List Char} (hcurrent : state.InNoShader)
    (h : content? a = content? b) (number : Nat) :
    state.takeBodyLine number a = state.takeBodyLine number b := by
  unfold takeBodyLine
  split
  · rw [h]
  · rfl
  · rw [takeRequireLine, takeRequireLine, readRequireLine, readRequireLine, h]
  · next hshader => exact (hcurrent _ _ hshader).elim
  · rw [takeVertexLine, takeVertexLine, h]
  · rw [takeIndexLine, takeIndexLine, h]
  · rw [takeTestLine, takeTestLine, readTestLine, readTestLine, h]

theorem takeBodyLine_withReturns (h : '\n' ∉ line.dropLast) (state : Loading) (number : Nat) :
    state.withReturns.takeBodyLine number (GpuScript.withReturns line) =
      (state.takeBodyLine number line).map withReturns := by
  rcases state.inShader_or_inNoShader with ⟨stage, body, hcurrent⟩ | hcurrent
  · have hreturns : state.withReturns.current = .shader stage body.withReturns := by
      rw [withReturns, hcurrent]
      rfl
    simp only [takeBodyLine, hcurrent, hreturns, takeShaderLine, body.addLine_withReturns h]
    cases body.addLine line <;> rfl
  · have hkept : state.withReturns.current = state.current := Section.withReturns_of_ne hcurrent
    rw [withReturns_eq_setShaders state, hkept, takeBodyLine_setShaders hcurrent,
      takeBodyLine_congr hcurrent (content?_withReturns h)]
    cases hnew : state.takeBodyLine number line with
    | error failure => rfl
    | ok new =>
      obtain ⟨hshaders, hsame⟩ := shaders_of_takeBodyLine hcurrent hnew
      have hcurrents : new.withReturns.current = state.current :=
        (congrArg Section.withReturns hsame).trans hkept
      have hreturns : new.withReturns.script.shaders = state.withReturns.script.shaders :=
        congrArg (List.map _) hshaders
      refine congrArg Except.ok ?_
      rw [withReturns_eq_setShaders new, hcurrents, hreturns]

theorem takeLine_withReturns (h : '\n' ∉ line.dropLast) (state : Loading) (number : Nat) :
    state.withReturns.takeLine number (GpuScript.withReturns line) =
      (state.takeLine number line).map withReturns := by
  by_cases hhead : line.head? = some '['
  · obtain ⟨text, rfl⟩ := List.head?_eq_some_iff.1 hhead
    have htext : '\n' ∉ text.dropLast := by
      cases text with
      | nil => simp
      | cons c rest => exact List.not_mem_of_not_mem_cons h
    rw [withReturns_cons_of_ne (by decide)]
    exact takeHeader_withReturns htext state
  · have hreturns : (GpuScript.withReturns line).head? ≠ some '[' :=
      fun heq => hhead (head?_withReturns_eq_bracket_iff.1 heq)
    rw [takeLine_of_ne_bracket hhead, takeLine_of_ne_bracket hreturns]
    exact takeBodyLine_withReturns h state number

theorem reportedLine_withReturns (state : Loading) (number : Nat) (line : List Char) :
    state.withReturns.reportedLine number (GpuScript.withReturns line) =
      state.reportedLine number line := by
  have hblock : state.withReturns.current.isDataBlock = state.current.isDataBlock :=
    state.current.isDataBlock_withReturns
  simp only [reportedLine, head?_withReturns_eq_bracket_iff, hblock]

theorem report_map (number : Nat) (x : LineResult Loading) (f : Loading → Loading) :
    report number (x.map f) = (report number x).map f := by
  cases x with
  | ok new => rfl
  | error failure => cases failure <;> rfl

theorem takeNumbered_withReturns {line : NumberedLine} (h : '\n' ∉ line.text.dropLast)
    (state : Loading) :
    state.withReturns.takeNumbered line.withReturns =
      (state.takeNumbered line).map withReturns := by
  have hreported := state.reportedLine_withReturns line.number line.text
  have htake := takeLine_withReturns h state line.number
  rw [takeNumbered, takeNumbered, ← report_map, ← htake, ← hreported]
  rfl

theorem foldlM_withReturns {lines : List NumberedLine}
    (h : ∀ line ∈ lines, '\n' ∉ line.text.dropLast) (state : Loading) :
    (lines.map NumberedLine.withReturns).foldlM takeNumbered state.withReturns =
      (lines.foldlM takeNumbered state).map withReturns := by
  induction lines generalizing state with
  | nil => rfl
  | cons line rest ih =>
    obtain ⟨hline, hrest⟩ := List.forall_mem_cons.1 h
    rw [List.map_cons, List.foldlM_cons, List.foldlM_cons, takeNumbered_withReturns hline]
    cases state.takeNumbered line with
    | error failure => rfl
    | ok next => exact ih hrest next

theorem withReturns_of_start {settings : Settings} {start : Loading}
    (h : Loading.start settings = .ok start) : start.withReturns = start := by
  obtain ⟨format, -, rfl⟩ := exists_of_map_eq_ok h
  rfl

end Loading

/-- Without replacements a text whose lines end with line feeds alone has the same outcome if they
end with carriage returns too: it is refused for the same reason at the same line, or gives the same
script with the carriage returns in the texts of its shaders. -/
theorem Script.load_withReturns {settings : Settings} (hrules : settings.rules = [])
    {source : List Char} (hsource : '\r' ∉ source) :
    load settings (GpuScript.withReturns source) =
      (load settings source).map Script.withReturns := by
  have hlines : ∀ line ∈ logicalLines source, '\n' ∉ line.text.dropLast :=
    fun line => not_mem_dropLast_of_mem_joinLines (arePhysical_physicalLines source)
  rw [load_of_no_rules hrules, load_of_no_rules hrules, logicalLines_withReturns hsource]
  cases hstart : Loading.start settings with
  | error fault => rfl
  | ok start =>
    have hrun := Loading.foldlM_withReturns hlines start
    rw [Loading.withReturns_of_start hstart] at hrun
    simp only [orFault, bind, Except.bind]
    rw [hrun]
    cases (logicalLines source).foldlM Loading.takeNumbered start with
    | error failure => rfl
    | ok final =>
      have hscript := congrArg Loading.script final.endSection_withReturns
      exact congrArg Except.ok hscript

/-- A text with each kind of section, joined lines and a comment, and the same text with carriage
returns; and a text that is refused at the same line with both ends. -/
theorem Script.load_withReturns_of_sections :
    (∃ source script, source = ("[require]\nfbsize 4 \\\n 2 # small\n[vertex data]\n" ++
        "0/R8_UINT\n7\n[indices]\n1\n[compute shader]\nvoid \\\nmain();\n\n" ++
        "[fragment shader binary]\n1f\n[test]\nssbo 0 subdata int 0 5\n").toList ∧
      '\r' ∉ source ∧ load {} source = .ok script ∧
      script.shadersOf .compute = [.body (.glsl "void main();\n\n".toList)] ∧
      script.withReturns.shadersOf .compute = [.body (.glsl "void main();\r\n\r\n".toList)] ∧
      load {} (GpuScript.withReturns source) = .ok script.withReturns) ∧
    load {} (GpuScript.withReturns "[require]\n\\\nfbsize 1\n".toList) =
      .error (.error ⟨1, .invalid .invalidFramebufferSize⟩) := by
  constructor
  · have hload : ∃ script,
        load {} ("[require]\nfbsize 4 \\\n 2 # small\n[vertex data]\n" ++
          "0/R8_UINT\n7\n[indices]\n1\n[compute shader]\nvoid \\\nmain();\n\n" ++
          "[fragment shader binary]\n1f\n[test]\nssbo 0 subdata int 0 5\n").toList = .ok script ∧
        script.shadersOf .compute = [.body (.glsl "void main();\n\n".toList)] ∧
        script.withReturns.shadersOf .compute =
          [.body (.glsl "void main();\r\n\r\n".toList)] := by
      rw [load_of_no_rules rfl]
      decide +kernel
    obtain ⟨script, hload, hcompute, hreturns⟩ := hload
    refine ⟨_, script, rfl, by decide +kernel, hload, hcompute, hreturns, ?_⟩
    rw [Script.load_withReturns rfl (by decide +kernel), hload]
    rfl
  · have hload : load {} "[require]\n\\\nfbsize 1\n".toList =
        .error (.error ⟨1, .invalid .invalidFramebufferSize⟩) := by
      rw [load_of_no_rules rfl]
      decide +kernel
    rw [Script.load_withReturns rfl (by decide), hload]
    rfl

end GpuScript
