import GpuScript.Proofs.HeaderWords
import GpuScript.Proofs.ScannedLines
import GpuScript.Proofs.UntouchedShaders

/-!
# Shader sections

A section that a header announces a shader in runs from the header to the next line that starts
with a bracket, or to the end. A script has one shader for each such section, in the order of the
headers, and all lines of the section are in it, also if nothing ends the section.
-/

namespace GpuScript

/-- A section that a header announces a shader in: its stage, the shader before its body, and the
lines of the section. -/
structure ShaderSection where
  stage : Stage
  shader : Shader
  lines : List (List Char)
  deriving DecidableEq

/-- Whether a line ends the section before it. -/
def isHeader (line : List Char) : Bool := line.head? = some '['

def shaderSections : List (List Char) → List ShaderSection
  | [] => []
  | line :: rest =>
    match announced? line with
    | some (stage, shader) =>
      ⟨stage, shader, rest.takeWhile (!isHeader ·)⟩ :: shaderSections rest
    | none => shaderSections rest

/-- Whether the words of some lines without their comments are numbers in base sixteen. -/
def AreHexWords (lines : List (List Char)) (values : List UInt32) : Prop :=
  List.Forall₂ (fun word value => wholeNatural? 16 32 word = some value.toNat)
    (lines.flatMap fun line => words (line.takeWhile (· ≠ '#'))) values

/-- Whether a body is another one with some lines added to it. -/
inductive ShaderBody.ExtendedBy (lines : List (List Char)) : ShaderBody → ShaderBody → Prop
  | glsl (text : List Char) : ExtendedBy lines (.glsl text) (.glsl (text ++ lines.flatten))
  | spirv (text : List Char) : ExtendedBy lines (.spirv text) (.spirv (text ++ lines.flatten))
  | binary (values : List UInt32) {more : List UInt32} (h : AreHexWords lines more) :
      ExtendedBy lines (.binary values) (.binary (values ++ more))

/-- Whether a shader is another one with some lines in it. One that passes vertices through has no
body, so only blank lines and comments may follow its header. -/
inductive Shader.FilledBy (lines : List (List Char)) : Shader → Shader → Prop
  | body {old new : ShaderBody} (h : old.ExtendedBy lines new) :
      FilledBy lines (.body old) (.body new)
  | passthrough (h : ∀ line ∈ lines, content? line = none) :
      FilledBy lines .passthrough .passthrough

/-- Whether a shader of a stage is what a section gives. -/
def ShaderSection.Gives (s : ShaderSection) (p : Stage × Shader) : Prop :=
  p.1 = s.stage ∧ s.shader.FilledBy s.lines p.2

theorem lt_of_wholeNatural? {base width n : Nat} {text : List Char}
    (h : wholeNatural? base width text = some n) : n < twoPow width := by
  simp only [wholeNatural?, Option.ite_none_left_eq_some, Option.ite_none_right_eq_some,
    Option.some.injEq] at h
  obtain ⟨-, hlt, rfl⟩ := h
  exact hlt

theorem areHexWords_of_readHexWords {line : List Char} {values : List UInt32}
    (h : readHexWords line = .ok values) : AreHexWords [line] values := by
  rw [AreHexWords, List.flatMap_singleton, words_content]
  unfold readHexWords at h
  cases hcontent : content? line with
  | none =>
    rw [hcontent] at h
    cases h
    exact .nil
  | some text =>
    rw [hcontent] at h
    refine (mapM_eq_ok_iff.1 h).imp fun word value hvalue => ?_
    split at hvalue
    · next n hn =>
      cases hvalue
      rw [hn, UInt32.toNat_ofNat_of_lt' (lt_of_wholeNatural? hn)]
    · cases hvalue

theorem AreHexWords.cons {line : List Char} {lines : List (List Char)} {values more : List UInt32}
    (h : AreHexWords [line] values) (hmore : AreHexWords lines more) :
    AreHexWords (line :: lines) (values ++ more) := by
  rw [AreHexWords, List.flatMap_singleton] at h
  exact List.rel_append h hmore

namespace ShaderBody.ExtendedBy

theorem nil (body : ShaderBody) : body.ExtendedBy [] body := by
  cases body with
  | glsl text => simpa using @ExtendedBy.glsl [] text
  | spirv text => simpa using @ExtendedBy.spirv [] text
  | binary values => simpa using @ExtendedBy.binary [] values _ .nil

theorem cons {body more new : ShaderBody} {line : List Char} {lines : List (List Char)}
    (h : body.addLine line = .ok more) (hlines : more.ExtendedBy lines new) :
    body.ExtendedBy (line :: lines) new := by
  cases body with
  | glsl text =>
    cases h
    cases hlines
    rw [List.append_assoc]
    exact .glsl text
  | spirv text =>
    cases h
    cases hlines
    rw [List.append_assoc]
    exact .spirv text
  | binary values =>
    obtain ⟨read, hread, rfl⟩ := exists_of_map_eq_ok h
    cases hlines with
    | binary _ hmore =>
      rw [List.append_assoc]
      exact .binary values ((areHexWords_of_readHexWords hread).cons hmore)

end ShaderBody.ExtendedBy

namespace Loading

/-- What a header does to the shaders: the section before it ends, and its own one may be that of a
shader that can be linked with those of its stage. -/
inductive AfterHeader (state : Loading) (line : List Char) (new : Loading) : Prop
  | other (hline : announced? line = none)
      (hshaders : new.script.shaders = state.endSection.script.shaders)
      (hcurrent : new.InNoShader)
  | body {stage : Stage} {body : ShaderBody} (hline : announced? line = some (stage, .body body))
      (hlink : state.endSection.script.canLink stage (.body body) = true)
      (hshaders : new.script.shaders = state.endSection.script.shaders)
      (hcurrent : new.current = .shader stage body)
  | passthrough {stage : Stage} (hline : announced? line = some (stage, .passthrough))
      (hlink : state.endSection.script.canLink stage .passthrough = true)
      (hshaders : new.script.shaders = state.endSection.script.shaders ++ [(stage, .passthrough)])
      (hcurrent : new.current = .outside)

/-- What a line that is no header does to the shaders: it goes to the body of the one whose section
it is in, if any. -/
inductive AfterBodyLine (state : Loading) (line : List Char) (new : Loading) : Prop
  | shader {stage : Stage} {body more : ShaderBody} (hcurrent : state.current = .shader stage body)
      (hmore : body.addLine line = .ok more)
      (hshaders : new.script.shaders = state.script.shaders)
      (hnew : new.current = .shader stage more)
  | other (hcurrent : state.InNoShader)
      (hshaders : new.script.shaders = state.script.shaders)
      (hsame : new.current = state.current)
      (hblank : state.current = .outside → content? line = none)

variable {state new final : Loading} {number : Nat} {line text : List Char}

theorem afterHeader_of_takeHeader (h : state.takeHeader text = .ok new) :
    AfterHeader state ('[' :: text) new := by
  obtain ⟨header, hheader, h⟩ := exists_of_bind_eq_ok h
  have hline := announced?_of_readHeader (orInvalid_eq_ok_iff.1 hheader)
  rw [orInvalid_eq_ok_iff] at h
  cases header with
  | comment | test | indices =>
    cases h
    exact .other hline rfl (by simp [InNoShader, beginSection])
  | require =>
    simp only [enter] at h
    split at h <;> cases h
    exact .other hline rfl (by simp [InNoShader, beginSection])
  | vertexData =>
    simp only [enter] at h
    split at h <;> cases h
    exact .other hline rfl (by simp [InNoShader, beginSection])
  | shader stage shader =>
    simp only [enter] at h
    split at h
    · cases h
    · next hlink =>
      rw [Bool.not_eq_true, Bool.not_eq_false'] at hlink
      cases shader with
      | body body =>
        cases h
        exact .body hline hlink rfl rfl
      | passthrough =>
        cases h
        exact .passthrough hline hlink rfl rfl

theorem afterBodyLine_of_takeBodyLine (h : state.takeBodyLine number line = .ok new) :
    AfterBodyLine state line new := by
  rcases state.inShader_or_inNoShader with ⟨stage, body, hcurrent⟩ | hcurrent
  · rw [takeBodyLine, hcurrent] at h
    obtain ⟨more, hmore, h⟩ := exists_of_bind_eq_ok h
    cases h
    exact .shader hcurrent (orInvalid_eq_ok_iff.1 hmore) rfl rfl
  · obtain ⟨hshaders, hsame⟩ := shaders_of_takeBodyLine hcurrent h
    refine .other hcurrent hshaders hsame fun houtside => ?_
    rw [takeBodyLine, houtside] at h
    dsimp only at h
    split at h
    · assumption
    · cases h

theorem cases_of_takeLine (h : state.takeLine number line = .ok new) :
    isHeader line = true ∧ AfterHeader state line new ∨
      isHeader line = false ∧ AfterBodyLine state line new := by
  by_cases hhead : line.head? = some '['
  · obtain ⟨text, rfl⟩ := List.head?_eq_some_iff.1 hhead
    exact .inl ⟨rfl, afterHeader_of_takeHeader h⟩
  · rw [takeLine_of_ne_bracket hhead] at h
    exact .inr ⟨decide_eq_false hhead, afterBodyLine_of_takeBodyLine h⟩

theorem takeLine_of_takeNumbered {line : NumberedLine} (h : state.takeNumbered line = .ok new) :
    state.takeLine line.number line.text = .ok new := by
  unfold takeNumbered report at h
  split at h
  · next htake =>
    cases h
    exact htake
  · cases h
  · cases h

theorem takeNumbered_of_takeLine {line : NumberedLine}
    (h : state.takeLine line.number line.text = .ok new) : state.takeNumbered line = .ok new := by
  rw [takeNumbered, h]
  rfl

theorem announced?_of_not_isHeader (h : isHeader line = false) : announced? line = none := by
  unfold announced?
  split
  · simp [isHeader] at h
  · rfl

/-- The shader section that a state is in, if any, with the lines that are left of it. -/
def openSection (state : Loading) (lines : List (List Char)) : List ShaderSection :=
  match state.current with
  | .shader stage body => [⟨stage, .body body, lines⟩]
  | _ => []

theorem openSection_of_inNoShader (h : state.InNoShader) (lines : List (List Char)) :
    state.openSection lines = [] := by
  unfold openSection
  split
  · next hcurrent => exact (h _ _ hcurrent).elim
  · rfl

theorem shaders_endSection_of_shader {stage : Stage} {body : ShaderBody}
    (h : state.current = .shader stage body) :
    state.endSection.script.shaders = state.script.shaders ++ [(stage, .body body)] := by
  rw [endSection, h]
  rfl

theorem shaders_endSection_of_inNoShader (h : state.InNoShader) :
    state.endSection.script.shaders = state.script.shaders := by
  unfold endSection
  split
  · next hcurrent => exact (h _ _ hcurrent).elim
  · rfl

theorem exists_shaders_endSection (state : Loading) :
    ∃ closed, state.endSection.script.shaders = state.script.shaders ++ closed ∧
      List.Forall₂ ShaderSection.Gives (state.openSection []) closed := by
  rcases state.inShader_or_inNoShader with ⟨stage, body, hcurrent⟩ | hcurrent
  · rw [openSection, hcurrent]
    exact ⟨_, shaders_endSection_of_shader hcurrent, .cons ⟨rfl, .body (.nil body)⟩ .nil⟩
  · rw [openSection_of_inNoShader hcurrent, shaders_endSection_of_inNoShader hcurrent]
    exact ⟨[], (List.append_nil _).symm, .nil⟩

/-- Outside of all sections a text may only have blank lines and comments up to a header. -/
theorem content?_of_outside {lines : List NumberedLine}
    (h : lines.foldlM takeNumbered state = .ok final) (hcurrent : state.current = .outside) :
    ∀ line ∈ (lines.map NumberedLine.text).takeWhile (!isHeader ·), content? line = none := by
  induction lines generalizing state with
  | nil => simp
  | cons line rest ih =>
    rw [List.foldlM_cons] at h
    obtain ⟨next, hnext, hrest⟩ := exists_of_bind_eq_ok h
    rw [List.map_cons, List.takeWhile_cons]
    rcases cases_of_takeLine (takeLine_of_takeNumbered hnext) with ⟨hheader, -⟩ | ⟨hheader, hbody⟩
    · simp [hheader]
    · rw [hheader]
      cases hbody with
      | shader hshader =>
        rw [hcurrent] at hshader
        cases hshader
      | other _ _ hsame hblank =>
        exact List.forall_mem_cons.2 ⟨hblank hcurrent, ih hrest (hsame.trans hcurrent)⟩

/-- A run adds the shaders of the section it starts in and of those that it goes through. -/
theorem exists_shaders_of_run {lines : List NumberedLine}
    (h : lines.foldlM takeNumbered state = .ok final) :
    ∃ added, final.endSection.script.shaders = state.script.shaders ++ added ∧
      List.Forall₂ ShaderSection.Gives
        (state.openSection ((lines.map NumberedLine.text).takeWhile (!isHeader ·)) ++
          shaderSections (lines.map NumberedLine.text)) added := by
  induction lines generalizing state with
  | nil =>
    cases h
    simpa [shaderSections] using final.exists_shaders_endSection
  | cons line rest ih =>
    rw [List.foldlM_cons] at h
    obtain ⟨next, hnext, hrest⟩ := exists_of_bind_eq_ok h
    obtain ⟨added, hadded, hgives⟩ := ih hrest
    rw [List.map_cons, List.takeWhile_cons, shaderSections]
    have hline := takeLine_of_takeNumbered hnext
    rcases cases_of_takeLine hline with ⟨hheader, hafter⟩ | ⟨hheader, hbody⟩
    -- A header closes the open section, and its own one is open behind it.
    · obtain ⟨closed, hclosed, hopen⟩ := state.exists_shaders_endSection
      rw [hheader]
      cases hafter with
      | other hline hshaders hcurrent =>
        rw [openSection_of_inNoShader hcurrent, List.nil_append] at hgives
        rw [hline]
        refine ⟨closed ++ added, ?_, List.rel_append hopen hgives⟩
        rw [hadded, hshaders, hclosed, List.append_assoc]
      | body hline hlink hshaders hcurrent =>
        rw [openSection, hcurrent] at hgives
        rw [hline]
        refine ⟨closed ++ added, ?_, List.rel_append hopen hgives⟩
        rw [hadded, hshaders, hclosed, List.append_assoc]
      | @passthrough stage hline hlink hshaders hcurrent =>
        have hblank := content?_of_outside hrest hcurrent
        rw [openSection_of_inNoShader (by simp [InNoShader, hcurrent]), List.nil_append] at hgives
        rw [hline]
        refine ⟨closed ++ (stage, .passthrough) :: added, ?_,
          List.rel_append hopen (.cons ⟨rfl, .passthrough hblank⟩ hgives)⟩
        rw [hadded, hshaders, hclosed]
        simp
    · rw [hheader, announced?_of_not_isHeader hheader]
      cases hbody with
      | shader hcurrent hmore hshaders hnew =>
        rw [openSection, hnew] at hgives
        rw [openSection, hcurrent]
        refine ⟨added, by rw [hadded, hshaders], ?_⟩
        cases hgives with
        | @cons _ p _ _ hfirst hothers =>
          obtain ⟨stage, shader⟩ := p
          obtain ⟨hstage, hfilled⟩ := hfirst
          cases hfilled with
          | body hextended => exact .cons ⟨hstage, .body (.cons hmore hextended)⟩ hothers
      | other hcurrent hshaders hsame hblank =>
        rw [openSection_of_inNoShader (hcurrent.of_current_eq hsame)] at hgives
        rw [openSection_of_inNoShader hcurrent]
        exact ⟨added, by rw [hadded, hshaders], hgives⟩

end Loading

theorem Loading.of_start {settings : Settings} {start : Loading}
    (h : Loading.start settings = .ok start) :
    start.script.shaders = [] ∧ start.current = .outside := by
  obtain ⟨format, -, rfl⟩ := exists_of_map_eq_ok h
  exact ⟨rfl, rfl⟩

theorem Script.shaders_of_scannedLines {settings : Settings} {source : List Char} {script : Script}
    (h : load settings source = .ok script) : ∃ lines, scannedLines settings source = some lines ∧
      List.Forall₂ ShaderSection.Gives (shaderSections (lines.map NumberedLine.text))
        script.shaders := by
  obtain ⟨start, lines, final, hstart, hlines, hrun, rfl⟩ := exists_scannedLines_of_load h
  obtain ⟨hnone, houtside⟩ := Loading.of_start hstart
  obtain ⟨added, hadded, hgives⟩ := Loading.exists_shaders_of_run hrun
  rw [hnone, List.nil_append] at hadded
  rw [Loading.openSection_of_inNoShader (by simp [Loading.InNoShader, houtside]),
    List.nil_append, ← hadded] at hgives
  exact ⟨lines, hlines, hgives⟩

theorem ShaderSection.Gives.forall₂_stage {sections : List ShaderSection}
    {shaders : List (Stage × Shader)} (h : List.Forall₂ ShaderSection.Gives sections shaders)
    (stage : Stage) :
    List.Forall₂ (fun s shader => s.shader.FilledBy s.lines shader)
      (sections.filter fun s => s.stage = stage)
      ((shaders.filter fun p => p.1 = stage).map Prod.snd) := by
  rw [List.forall₂_map_right_iff]
  have hsame : Relator.LiftFun ShaderSection.Gives (· ↔ ·)
      (fun s => decide (s.stage = stage) = true) fun p => decide (p.1 = stage) = true := by
    rintro s p ⟨hstage, -⟩
    simp [hstage]
  exact (List.rel_filter hsame h).imp fun _ _ => And.right

/-- Without replacements a stage has one shader for each of the sections that announce one for it,
in order, and the body of each is what the lines of its section say. -/
theorem Script.shadersOf_of_load {settings : Settings} (hrules : settings.rules = [])
    {source : List Char} {script : Script} (h : load settings source = .ok script) (stage : Stage) :
    List.Forall₂ (fun s shader => s.shader.FilledBy s.lines shader)
      ((shaderSections ((logicalLines source).map NumberedLine.text)).filter
        fun s => s.stage = stage)
      (script.shadersOf stage) := by
  obtain ⟨lines, hlines, hgives⟩ := shaders_of_scannedLines h
  obtain rfl := Option.some.inj ((mapM_scan?_of_no_rules hrules _).symm.trans hlines)
  exact ShaderSection.Gives.forall₂_stage hgives stage

/-- Two shaders of one stage around a comment and a test section, with a comment of their own and a
joined line, one that passes through, and machine words in the last section, which nothing ends. -/
theorem Script.shadersOf_of_load_interleaved :
    ∃ source script, source = ("[vertex shader passthrough]\n# none\n[fragment shader]\n" ++
        "#version 430 # kept\n\n[comment]\nlost\n[fragment  shader ]\r\nvoid main() \\\n;\r\n" ++
        "[test]\nclear\n[compute shader binary]\n1 F # 2\nffffffff").toList ∧
      load {} source = .ok script ∧
      script.shadersOf .vertex = [.passthrough] ∧
      script.shadersOf .fragment = [.body (.glsl "#version 430 # kept\n\n".toList),
        .body (.glsl "void main() ;\r\n".toList)] ∧
      script.shadersOf .compute = [.body (.binary [1, 15, 0xffffffff])] ∧
      ∀ stage, List.Forall₂ (fun s shader => s.shader.FilledBy s.lines shader)
        ((shaderSections ((logicalLines source).map NumberedLine.text)).filter
          fun s => s.stage = stage)
        (script.shadersOf stage) := by
  have hload : ∃ script, load {} ("[vertex shader passthrough]\n# none\n[fragment shader]\n" ++
        "#version 430 # kept\n\n[comment]\nlost\n[fragment  shader ]\r\nvoid main() \\\n;\r\n" ++
        "[test]\nclear\n[compute shader binary]\n1 F # 2\nffffffff").toList = .ok script ∧
      script.shadersOf .vertex = [.passthrough] ∧
      script.shadersOf .fragment = [.body (.glsl "#version 430 # kept\n\n".toList),
        .body (.glsl "void main() ;\r\n".toList)] ∧
      script.shadersOf .compute = [.body (.binary [1, 15, 0xffffffff])] := by
    rw [load_of_no_rules rfl]
    decide +kernel
  obtain ⟨script, hload, hvertex, hfragment, hcompute⟩ := hload
  exact ⟨_, script, rfl, hload, hvertex, hfragment, hcompute,
    fun stage => Script.shadersOf_of_load rfl hload stage⟩

end GpuScript
