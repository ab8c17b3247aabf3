import GpuScript.Proofs.ShaderSections

/-!
# Linked shaders

Only source texts can be linked: a stage has any number of shaders with a source text, or one other
shader. A header is compared with the last shader of its stage alone, which is enough as no two
before it break the rule, and a shader whose section has not ended yet is added before the header is
looked at. Headers that break the rule are refused wherever they stand.
-/

namespace GpuScript

/-- Whether no shader is in one stage with another one unless both have a source text. -/
def AreLinked (shaders : List (Stage × Shader)) : Prop :=
  shaders.Pairwise fun p q => p.1 = q.1 → p.2.isSpirv = false ∧ q.2.isSpirv = false

/-- The shaders that the headers of a text announce, after the tokens of each have been replaced. -/
def announcedShaders (settings : Settings) (source : List Char) : List (Stage × Shader) :=
  (logicalLines source).filterMap fun line =>
    (line.scan? settings).bind fun scanned => announced? scanned.text

/-- What the rule of linking makes of the shaders of a stage. -/
structure Script.LinksStage (script : Script) (stage : Stage) : Prop where
  /-- A shader without a source text is the only one. -/
  alone : ∀ shader ∈ script.shadersOf stage, shader.isSpirv = true →
    script.shadersOf stage = [shader]
  several : 2 ≤ (script.shadersOf stage).length →
    ∀ shader ∈ script.shadersOf stage, ∃ text, shader = .body (.glsl text)
  passthrough : .passthrough ∈ script.shadersOf stage → stage = .vertex

theorem isSpirv_eq_false_iff {shader : Shader} :
    shader.isSpirv = false ↔ ∃ text, shader = .body (.glsl text) := by
  cases shader with
  | body body => cases body <;> simp [Shader.isSpirv]
  | passthrough => simp [Shader.isSpirv]

@[simp] theorem Shader.isSpirv_emptied (shader : Shader) :
    shader.emptied.isSpirv = shader.isSpirv := by
  cases shader with
  | body body => cases body <;> rfl
  | passthrough => rfl

namespace AreLinked

variable {shaders : List (Stage × Shader)} {stage : Stage} {shader other : Shader}

theorem pairwise_ofStage (h : AreLinked shaders) (stage : Stage) :
    ((shaders.filter fun p => p.1 = stage).map Prod.snd).Pairwise
      fun a b => a.isSpirv = false ∧ b.isSpirv = false := by
  refine List.pairwise_map.2 ((List.Pairwise.filter _ h).imp_of_mem fun hp hq hlinked => ?_)
  exact hlinked ((of_decide_eq_true (List.mem_filter.1 hp).2).trans
    (of_decide_eq_true (List.mem_filter.1 hq).2).symm)

/-- If the last shader of a stage has a source text, then all others of the stage have one. -/
theorem concat {script : Script} (h : AreLinked script.shaders)
    (hlink : script.canLink stage shader = true) :
    AreLinked (script.shaders ++ [(stage, shader)]) := by
  refine List.pairwise_append.2 ⟨h, List.pairwise_singleton _ _, fun p hp q hq hsame => ?_⟩
  obtain rfl := List.mem_singleton.1 hq
  have hmem : p.2 ∈ script.shadersOf stage :=
    List.mem_map_of_mem (List.mem_filter.2 ⟨hp, decide_eq_true hsame⟩)
  have hpairs := h.pairwise_ofStage stage
  unfold Script.canLink at hlink
  split at hlink
  · next last hlast =>
    rw [Bool.and_eq_true, Bool.not_eq_true', Bool.not_eq_true'] at hlink
    obtain ⟨front, hfront⟩ := List.getLast?_eq_some_iff.1 hlast
    refine ⟨?_, hlink.2⟩
    rw [hfront] at hmem
    rw [Script.shadersOf] at hfront
    rw [hfront] at hpairs
    rcases List.mem_append.1 hmem with hmem | hmem
    · exact ((List.pairwise_append.1 hpairs).2.2 _ hmem last (by simp)).1
    · rw [List.mem_singleton.1 hmem]
      exact hlink.1
  · next hnone =>
    rw [List.getLast?_eq_none_iff.1 hnone] at hmem
    cases hmem

theorem concat_of_isSpirv_eq (h : AreLinked (shaders ++ [(stage, shader)]))
    (hsame : other.isSpirv = shader.isSpirv) : AreLinked (shaders ++ [(stage, other)]) := by
  obtain ⟨hfront, -, hlast⟩ := List.pairwise_append.1 h
  refine List.pairwise_append.2 ⟨hfront, List.pairwise_singleton _ _, fun p hp q hq => ?_⟩
  obtain rfl := List.mem_singleton.1 hq
  rw [hsame]
  exact hlast p hp (stage, shader) (by simp)

theorem eq_singleton {script : Script} (h : AreLinked script.shaders)
    (hmem : shader ∈ script.shadersOf stage) (hspirv : shader.isSpirv = true) :
    script.shadersOf stage = [shader] := by
  have hpairs := h.pairwise_ofStage stage
  obtain ⟨front, behind, heq⟩ := List.append_of_mem hmem
  have hsplit := heq
  rw [Script.shadersOf] at heq
  rw [heq] at hpairs
  obtain ⟨-, hbehind, hfront⟩ := List.pairwise_append.1 hpairs
  have hnoneBehind : behind = [] := by
    refine List.eq_nil_iff_forall_not_mem.2 fun a ha => ?_
    have hfalse := ((List.pairwise_cons.1 hbehind).1 a ha).1
    rw [hspirv] at hfalse
    cases hfalse
  have hnoneFront : front = [] := by
    refine List.eq_nil_iff_forall_not_mem.2 fun a ha => ?_
    have hfalse := (hfront a ha shader (by simp)).2
    rw [hspirv] at hfalse
    cases hfalse
  rw [hsplit, hnoneFront, hnoneBehind]
  rfl

theorem map_emptied_iff :
    AreLinked (shaders.map fun p => (p.1, p.2.emptied)) ↔ AreLinked shaders := by
  rw [AreLinked, List.pairwise_map]
  simp only [Shader.isSpirv_emptied]
  rfl

end AreLinked

theorem Shader.FilledBy.emptied_eq {lines : List (List Char)} {old new : Shader}
    (h : old.FilledBy lines new) : new.emptied = old.emptied := by
  cases h with
  | body h => cases h <;> rfl
  | passthrough => rfl

theorem Shader.FilledBy.isSpirv_eq {lines : List (List Char)} {old new : Shader}
    (h : old.FilledBy lines new) : new.isSpirv = old.isSpirv := by
  rw [← isSpirv_emptied, h.emptied_eq, isSpirv_emptied]

namespace Loading

variable {state new final : Loading} {line : List Char}

theorem areLinked_of_afterHeader (h : AfterHeader state line new)
    (hlinked : AreLinked state.endSection.script.shaders) :
    AreLinked new.endSection.script.shaders := by
  cases h with
  | other hline hshaders hcurrent =>
    rw [shaders_endSection_of_inNoShader hcurrent, hshaders]
    exact hlinked
  | body hline hlink hshaders hcurrent =>
    rw [shaders_endSection_of_shader hcurrent, hshaders]
    exact hlinked.concat hlink
  | passthrough hline hlink hshaders hcurrent =>
    rw [shaders_endSection_of_inNoShader (by simp [InNoShader, hcurrent]), hshaders]
    exact hlinked.concat hlink

theorem areLinked_of_afterBodyLine (h : AfterBodyLine state line new)
    (hlinked : AreLinked state.endSection.script.shaders) :
    AreLinked new.endSection.script.shaders := by
  cases h with
  | shader hcurrent hmore hshaders hnew =>
    rw [shaders_endSection_of_shader hcurrent] at hlinked
    rw [shaders_endSection_of_shader hnew, hshaders]
    exact hlinked.concat_of_isSpirv_eq (Shader.FilledBy.body (.cons hmore (.nil _))).isSpirv_eq
  | other hcurrent hshaders hsame hblank =>
    rw [shaders_endSection_of_inNoShader hcurrent] at hlinked
    rw [shaders_endSection_of_inNoShader (hcurrent.of_current_eq hsame), hshaders]
    exact hlinked

theorem areLinked_of_takeNumbered {line : NumberedLine} (h : state.takeNumbered line = .ok new)
    (hlinked : AreLinked state.endSection.script.shaders) :
    AreLinked new.endSection.script.shaders := by
  rcases cases_of_takeLine (takeLine_of_takeNumbered h) with ⟨-, h⟩ | ⟨-, h⟩
  · exact areLinked_of_afterHeader h hlinked
  · exact areLinked_of_afterBodyLine h hlinked

theorem areLinked_of_run {lines : List NumberedLine}
    (h : lines.foldlM takeNumbered state = .ok final)
    (hlinked : AreLinked state.endSection.script.shaders) :
    AreLinked final.endSection.script.shaders := by
  induction lines generalizing state with
  | nil =>
    cases h
    exact hlinked
  | cons line rest ih =>
    rw [List.foldlM_cons] at h
    obtain ⟨next, hnext, hrest⟩ := exists_of_bind_eq_ok h
    exact ih hrest (areLinked_of_takeNumbered hnext hlinked)

end Loading

theorem Script.areLinked_of_load {settings : Settings} {source : List Char} {script : Script}
    (h : load settings source = .ok script) : AreLinked script.shaders := by
  obtain ⟨start, lines, final, hstart, -, hrun, rfl⟩ := exists_scannedLines_of_load h
  obtain ⟨hnone, houtside⟩ := Loading.of_start hstart
  refine Loading.areLinked_of_run hrun ?_
  rw [Loading.shaders_endSection_of_inNoShader (by simp [Loading.InNoShader, houtside]), hnone]
  exact .nil

theorem map_shaderSections (lines : List (List Char)) :
    (shaderSections lines).map (fun s => (s.stage, s.shader)) = lines.filterMap announced? := by
  induction lines with
  | nil => rfl
  | cons line rest ih =>
    rw [shaderSections, List.filterMap_cons]
    split
    · next hline => rw [hline, List.map_cons, ih]
    · next hline => rw [hline, ih]

theorem announcedShaders_eq {settings : Settings} {source : List Char} {lines : List NumberedLine}
    (h : scannedLines settings source = some lines) :
    announcedShaders settings source = (lines.map NumberedLine.text).filterMap announced? := by
  unfold scannedLines at h
  unfold announcedShaders
  generalize logicalLines source = read at h
  induction read generalizing lines with
  | nil =>
    cases h
    rfl
  | cons line rest ih =>
    rw [List.mapM_cons] at h
    obtain ⟨scanned, hscanned, h⟩ := Option.bind_eq_some_iff.1 h
    obtain ⟨more, hmore, h⟩ := Option.bind_eq_some_iff.1 h
    cases h
    rw [List.filterMap_cons, hscanned, ih hmore]
    rfl

theorem Script.announcedShaders_of_load {settings : Settings} {source : List Char} {script : Script}
    (h : load settings source = .ok script) :
    announcedShaders settings source = script.shaders.map fun p => (p.1, p.2.emptied) := by
  obtain ⟨lines, hlines, hgives⟩ := shaders_of_scannedLines h
  have hsame : (shaderSections (lines.map NumberedLine.text)).map
      (fun s => (s.stage, s.shader.emptied)) = script.shaders.map fun p => (p.1, p.2.emptied) := by
    rw [← List.forall₂_eq_eq_eq, List.forall₂_map_left_iff, List.forall₂_map_right_iff]
    exact hgives.imp fun s p ⟨hstage, hfilled⟩ => Prod.ext hstage.symm hfilled.emptied_eq.symm
  have hempty : ∀ p ∈ announcedShaders settings source, (p.1, p.2.emptied) = p := by
    intro p hp
    rw [announcedShaders_eq hlines] at hp
    obtain ⟨line, -, hline⟩ := List.mem_filterMap.1 hp
    exact Prod.ext rfl (announced?_cases hline).1
  calc announcedShaders settings source
      = (announcedShaders settings source).map fun p => (p.1, p.2.emptied) :=
        ((List.map_congr_left hempty).trans (List.map_id' _)).symm
    _ = ((shaderSections (lines.map NumberedLine.text)).map fun s => (s.stage, s.shader)).map
          fun p => (p.1, p.2.emptied) := by
        rw [announcedShaders_eq hlines, map_shaderSections]
    _ = script.shaders.map fun p => (p.1, p.2.emptied) := by
        rw [List.map_map, ← hsame]
        rfl

theorem Script.areLinked_of_announced {settings : Settings} {source : List Char} {script : Script}
    (h : load settings source = .ok script) : AreLinked (announcedShaders settings source) := by
  rw [announcedShaders_of_load h]
  exact AreLinked.map_emptied_iff.2 (areLinked_of_load h)

theorem Script.stage_of_passthrough {settings : Settings} {source : List Char} {script : Script}
    (h : load settings source = .ok script) {stage : Stage}
    (hmem : .passthrough ∈ script.shadersOf stage) : stage = .vertex := by
  obtain ⟨⟨found, shader⟩, hfound, rfl⟩ := List.mem_map.1 hmem
  obtain ⟨hpair, hstage⟩ := List.mem_filter.1 hfound
  obtain rfl := of_decide_eq_true hstage
  have hannounced : (found, Shader.passthrough) ∈ announcedShaders settings source := by
    rw [announcedShaders_of_load h]
    exact List.mem_map_of_mem (f := fun p => (p.1, p.2.emptied)) hpair
  obtain ⟨line, -, hline⟩ := List.mem_filterMap.1 hannounced
  obtain ⟨scanned, -, hscanned⟩ := Option.bind_eq_some_iff.1 hline
  exact (announced?_cases hscanned).2 rfl

/-- A script that loads follows the rule of linking in each stage. A text whose headers announce a
shader without a source text and another shader in one stage is refused. -/
theorem Script.linksStage_of_load (settings : Settings) (source : List Char) :
    (∀ script, load settings source = .ok script → ∀ stage, script.LinksStage stage) ∧
      ∀ first second, [first, second].Sublist (announcedShaders settings source) →
        first.1 = second.1 → first.2.isSpirv = true ∨ second.2.isSpirv = true →
        ∃ error, load settings source = .error (.error error) := by
  constructor
  · intro script h stage
    have hlinked := areLinked_of_load h
    refine ⟨fun shader => hlinked.eq_singleton, fun htwo shader hmem => ?_, stage_of_passthrough h⟩
    -- A shader without a source text would be the only one.
    rw [← isSpirv_eq_false_iff, Bool.eq_false_iff]
    intro hspirv
    rw [hlinked.eq_singleton hmem hspirv] at htwo
    simp at htwo
  · intro first second hpair hstage hspirv
    rcases (ensures_load settings source).cases with ⟨script, h, -⟩ | ⟨error, h, -⟩
    · have hlinked := List.pairwise_iff_forall_sublist.1 (areLinked_of_announced h) hpair hstage
      rw [hlinked.1, hlinked.2] at hspirv
      simp at hspirv
    · exact ⟨error, h⟩

/-- Texts whose shaders can and cannot be linked, in sections with others between them. The binary
of the second one stands behind a source text that its section has not added yet. -/
theorem Script.linksStage_of_load_interleaved :
    (∃ script,
      load {} ("[vertex shader passthrough]\n[fragment shader]\nfirst\n[test]\nclear\n" ++
        "[fragment shader]\nsecond\n[compute shader spirv]\nthird").toList = .ok script ∧
      script.shadersOf .vertex = [.passthrough] ∧ (script.shadersOf .fragment).length = 2 ∧
      ∀ stage, script.LinksStage stage) ∧
    ∃ first second error,
      [first, second].Sublist (announcedShaders {} ("[vertex shader]\n[fragment shader]\nfirst\n" ++
        "[comment]\nnone\n[fragment shader binary]\n1\n[unknown").toList) ∧
      first = (.fragment, .body (.glsl [])) ∧ second = (.fragment, .body (.binary [])) ∧
      load {} ("[vertex shader]\n[fragment shader]\nfirst\n" ++
        "[comment]\nnone\n[fragment shader binary]\n1\n[unknown").toList =
          .error (.error error) := by
  constructor
  · have hload : ∃ script,
        load {} ("[vertex shader passthrough]\n[fragment shader]\nfirst\n[test]\nclear\n" ++
          "[fragment shader]\nsecond\n[compute shader spirv]\nthird").toList = .ok script ∧
        script.shadersOf .vertex = [.passthrough] ∧ (script.shadersOf .fragment).length = 2 := by
      rw [load_of_no_rules rfl]
      decide +kernel
    obtain ⟨script, hload, hvertex, hfragment⟩ := hload
    exact ⟨script, hload, hvertex, hfragment, (Script.linksStage_of_load _ _).1 script hload⟩
  · have hpair : [(Stage.fragment, Shader.body (.glsl [])), (.fragment, .body (.binary []))].Sublist
        (announcedShaders {} ("[vertex shader]\n[fragment shader]\nfirst\n" ++
          "[comment]\nnone\n[fragment shader binary]\n1\n[unknown").toList) := by
      rw [announcedShaders_eq (mapM_scan?_of_no_rules rfl _)]
      decide +kernel
    obtain ⟨error, herror⟩ := (Script.linksStage_of_load _ _).2 _ _ hpair rfl (.inr rfl)
    exact ⟨_, _, error, hpair, rfl, rfl, herror⟩

end GpuScript
