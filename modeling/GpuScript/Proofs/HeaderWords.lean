import GpuScript.Proofs.TrimmedWords
import GpuScript.SectionHeader

/-!
# Words of headers

A header announces a shader by its words alone: those that name a stage, the word for shaders, and
at most one word for the kind of shader. No other words announce a shader.
-/

namespace GpuScript

/-- The words for a kind of shader in a header of a stage, with the shader before its body. -/
def shaderKinds (stage : Stage) : List (List String × Shader) :=
  [([], .body (.glsl [])), (["spirv"], .body (.spirv [])), (["binary"], .body (.binary []))] ++
    if stage = .vertex then [(["passthrough"], .passthrough)] else []

def Stage.headerWords (stage : Stage) : List (List Char) :=
  (stage.nameWords ++ ["shader"]).map String.toList

/-- The words of each header of a shader, with what it announces. -/
def shaderHeaders : List (List (List Char) × Stage × Shader) :=
  Stage.all.flatMap fun stage => (shaderKinds stage).map fun p =>
    (stage.headerWords ++ p.1.map String.toList, stage, p.2)

/-- The stage and the shader before its body that a line announces, if it is a header that has the
words for one before its closing bracket. -/
def announced? : List Char → Option (Stage × Shader)
  | '[' :: text => shaderHeaders.lookup (words (text.takeWhile (· ≠ ']')))
  | _ => none

def Shader.emptied : Shader → Shader
  | .body (.glsl _) => .body (.glsl [])
  | .body (.spirv _) => .body (.spirv [])
  | .body (.binary _) => .body (.binary [])
  | .passthrough => .passthrough

section Kinds

variable {stage : Stage} {text rest : List Char} {shader : Shader}

theorem isWord_kinds :
    IsWord "spirv".toList ∧ IsWord "binary".toList ∧ IsWord "passthrough".toList := by
  decide

theorem emptyShader_of_none (h : nextWord? text = none) :
    emptyShader stage text = (.body (.glsl []), text) := by
  simp only [emptyShader, afterWord?_eq isWord_kinds.1, afterWord?_eq isWord_kinds.2.1,
    afterWord?_eq isWord_kinds.2.2, h, Option.bind_none]

theorem emptyShader_of_some {word : List Char} (h : nextWord? text = some (word, rest)) :
    emptyShader stage text =
      if word = "spirv".toList then (.body (.spirv []), rest)
      else if word = "binary".toList then (.body (.binary []), rest)
      else if word = "passthrough".toList ∧ stage = .vertex then (.passthrough, rest)
      else (.body (.glsl []), text) := by
  simp only [emptyShader, afterWord?_eq isWord_kinds.1, afterWord?_eq isWord_kinds.2.1,
    afterWord?_eq isWord_kinds.2.2, h, Option.bind_some]
  by_cases hspirv : word = "spirv".toList
  · rw [if_pos hspirv, if_pos hspirv]
  · rw [if_neg hspirv, if_neg hspirv]
    by_cases hbinary : word = "binary".toList
    · rw [if_pos hbinary, if_pos hbinary]
    · rw [if_neg hbinary, if_neg hbinary]
      by_cases hpassthrough : word = "passthrough".toList
      · simp only [hpassthrough, if_true, true_and]
      · simp only [hpassthrough, if_false, false_and]

theorem mem_shaderKinds {kind : List String} : (kind, shader) ∈ shaderKinds stage ↔
    kind = [] ∧ shader = .body (.glsl []) ∨ kind = ["spirv"] ∧ shader = .body (.spirv []) ∨
      kind = ["binary"] ∧ shader = .body (.binary []) ∨
      kind = ["passthrough"] ∧ shader = .passthrough ∧ stage = .vertex := by
  unfold shaderKinds
  split <;> simp [*]

theorem exists_kind_of_emptyShader (h : emptyShader stage text = (shader, rest))
    (hrest : words rest = []) :
    ∃ kind, (kind, shader) ∈ shaderKinds stage ∧ words text = kind.map String.toList := by
  simp only [mem_shaderKinds]
  cases hnext : nextWord? text with
  | none =>
    rw [emptyShader_of_none hnext] at h
    cases h
    exact ⟨[], .inl ⟨rfl, rfl⟩, hrest⟩
  | some p =>
    obtain ⟨word, behind⟩ := p
    rw [emptyShader_of_some hnext] at h
    rw [words_of_nextWord? hnext]
    split at h
    · next hword =>
      cases h
      exact ⟨_, .inr (.inl ⟨rfl, rfl⟩), by rw [hword, hrest]; rfl⟩
    · split at h
      · next hword =>
        cases h
        exact ⟨_, .inr (.inr (.inl ⟨rfl, rfl⟩)), by rw [hword, hrest]; rfl⟩
      · split at h
        · next hword =>
          cases h
          exact ⟨_, .inr (.inr (.inr ⟨rfl, rfl, hword.2⟩)), by rw [hword.1, hrest]; rfl⟩
        · cases h
          rw [words_of_nextWord? hnext] at hrest
          cases hrest

theorem exists_emptyShader_of_kind {kind : List String} (h : (kind, shader) ∈ shaderKinds stage)
    (htext : words text = kind.map String.toList) :
    ∃ rest, emptyShader stage text = (shader, rest) ∧ words rest = [] := by
  cases hnext : nextWord? text with
  | none =>
    rw [words_of_nextWord?_eq_none hnext] at htext
    rw [List.map_eq_nil_iff.1 htext.symm, mem_shaderKinds] at h
    obtain rfl : shader = .body (.glsl []) := by simpa using h
    exact ⟨text, emptyShader_of_none hnext, words_of_nextWord?_eq_none hnext⟩
  | some p =>
    obtain ⟨word, behind⟩ := p
    rw [words_of_nextWord? hnext] at htext
    rw [emptyShader_of_some hnext]
    rcases mem_shaderKinds.1 h with ⟨rfl, rfl⟩ | ⟨rfl, rfl⟩ | ⟨rfl, rfl⟩ | ⟨rfl, rfl, rfl⟩
    · cases htext
    all_goals
      obtain ⟨rfl, hbehind⟩ := List.cons.inj htext
      exact ⟨behind, rfl, hbehind⟩

end Kinds

theorem isWord_of_mem_headerWords (stage : Stage) : ∀ word ∈ stage.headerWords, IsWord word := by
  cases stage <;> decide

theorem stage_eq_of_headerWords {stage other : Stage} {ws : List (List Char)}
    (h : stage.headerWords <+: ws) (h' : other.headerWords <+: ws) : stage = other := by
  have hfree : ∀ a b : Stage, a.headerWords <+: b.headerWords → a = b := by
    intro a b
    cases a <;> cases b <;> decide
  rcases List.prefix_or_prefix_of_prefix h h' with h | h
  · exact hfree _ _ h
  · exact (hfree _ _ h).symm

theorem stageOfHeader?_eq_some_iff {header rest : List Char} {stage : Stage} :
    stageOfHeader? header = some (stage, rest) ↔
      afterWords? stage.headerWords header = some rest := by
  have hopens : ∀ {stage : Stage} {rest : List Char},
      afterWords? stage.headerWords header = some rest → stage.headerWords <+: words header := by
    intro stage rest h
    exact ⟨words rest, (words_of_afterWords? (isWord_of_mem_headerWords stage) h).symm⟩
  constructor
  · intro h
    obtain ⟨other, -, hother⟩ := List.exists_of_findSome?_eq_some h
    obtain ⟨behind, hbehind, heq⟩ := Option.map_eq_some_iff.1 hother
    cases heq
    exact hbehind
  · intro h
    cases hfound : stageOfHeader? header with
    | none =>
      have hnone := List.findSome?_eq_none_iff.1 hfound stage (by cases stage <;> decide)
      rw [Option.map_eq_none_iff] at hnone
      rw [Stage.headerWords, hnone] at h
      cases h
    | some p =>
      obtain ⟨other, -, hother⟩ := List.exists_of_findSome?_eq_some hfound
      obtain ⟨behind, hbehind, rfl⟩ := Option.map_eq_some_iff.1 hother
      obtain rfl := stage_eq_of_headerWords (hopens hbehind) (hopens h)
      rw [Option.some.inj (hbehind.symm.trans h)]

theorem mem_shaderHeaders {ws : List (List Char)} {stage : Stage} {shader : Shader} :
    (ws, stage, shader) ∈ shaderHeaders ↔ ∃ kind, (kind, shader) ∈ shaderKinds stage ∧
      ws = stage.headerWords ++ kind.map String.toList := by
  have hstage : stage ∈ Stage.all := by cases stage <;> decide
  simp only [shaderHeaders, List.mem_flatMap, List.mem_map, Prod.mk.injEq]
  constructor
  · rintro ⟨_, -, ⟨kind, _⟩, hkind, rfl, rfl, rfl⟩
    exact ⟨kind, hkind, rfl⟩
  · rintro ⟨kind, hkind, rfl⟩
    exact ⟨stage, hstage, (kind, shader), hkind, rfl, rfl, rfl⟩

theorem lookup_shaderHeaders_eq_some_iff {ws : List (List Char)} {p : Stage × Shader} :
    shaderHeaders.lookup ws = some p ↔ (ws, p) ∈ shaderHeaders := by
  constructor
  · intro h
    obtain ⟨before, behind, heq, -⟩ := List.lookup_eq_some_iff.1 h
    rw [heq]
    simp
  · have hkeys : ∀ entry ∈ shaderHeaders, shaderHeaders.lookup entry.1 = some entry.2 := by
      decide +kernel
    exact hkeys (ws, p)

theorem shaderOfHeader?_eq_some_iff {name : List Char} {stage : Stage} {shader : Shader} :
    shaderOfHeader? name = some (stage, shader) ↔ (words name, stage, shader) ∈ shaderHeaders := by
  rw [mem_shaderHeaders]
  constructor
  · intro h
    obtain ⟨⟨found, rest⟩, hstage, h⟩ := Option.bind_eq_some_iff.1 h
    dsimp only at h
    split at h
    · next hrest =>
      cases h
      obtain ⟨kind, hkind, hwords⟩ :=
        exists_kind_of_emptyShader (Prod.mk.eta (p := emptyShader stage rest)).symm
          (trimEnd_eq_nil_iff.1 hrest)
      refine ⟨kind, hkind, ?_⟩
      rw [words_of_afterWords? (isWord_of_mem_headerWords stage)
        (stageOfHeader?_eq_some_iff.1 hstage), hwords]
    · cases h
  · rintro ⟨kind, hkind, hname⟩
    obtain ⟨behind, hbehind, hwords⟩ :=
      exists_afterWords? (isWord_of_mem_headerWords stage) hname
    obtain ⟨rest, hshader, hrest⟩ := exists_emptyShader_of_kind hkind hwords
    rw [shaderOfHeader?, stageOfHeader?_eq_some_iff.2 hbehind, Option.bind_some]
    simp only [hshader, trimEnd_eq_nil_iff.2 hrest, if_true]

theorem shaderOfHeader?_eq_lookup (name : List Char) :
    shaderOfHeader? name = shaderHeaders.lookup (words name) := by
  refine Option.ext fun p => ?_
  rw [shaderOfHeader?_eq_some_iff, lookup_shaderHeaders_eq_some_iff]

theorem announced?_cases {line : List Char} {stage : Stage} {shader : Shader}
    (h : announced? line = some (stage, shader)) :
    shader.emptied = shader ∧ (shader = .passthrough → stage = .vertex) := by
  unfold announced? at h
  split at h
  · obtain ⟨kind, hkind, -⟩ := mem_shaderHeaders.1 (lookup_shaderHeaders_eq_some_iff.1 h)
    rcases mem_shaderKinds.1 hkind with ⟨-, rfl⟩ | ⟨-, rfl⟩ | ⟨-, rfl⟩ | ⟨-, rfl, rfl⟩ <;>
      simp [Shader.emptied]
  · cases h

/-- What a header is read to announces a shader exactly if its words do. -/
theorem announced?_of_readHeader {text : List Char} {header : Header}
    (h : readHeader text = .ok header) :
    announced? ('[' :: text) = match header with
      | .shader stage shader => some (stage, shader)
      | _ => none := by
  unfold readHeader at h
  split at h
  · cases h
  · split at h
    · rw [announced?, ← shaderOfHeader?_eq_lookup]
      unfold readSectionName at h
      split at h
      · next hshader =>
        cases h
        exact hshader
      · next hnone =>
        split at h
        · next hname =>
          cases h
          have hfixed : ∀ entry ∈ headerNames, ∀ stage shader,
              entry.2 ≠ Header.shader stage shader := by
            simp [headerNames]
          obtain ⟨before, behind, heq, -⟩ := List.lookup_eq_some_iff.1 hname
          have hentry : (trim (text.takeWhile (· ≠ ']')), header) ∈ headerNames := by
            rw [heq]
            simp
          have hother := hfixed _ hentry
          rw [hnone]
          cases header with
          | shader stage shader => exact (hother stage shader rfl).elim
          | comment | require | test | indices | vertexData => rfl
        · cases h
    · cases h

end GpuScript
