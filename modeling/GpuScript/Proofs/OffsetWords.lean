import GpuScript.Proofs.LoadingRun
import GpuScript.Proofs.TrimmedWords

/-!
# Offsets and words

A write of data has an offset and values behind the name of its type. The offset is the literal that
the text starts with and the values are the words of what is left, so the line is read word by word
exactly if a blank follows the literal.
-/

namespace GpuScript

/-- Whether words stand for values of the components of a format in turn, one for each. -/
def AreData (format : Format) (words : List (List Char)) (values : List Value) : Prop :=
  List.Forall₂ (fun p value => Value.ofToken? (format.scalarAt p.2) p.1 = some value)
    words.zipIdx values

/-- Whether the first word of a text is an offset and the others stand for values. -/
def IsOffsetAndData (format : Format) (text : List Char) (offset : Nat) (values : List Value) :
    Prop :=
  ∃ word more, words text = word :: more ∧
    wholeToken? (readUnsigned 32) word = some offset ∧ AreData format more values

theorem readCycled_eq_ok_iff {format : Format} {index : Nat} {words : List (List Char)}
    {values : List Value} : readCycled format index words = .ok values ↔
      List.Forall₂ (fun p value => Value.ofToken? (format.scalarAt p.2) p.1 = some value)
        (words.zipIdx index) values := by
  induction words generalizing index values with
  | nil =>
    rw [readCycled, List.zipIdx_nil, List.forall₂_nil_left_iff, Except.ok.injEq, eq_comm]
  | cons word words ih =>
    rw [List.zipIdx_cons, readCycled]
    cases hword : Value.ofToken? (format.scalarAt index) word with
    | none =>
      refine iff_of_false (by simp) ?_
      rintro (_ | ⟨hvalue, -⟩)
      rw [hword] at hvalue
      cases hvalue
    | some value =>
      constructor
      · intro h
        obtain ⟨more, hmore, rfl⟩ := exists_of_map_eq_ok h
        exact .cons hword (ih.1 hmore)
      · rintro (_ | ⟨hvalue, hmore⟩)
        obtain rfl := Option.some.inj (hword.symm.trans hvalue)
        rw [ih.2 hmore]
        rfl

theorem areData_of_readData {format : Format} {text : List Char} {values : List Value}
    (h : readData format text = .ok values) : values ≠ [] ∧ AreData format (words text) values := by
  refine ⟨(accepts_of_readData h).1, ?_⟩
  obtain ⟨read, hread, h⟩ := exists_of_bind_eq_ok h
  split at h
  · cases h
  · split at h
    · cases h
    · cases h
      exact readCycled_eq_ok_iff.1 hread

theorem isOffsetAndData_iff {format : Format} {text tail : List Char} {offset : Nat}
    {values : List Value} (hoffset : readUnsigned 32 text = .ok (offset, tail)) (hne : values ≠ [])
    (hdata : AreData format (words tail) values) :
    IsOffsetAndData format text offset values ↔ ∃ c more, tail = c :: more ∧ isBlank c = true := by
  obtain ⟨word, hwords, hword⟩ := exists_word_iff_endsWord hoffset
  cases tail with
  | nil =>
    rw [words_nil] at hdata
    exact (hne (List.forall₂_nil_left_iff.1 hdata)).elim
  | cons c rest =>
    cases hc : isBlank c with
    | true =>
      have hends : EndsWord (c :: rest) := fun d hd => Option.some.inj hd ▸ hc
      rw [afterLeadingWord_of_endsWord hends] at hwords
      exact iff_of_true ⟨word, _, hwords, hword.2 hends, hdata⟩ ⟨c, rest, rfl, hc⟩
    | false =>
      refine iff_of_false ?_ ?_
      · rintro ⟨other, more, hother, hwhole, -⟩
        obtain ⟨rfl, -⟩ := List.cons.inj (hwords.symm.trans hother)
        have hblank := hword.1 hwhole c rfl
        rw [hc] at hblank
        cases hblank
      · rintro ⟨d, more, heq, hd⟩
        obtain ⟨rfl, -⟩ := List.cons.inj heq
        rw [hc] at hd
        cases hd

/-- The words that commands on buffers start with, with the kind of buffer and the layout rule. -/
def bufferKeywords : List (List Char × BufferKind × LayoutRule) :=
  [("ssbo".toList, .storage, .std430), ("ubo".toList, .uniform, .std140)]

theorem head?_of_afterWord? {c : Char} {word text rest : List Char} (hc : word.head? = some c)
    (h : afterWord? word text = some rest) : (trimStart text).head? = some c := by
  have hprefix : ∃ back, word.isPrefixOf? (trimStart text) = some back := by
    unfold afterWord? at h
    split at h
    · next heq => exact ⟨_, heq⟩
    · next heq => exact ⟨_, heq⟩
    · cases h
  obtain ⟨back, hback⟩ := hprefix
  rw [← List.isPrefixOf?_eq_some_iff_append_eq.1 hback, List.head?_append, hc]
  rfl

theorem afterWord?_eq_none {c d : Char} {word other text rest : List Char} (hne : c ≠ d)
    (hc : word.head? = some c) (hd : other.head? = some d)
    (h : afterWord? other text = some rest) : afterWord? word text = none := by
  cases hword : afterWord? word text with
  | none => rfl
  | some found =>
    have hheads := (head?_of_afterWord? hc hword).symm.trans (head?_of_afterWord? hd h)
    exact (hne (Option.some.inj hheads)).elim

theorem readTestLine_of_keyword {keyword text content arguments : List Char} {kind : BufferKind}
    {rule : LayoutRule} (hkeyword : (keyword, kind, rule) ∈ bufferKeywords)
    (hcontent : content? text = some content)
    (harguments : afterWord? keyword content = some arguments) :
    readTestLine text = (readBufferCommand kind rule arguments).map some := by
  simp only [bufferKeywords, List.mem_cons, List.not_mem_nil, or_false, Prod.mk.injEq] at hkeyword
  rcases hkeyword with ⟨rfl, rfl, rfl⟩ | ⟨rfl, rfl, rfl⟩
  · have hclear : afterWord? "clear".toList content = none :=
      afterWord?_eq_none (c := 'c') (d := 's') (by decide) rfl rfl harguments
    simp only [readTestLine, hcontent, hclear, harguments]
  · have hclear : afterWord? "clear".toList content = none :=
      afterWord?_eq_none (c := 'c') (d := 'u') (by decide) rfl rfl harguments
    have hstorage : afterWord? "ssbo".toList content = none :=
      afterWord?_eq_none (c := 's') (d := 'u') (by decide) rfl rfl harguments
    simp only [readTestLine, hcontent, hclear, hstorage, harguments]

theorem readBufferCommand_of_subdata {kind : BufferKind} {rule : LayoutRule}
    {arguments more given : List Char} {binding : Binding}
    (hbinding : readBinding arguments = .ok (binding, more))
    (hgiven : afterWord? "subdata".toList more = some given) :
    readBufferCommand kind rule arguments = readSubdata kind binding rule given := by
  rw [readBufferCommand, hbinding]
  simp only [bind, Except.bind, hgiven]

theorem exists_of_readSubdata {kind : BufferKind} {binding : Binding} {rule : LayoutRule}
    {given name rest : List Char} {format : Format} {line : TestLine}
    (hname : nextWord? given = some (name, rest))
    (hformat : Format.ofGlslType? name rule = some format)
    (h : readSubdata kind binding rule given = .ok line) :
    ∃ offset tail values, readUnsigned 32 rest = .ok (offset, tail) ∧
      readData format tail = .ok values ∧
      line = .subdata kind binding format offset values := by
  simp only [readSubdata, hname, hformat] at h
  split at h
  · cases h
  · next offset tail hoffset =>
    split at h
    · cases h
    · obtain ⟨values, hvalues, rfl⟩ := exists_of_map_eq_ok h
      exact ⟨offset, tail, values, hoffset, hvalues, rfl⟩

theorem exists_of_runTestLine {kind : BufferKind} {binding : Binding} {format : Format}
    {offset : Nat} {values : List Value} {buffers new : List Buffer}
    {operation? : Option Operation}
    (h : runTestLine (.subdata kind binding format offset values) buffers =
      .ok (new, operation?)) :
    ∃ index, operation? = some (.setBufferData index offset values) := by
  obtain ⟨⟨index, bound⟩, -, h⟩ := exists_of_bind_eq_ok h
  obtain ⟨written, -, h⟩ := exists_of_bind_eq_ok h
  cases h
  exact ⟨index, rfl⟩

namespace Loading

/-- Whether a line of a test section is a write of data to a buffer. It has a text behind the name
of the type, and the type stands for a format. -/
structure IsSubdataLine (settings : Settings) (state : Loading) (line : NumberedLine)
    (format : Format) (rest : List Char) : Prop where
  current : state.current = .test
  form : ∃ text content keyword kind rule arguments binding more given name,
    replaceTokens settings.rules replacementLimit line.text = some text ∧
    text.head? ≠ some '[' ∧ content? text = some content ∧
    (keyword, kind, rule) ∈ bufferKeywords ∧ afterWord? keyword content = some arguments ∧
    readBinding arguments = .ok (binding, more) ∧
    afterWord? "subdata".toList more = some given ∧ nextWord? given = some (name, rest) ∧
    Format.ofGlslType? name rule = some format

variable {settings : Settings} {state next : Loading} {line : NumberedLine} {format : Format}
  {rest : List Char}

theorem exists_of_isSubdataLine (hline : state.IsSubdataLine settings line format rest)
    (hstep : state.step settings line = .ok next) :
    ∃ index offset tail values,
      next.script.commands =
        state.script.commands ++ [⟨line.number, .setBufferData index offset values⟩] ∧
      readUnsigned 32 rest = .ok (offset, tail) ∧ readData format tail = .ok values := by
  obtain ⟨hcurrent, text, content, keyword, kind, rule, arguments, binding, more, given, name,
    htext, hbracket, hcontent, hkeyword, harguments, hbinding, hgiven, hname, hformat⟩ := hline
  obtain ⟨other, hother, htake⟩ := step_eq_ok_iff.1 hstep
  obtain rfl := Option.some.inj (htext.symm.trans hother)
  rw [takeLine_of_ne_bracket hbracket, takeBodyLine, hcurrent] at htake
  obtain ⟨asked?, hread, htake⟩ := exists_of_bind_eq_ok htake
  rw [orInvalid_eq_ok_iff, readTestLine_of_keyword hkeyword hcontent harguments,
    readBufferCommand_of_subdata hbinding hgiven] at hread
  obtain ⟨asked, hasked, rfl⟩ := exists_of_map_eq_ok hread
  obtain ⟨offset, tail, values, hoffset, hvalues, rfl⟩ := exists_of_readSubdata hname hformat hasked
  obtain ⟨⟨buffers, operation?⟩, hrun, htake⟩ := exists_of_bind_eq_ok htake
  cases htake
  obtain ⟨index, rfl⟩ := exists_of_runTestLine hrun
  exact ⟨index, offset, tail, values, rfl, hoffset, hvalues⟩

end Loading

/-- An accepted write of data takes as its offset the literal that the text behind the type starts
with, and the words behind the literal as its values. That is to read the text word by word exactly
if a blank follows the literal. -/
theorem Loading.isOffsetAndData_iff_blank {settings : Settings} {state next : Loading}
    {line : NumberedLine} {format : Format} {rest : List Char}
    (hline : state.IsSubdataLine settings line format rest)
    (hstep : state.step settings line = .ok next) :
    ∃ index offset tail values,
      next.script.commands =
        state.script.commands ++ [⟨line.number, .setBufferData index offset values⟩] ∧
      readUnsigned 32 rest = .ok (offset, tail) ∧ AreData format (words tail) values ∧
      (IsOffsetAndData format rest offset values ↔
        ∃ c more, tail = c :: more ∧ isBlank c = true) := by
  obtain ⟨index, offset, tail, values, hcommands, hoffset, hvalues⟩ :=
    exists_of_isSubdataLine hline hstep
  obtain ⟨hne, hdata⟩ := areData_of_readData hvalues
  exact ⟨index, offset, tail, values, hcommands, hoffset, hdata,
    isOffsetAndData_iff hoffset hne hdata⟩

/-- A write with an offset of base sixteen and two values. -/
theorem Loading.isOffsetAndData_iff_blank_of_hex :
    ∃ (state next : Loading) (format : Format),
      state.IsSubdataLine {} ⟨2, "ubo 1:2 subdata int 0x10 5 -6\n".toList⟩ format
        " 0x10 5 -6".toList ∧
      state.step {} ⟨2, "ubo 1:2 subdata int 0x10 5 -6\n".toList⟩ = .ok next ∧
      ∃ index offset tail values,
        next.script.commands =
          state.script.commands ++ [⟨2, .setBufferData index offset values⟩] ∧
        readUnsigned 32 " 0x10 5 -6".toList = .ok (offset, tail) ∧
        AreData format (words tail) values ∧
        (IsOffsetAndData format " 0x10 5 -6".toList offset values ↔
          ∃ c more, tail = c :: more ∧ isBlank c = true) := by
  have hrules : ({} : Settings).rules = [] := rfl
  have hsteps : ∃ start, Loading.start {} = .ok start ∧
      ∃ state, start.step {} ⟨1, "[test]\n".toList⟩ = .ok state ∧ state.current = .test ∧
      ∃ next, state.step {} ⟨2, "ubo 1:2 subdata int 0x10 5 -6\n".toList⟩ = .ok next ∧
        next.current = .test := by
    simp only [step_of_no_rules hrules]
    decide +kernel
  obtain ⟨start, -, state, -, hcurrent, next, hnext, -⟩ := hsteps
  obtain ⟨format, hformat⟩ := Option.isSome_iff_exists.1
    (by decide +kernel : (Format.ofGlslType? "int".toList .std140).isSome = true)
  have hline : state.IsSubdataLine {} ⟨2, "ubo 1:2 subdata int 0x10 5 -6\n".toList⟩ format
      " 0x10 5 -6".toList := by
    refine ⟨hcurrent, _, "ubo 1:2 subdata int 0x10 5 -6".toList, "ubo".toList, .uniform, .std140,
      " 1:2 subdata int 0x10 5 -6".toList, ⟨1, 2⟩, " subdata int 0x10 5 -6".toList,
      " int 0x10 5 -6".toList, "int".toList, replaceTokens_nil .., ?_, ?_, ?_, ?_, ?_, ?_, ?_,
      hformat⟩
    all_goals decide +kernel
  exact ⟨state, next, format, hline, hnext, Loading.isOffsetAndData_iff_blank hline hnext⟩

/-- A write of data can be accepted although a word of it is both the offset and a value. -/
theorem Loading.not_isOffsetAndData :
    ¬ ∀ (settings : Settings) (state next : Loading) (line : NumberedLine) (format : Format)
        (rest : List Char),
      state.IsSubdataLine settings line format rest → state.step settings line = .ok next →
        ∃ index offset values,
          next.script.commands =
            state.script.commands ++ [⟨line.number, .setBufferData index offset values⟩] ∧
          IsOffsetAndData format rest offset values := by
  have hrules : ({} : Settings).rules = [] := rfl
  have hsteps : ∃ start, Loading.start {} = .ok start ∧
      ∃ state, start.step {} ⟨1, "[test]\n".toList⟩ = .ok state ∧ state.current = .test ∧
      ∃ next, state.step {} ⟨2, "ssbo 0 subdata int 4-5\n".toList⟩ = .ok next ∧
        next.script.commands = [⟨2, .setBufferData 1 4 [.ofInt .int32 (-5)]⟩] := by
    simp only [step_of_no_rules hrules]
    decide +kernel
  obtain ⟨start, -, state, -, hcurrent, next, hnext, -⟩ := hsteps
  obtain ⟨format, hformat⟩ := Option.isSome_iff_exists.1
    (by decide +kernel : (Format.ofGlslType? "int".toList .std430).isSome = true)
  have hline : state.IsSubdataLine {} ⟨2, "ssbo 0 subdata int 4-5\n".toList⟩ format
      " 4-5".toList := by
    refine ⟨hcurrent, _, "ssbo 0 subdata int 4-5".toList, "ssbo".toList, .storage, .std430,
      " 0 subdata int 4-5".toList, ⟨0, 0⟩, " subdata int 4-5".toList, " int 4-5".toList,
      "int".toList, replaceTokens_nil .., ?_, ?_, ?_, ?_, ?_, ?_, ?_, hformat⟩
    all_goals decide +kernel
  intro h
  obtain ⟨index, offset, values, -, word, more, hwords, hwhole, -⟩ := h _ _ _ _ _ _ hline hnext
  have hsplit : words " 4-5".toList = ["4-5".toList] := by decide +kernel
  obtain ⟨rfl, -⟩ := List.cons.inj (hwords.symm.trans hsplit)
  have hnone : wholeToken? (readUnsigned 32) "4-5".toList = none := by decide +kernel
  rw [hnone] at hwhole
  cases hwhole

end GpuScript
