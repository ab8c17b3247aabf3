import GpuScript.Proofs.LoadingRun
import GpuScript.Proofs.TrimmedWords

/-!
# Words of a framebuffer size

The size of the framebuffer is two literals, one right behind the other. They are two words exactly
if a blank follows the first literal. Otherwise they share a single word, in which a plus sign
starts the second one.
-/

namespace GpuScript

/-- Whether a text is two words, each of which is an unsigned literal as a whole. -/
def IsSizeWords (text : List Char) (width height : Nat) : Prop :=
  ∃ first second, words text = [first, second] ∧
    wholeToken? (readUnsigned 32) first = some width ∧
    wholeToken? (readUnsigned 32) second = some height

theorem IntegerLiteral.le_base_ofText (text : List Char) : 10 ≤ (ofText text).base := by
  change 10 ≤ (splitBase (splitSign (skipSpaces text)).2).1
  rcases splitBase_cases (splitSign (skipSpaces text)).2 with ⟨x, rest, -, -, hsplit⟩ | ⟨-, hsplit⟩
  · simp [hsplit]
  · simp [hsplit]

theorem isDigit_head_of_readUnsigned {width n : Nat} {text rest : List Char} {c : Char}
    (h : readUnsigned width text = .ok (n, c :: rest)) : isDigit 10 c = false := by
  obtain ⟨-, -, htail⟩ := readUnsigned_eq_ok_iff.1 h
  have hhead : isDigit (IntegerLiteral.ofText text).base c = false :=
    not_of_head?_dropWhile (congrArg List.head? htail)
  by_contra hdigit
  rw [Bool.not_eq_false] at hdigit
  have hbase := IntegerLiteral.le_base_ofText text
  simp [isDigit_of_decimal hbase hdigit] at hhead

theorem eq_plus_of_readUnsigned {width n m : Nat} {text rest back : List Char} {c : Char}
    (hfirst : readUnsigned width text = .ok (n, c :: rest)) (hc : isBlank c = false)
    (hsecond : readUnsigned width (c :: rest) = .ok (m, back)) : c = '+' := by
  obtain ⟨hmagnitude, hnegative, -⟩ := readUnsigned_eq_ok_iff.1 hsecond
  have hdigit := isDigit_head_of_readUnsigned hfirst
  have hdigits := digits_ne_nil_of_magnitudeWithin hmagnitude
  rw [IntegerLiteral.ofText, skipSpaces_of_not_blank hc] at hnegative hdigits
  by_contra hplus
  have hminus : c ≠ '-' := by
    rintro rfl
    cases hnegative
  -- without a sign the second literal starts with a digit
  have hsign : splitSign (c :: rest) = (false, c :: rest) := by
    simp [splitSign, hplus, hminus]
  rw [hsign] at hdigits
  rcases splitBase_cases (c :: rest) with ⟨x, more, -, heq, -⟩ | ⟨-, hsplit⟩
  · obtain ⟨rfl, -⟩ := List.cons.inj heq
    cases hdigit
  · simp [hsplit, hdigit] at hdigits

section Words

variable {width n m : Nat} {text tail back : List Char}

theorem nextWord?_of_not_blank {c : Char} (hc : isBlank c = false) (rest : List Char) :
    nextWord? (c :: rest) = some (leadingWord (c :: rest), afterLeadingWord (c :: rest)) := by
  simp [nextWord?, trimStart, hc]

theorem exists_words_of_endsWord (h : readUnsigned width text = .ok (n, tail))
    (htail : EndsWord tail) :
    ∃ word, words text = word :: words tail ∧ wholeToken? (readUnsigned width) word = some n := by
  obtain ⟨word, hwords, hword⟩ := exists_word_iff_endsWord h
  rw [afterLeadingWord_of_endsWord htail] at hwords
  exact ⟨word, hwords, hword.2 htail⟩

theorem isSizeWords_of_blank (hfirst : readUnsigned 32 text = .ok (n, tail)) (htail : EndsWord tail)
    (hsecond : readUnsigned 32 tail = .ok (m, back)) (hback : words back = []) :
    IsSizeWords text n m := by
  obtain ⟨first, hwords, hwidth⟩ := exists_words_of_endsWord hfirst htail
  obtain ⟨second, hmore, hheight⟩ :=
    exists_words_of_endsWord hsecond (endsWord_of_words_eq_nil hback)
  exact ⟨first, second, by rw [hwords, hmore, hback], hwidth, hheight⟩

theorem exists_word_of_not_blank {c : Char} {rest : List Char}
    (hfirst : readUnsigned 32 text = .ok (n, c :: rest)) (hc : isBlank c = false)
    (hsecond : readUnsigned 32 (c :: rest) = .ok (m, back)) (hback : words back = []) :
    ∃ word, words text = [word] := by
  obtain ⟨word, hwords, -⟩ := words_of_readUnsigned hfirst
  obtain ⟨second, hmore, -⟩ :=
    exists_words_of_endsWord hsecond (endsWord_of_words_eq_nil hback)
  rw [words_of_nextWord? (nextWord?_of_not_blank hc rest), hback] at hmore
  rw [(List.cons.inj hmore).2] at hwords
  exact ⟨word, hwords⟩

end Words

theorem exists_of_readFramebufferSize? {text : List Char} {width height : Nat}
    (h : readFramebufferSize? text = some (width, height)) :
    ∃ tail back, readUnsigned 32 text = .ok (width, tail) ∧
      readUnsigned 32 tail = .ok (height, back) ∧ words back = [] := by
  unfold readFramebufferSize? at h
  split at h
  · cases h
  · next hfirst =>
    split at h
    · cases h
    · next back hsecond =>
      split at h
      · next htrim =>
        cases h
        exact ⟨_, back, hfirst, hsecond, by rw [← words_trim, htrim, words_nil]⟩
      · cases h

theorem exists_of_readRequirement {content rest : List Char} {asked : RequireLine}
    (hrest : afterWord? "fbsize".toList content = some rest)
    (h : readRequirement content = .ok asked) :
    ∃ width height, readFramebufferSize? rest = some (width, height) ∧
      asked = .framebufferSize width height := by
  have hnext := (afterWord?_eq_some_iff (by decide)).1 hrest
  have hcolor : afterWord? "framebuffer".toList content = none := by
    rw [afterWord?_eq (by decide), hnext]
    rfl
  have hdepth : afterWord? "depthstencil".toList content = none := by
    rw [afterWord?_eq (by decide), hnext]
    rfl
  simp only [readRequirement, hcolor, hdepth, hrest] at h
  split at h
  · next width height hsize => exact ⟨width, height, hsize, (Except.ok.inj h).symm⟩
  · cases h

namespace Loading

/-- Whether a line of a require section gives the size of the framebuffer by a text behind the
keyword. -/
structure IsSizeLine (settings : Settings) (state : Loading) (line : NumberedLine)
    (rest : List Char) : Prop where
  current : state.current = .require
  form : ∃ text content, replaceTokens settings.rules replacementLimit line.text = some text ∧
    text.head? ≠ some '[' ∧ content? text = some content ∧
    afterWord? "fbsize".toList content = some rest

variable {settings : Settings} {state next : Loading} {line : NumberedLine} {rest : List Char}

theorem exists_of_isSizeLine (hline : state.IsSizeLine settings line rest)
    (hstep : state.step settings line = .ok next) :
    ∃ width height, readFramebufferSize? rest = some (width, height) ∧
      next = state.setBuffers (setFramebufferSize state.script.buffers width height) := by
  obtain ⟨hcurrent, text, content, htext, hbracket, hcontent, hrest⟩ := hline
  obtain ⟨other, hother, htake⟩ := step_eq_ok_iff.1 hstep
  obtain rfl := Option.some.inj (htext.symm.trans hother)
  rw [takeLine_of_ne_bracket hbracket, takeBodyLine, hcurrent] at htake
  obtain ⟨asked?, hread, htake⟩ := exists_of_bind_eq_ok htake
  rw [orInvalid_eq_ok_iff, readRequireLine, hcontent] at hread
  obtain ⟨asked, hasked, rfl⟩ := exists_of_map_eq_ok hread
  obtain ⟨width, height, hsize, rfl⟩ := exists_of_readRequirement hrest hasked
  exact ⟨width, height, hsize, (Except.ok.inj htake).symm⟩

end Loading

/-- An accepted size of the framebuffer is two literals, one right behind the other. They are two
words exactly if a blank follows the first literal. If none does, a plus sign does, and both
literals stand in the only word. -/
theorem Loading.isSizeWords_iff_blank {settings : Settings} {state next : Loading}
    {line : NumberedLine} {rest : List Char} (hline : state.IsSizeLine settings line rest)
    (hstep : state.step settings line = .ok next) :
    ∃ width height tail back,
      next = state.setBuffers (setFramebufferSize state.script.buffers width height) ∧
      readUnsigned 32 rest = .ok (width, tail) ∧ readUnsigned 32 tail = .ok (height, back) ∧
      words back = [] ∧
      (IsSizeWords rest width height ↔ ∃ c more, tail = c :: more ∧ isBlank c = true) ∧
      (¬ IsSizeWords rest width height →
        (∃ more, tail = '+' :: more) ∧ ∃ word, words rest = [word]) := by
  obtain ⟨width, height, hsize, hnext⟩ := exists_of_isSizeLine hline hstep
  obtain ⟨tail, back, hfirst, hsecond, hback⟩ := exists_of_readFramebufferSize? hsize
  refine ⟨width, height, tail, back, hnext, hfirst, hsecond, hback, ?_⟩
  cases tail with
  | nil => cases hsecond
  | cons c more =>
    cases hc : isBlank c with
    | true =>
      have hends : EndsWord (c :: more) := fun d hd => Option.some.inj hd ▸ hc
      have hwords := isSizeWords_of_blank hfirst hends hsecond hback
      exact ⟨iff_of_true hwords ⟨c, more, rfl, hc⟩, fun hnot => (hnot hwords).elim⟩
    | false =>
      obtain ⟨word, hword⟩ := exists_word_of_not_blank hfirst hc hsecond hback
      obtain rfl := eq_plus_of_readUnsigned hfirst hc hsecond
      refine ⟨iff_of_false ?_ ?_, fun _ => ⟨⟨more, rfl⟩, word, hword⟩⟩
      · rintro ⟨first, second, htwo, -⟩
        rw [hword] at htwo
        cases htwo
      · rintro ⟨d, other, heq, hd⟩
        obtain ⟨rfl, -⟩ := List.cons.inj heq
        cases hd

/-- A size of a width in base sixteen and a height with a plus sign, behind which a comment
stands. -/
theorem Loading.isSizeWords_iff_blank_of_signed :
    ∃ state next : Loading,
      state.IsSizeLine {} ⟨2, "fbsize \t0x40 +30 # size\n".toList⟩ " \t0x40 +30".toList ∧
      state.step {} ⟨2, "fbsize \t0x40 +30 # size\n".toList⟩ = .ok next ∧
      ∃ width height tail back,
        next = state.setBuffers (setFramebufferSize state.script.buffers width height) ∧
        readUnsigned 32 " \t0x40 +30".toList = .ok (width, tail) ∧
        readUnsigned 32 tail = .ok (height, back) ∧ words back = [] ∧
        (IsSizeWords " \t0x40 +30".toList width height ↔
          ∃ c more, tail = c :: more ∧ isBlank c = true) ∧
        (¬ IsSizeWords " \t0x40 +30".toList width height →
          (∃ more, tail = '+' :: more) ∧ ∃ word, words " \t0x40 +30".toList = [word]) := by
  have hrules : ({} : Settings).rules = [] := rfl
  have hsteps : ∃ start, Loading.start {} = .ok start ∧
      ∃ state, start.step {} ⟨1, "[require]\n".toList⟩ = .ok state ∧ state.current = .require ∧
      ∃ next, state.step {} ⟨2, "fbsize \t0x40 +30 # size\n".toList⟩ = .ok next ∧
        next.current = .require := by
    simp only [step_of_no_rules hrules]
    decide +kernel
  obtain ⟨start, -, state, -, hcurrent, next, hnext, -⟩ := hsteps
  have hline : state.IsSizeLine {} ⟨2, "fbsize \t0x40 +30 # size\n".toList⟩
      " \t0x40 +30".toList := by
    refine ⟨hcurrent, _, "fbsize \t0x40 +30".toList, replaceTokens_nil .., ?_, ?_, ?_⟩
    all_goals decide +kernel
  exact ⟨state, next, hline, hnext, Loading.isSizeWords_iff_blank hline hnext⟩

/-- A size of the framebuffer can be accepted although both of its numbers stand in one word. -/
theorem Loading.not_isSizeWords :
    ¬ ∀ (settings : Settings) (state next : Loading) (line : NumberedLine) (rest : List Char),
      state.IsSizeLine settings line rest → state.step settings line = .ok next →
        ∃ width height,
          next = state.setBuffers (setFramebufferSize state.script.buffers width height) ∧
          IsSizeWords rest width height := by
  have hrules : ({} : Settings).rules = [] := rfl
  have hsteps : ∃ start, Loading.start {} = .ok start ∧
      ∃ state, start.step {} ⟨1, "[require]\n".toList⟩ = .ok state ∧ state.current = .require ∧
      ∃ next, state.step {} ⟨2, "fbsize 100+200\n".toList⟩ = .ok next ∧
        next.current = .require := by
    simp only [step_of_no_rules hrules]
    decide +kernel
  obtain ⟨start, -, state, -, hcurrent, next, hnext, -⟩ := hsteps
  have hline : state.IsSizeLine {} ⟨2, "fbsize 100+200\n".toList⟩ " 100+200".toList := by
    refine ⟨hcurrent, _, "fbsize 100+200".toList, replaceTokens_nil .., ?_, ?_, ?_⟩
    all_goals decide +kernel
  intro h
  obtain ⟨width, height, -, first, second, hwords, -⟩ := h _ _ _ _ _ hline hnext
  have hone : words " 100+200".toList = ["100+200".toList] := by decide +kernel
  rw [hone] at hwords
  cases hwords

end GpuScript
