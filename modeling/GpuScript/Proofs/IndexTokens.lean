import GpuScript.Proofs.IndexSections
import GpuScript.Proofs.ReportedLines

/-!
# Index tokens

A line of an index section is refused for the first of its words that is no index, with a message
that quotes the word. The message fits what the word is as a whole, except that a word that only
starts with a number too large is reported as one.
-/

namespace GpuScript

/-- The text of the error that a step ends with, unless it leads on. -/
def refusal? {α : Type} : Except (Failure LoadError) α → Option String
  | .error (.error error) => some error.message
  | _ => none

theorem toList_quoting (text : String) (piece : List Char) :
    (quoting text piece).toList = text.toList ++ piece := by
  rw [quoting, String.toList_append, String.toList_ofList]

theorem invalidIndex_message_ne (word token : List Char) :
    (LineError.invalidIndex word).message ≠ (LineError.indexTooLarge token).message := by
  intro h
  have hinvalid : "Invalid value in indices block: ".toList.head? = some 'I' := by
    decide +kernel
  have hlarge : "Value too large in indices block: ".toList.head? = some 'V' := by
    decide +kernel
  have hheads : (quoting "Invalid value in indices block: " word).toList.head? =
      (quoting "Value too large in indices block: " token).toList.head? :=
    congrArg (fun text => text.toList.head?) h
  rw [toList_quoting, toList_quoting, List.head?_append, List.head?_append, hinvalid, hlarge,
    Option.some_or, Option.some_or] at hheads
  exact absurd hheads (by decide)

theorem eq_of_index_message {number : Nat} {error other : LineError} {word token : List Char}
    (herror : error = .invalidIndex word ∨ error = .indexTooLarge word)
    (hother : other = .invalidIndex token ∨ other = .indexTooLarge token)
    (h : LoadError.message ⟨number, .invalid error⟩ = LoadError.message ⟨number, .invalid other⟩) :
    error = other := by
  have hmessages : error.message = other.message := by
    have hlists := congrArg String.toList h
    simp only [LoadError.message, String.toList_append, LoadCause.message] at hlists
    exact String.toList_inj.1 (List.append_cancel_left hlists)
  have hquoted : ∀ text, quoting text word = quoting text token → word = token := by
    intro text hsame
    have hlists := congrArg String.toList hsame
    rw [toList_quoting, toList_quoting] at hlists
    exact List.append_cancel_left hlists
  rcases herror with rfl | rfl <;> rcases hother with rfl | rfl
  · rw [hquoted _ hmessages]
  · exact (invalidIndex_message_ne word token hmessages).elim
  · exact (invalidIndex_message_ne token word hmessages.symm).elim
  · rw [hquoted _ hmessages]

namespace Loading

/-- Whether a line is no header, belongs to an index section, and has some words. -/
structure IsIndexRow (settings : Settings) (state : Loading) (line : NumberedLine)
    (tokens : List (List Char)) : Prop where
  current : state.current = .indices
  form : ∃ text, replaceTokens settings.rules replacementLimit line.text = some text ∧
    text.head? ≠ some '[' ∧ words (text.takeWhile (· ≠ '#')) = tokens

variable {settings : Settings} {state next : Loading} {line : NumberedLine}
  {tokens front back : List (List Char)} {token : List Char} {held before indices : List UInt16}

namespace IsIndexRow

theorem isWord (h : state.IsIndexRow settings line tokens) (hmem : token ∈ tokens) :
    IsWord token := by
  obtain ⟨text, -, -, rfl⟩ := h.form
  exact isWord_of_mem_words hmem

theorem step_of_error (h : state.IsIndexRow settings line tokens) {error : LineError}
    (herror : readIndices tokens = .error error) :
    state.step settings line = refuse ⟨line.number - 1, .invalid error⟩ := by
  obtain ⟨text, htext, hbracket, rfl⟩ := h.form
  have hdata : state.current.isDataBlock = true := by
    rw [h.current]
    rfl
  rw [step, htext]
  dsimp only
  rw [takeLine_of_ne_bracket hbracket, takeBodyLine, h.current, takeIndexLine_of_error herror,
    reportedLine_of_isInData hbracket hdata]
  rfl

theorem exists_step (h : state.IsIndexRow settings line tokens)
    (hheld : HoldsIndices state.script.buffers held) (hindices : AreIndices tokens indices) :
    ∃ next, state.step settings line = .ok next ∧
      HoldsIndices next.script.buffers (held ++ indices) := by
  obtain ⟨text, htext, hbracket, rfl⟩ := h.form
  obtain ⟨next, hnext, hholds⟩ := exists_takeIndexLine_of_areIndices hheld hindices
  refine ⟨next, step_eq_ok_iff.2 ⟨text, htext, ?_⟩, hholds⟩
  rw [takeLine_of_ne_bracket hbracket, takeBodyLine, h.current]
  exact hnext

theorem holdsIndices_of_step (h : state.IsIndexRow settings line tokens)
    (hheld : HoldsIndices state.script.buffers held) (hindices : AreIndices tokens indices)
    (hstep : state.step settings line = .ok next) :
    HoldsIndices next.script.buffers (held ++ indices) := by
  obtain ⟨taken, htaken, hholds⟩ := h.exists_step hheld hindices
  obtain rfl := Except.ok.inj (htaken.symm.trans hstep)
  exact hholds

/-- A row whose words stand for indices up to one is refused with a message about that one exactly
if the one is no index, for the reason in the message. -/
theorem refusal?_eq_iff (h : state.IsIndexRow settings line (front ++ token :: back))
    (hheld : HoldsIndices state.script.buffers held) (hfront : AreIndices front before)
    {error : LineError} (herror : error = .invalidIndex token ∨ error = .indexTooLarge token) :
    refusal? (state.step settings line) =
        some (LoadError.message ⟨line.number - 1, .invalid error⟩) ↔
      readIndex token = .error error := by
  constructor
  · intro hrefusal
    cases hread : readIndices (front ++ token :: back) with
    | ok values =>
      obtain ⟨indices, hindices⟩ := exists_areIndices (fun _ hmem => h.isWord hmem) hread
      obtain ⟨next, hnext, -⟩ := h.exists_step hheld hindices
      rw [hnext] at hrefusal
      cases hrefusal
    | error found =>
      rw [h.step_of_error hread] at hrefusal
      obtain ⟨ahead, word, behind, htokens, -, hword⟩ := readIndices_eq_error_iff.1 hread
      have hmem : word ∈ front ++ token :: back := by simp [htokens]
      obtain rfl := eq_of_index_message (readIndex_eq_error (h.isWord hmem) hword) herror
        (Option.some.inj hrefusal)
      -- The error is about the word that it is found at, so this word is the given one.
      have hsame : word = token := by
        rcases readIndex_eq_error (h.isWord hmem) hword with hfound | hfound <;>
          rw [hfound] at herror <;> simpa using herror
      rw [← hsame]
      exact hword
  · intro hread
    rw [h.step_of_error
      (readIndices_eq_error_iff.2 ⟨front, token, back, rfl, hfront.exists_readIndex, hread⟩)]
    rfl

theorem exists_areIndices_of_step (h : state.IsIndexRow settings line tokens)
    (hstep : state.step settings line = .ok next) :
    ∃ indices, AreIndices tokens indices := by
  cases hread : readIndices tokens with
  | ok values => exact exists_areIndices (fun _ hmem => h.isWord hmem) hread
  | error error =>
    rw [h.step_of_error hread] at hstep
    cases hstep

end IsIndexRow

theorem exists_holdsIndices_of_step {lines : List TestLine} (hstate : state.InStep lines)
    (hheld : HoldsIndices state.script.buffers held) (h : state.step settings line = .ok next) :
    ∃ more, HoldsIndices next.script.buffers (held ++ more) := by
  obtain ⟨text, htext, htake⟩ := step_eq_ok_iff.1 h
  by_cases hrow : state.current = .indices ∧ text.head? ≠ some '['
  · have hline : state.IsIndexRow settings line _ := ⟨hrow.1, text, htext, hrow.2, rfl⟩
    obtain ⟨indices, hindices⟩ := hline.exists_areIndices_of_step h
    exact ⟨indices, hline.holdsIndices_of_step hheld hindices h⟩
  · have hsame : indexBuffers next.script.buffers = indexBuffers state.script.buffers := by
      by_cases hhead : text.head? = some '['
      · obtain ⟨rest, rfl⟩ := List.head?_eq_some_iff.1 hhead
        obtain ⟨header, -, henter⟩ := exists_of_bind_eq_ok htake
        rw [(keepsScript_of_header (orInvalid_eq_ok_iff.1 henter)).buffers]
      · rw [takeLine_of_ne_bracket hhead] at htake
        exact indexBuffers_of_takeBodyLine hstate (fun hindices => hrow ⟨hindices, hhead⟩) htake
    refine ⟨[], ?_⟩
    rw [List.append_nil]
    exact hheld.congr hsame

theorem exists_holdsIndices_of_run {lines : List TestLine} (hstate : state.InStep lines)
    (hheld : HoldsIndices state.script.buffers held) {more : List NumberedLine}
    (h : state.run settings more = .ok next) :
    ∃ indices, HoldsIndices next.script.buffers indices := by
  induction more generalizing state lines held with
  | nil =>
    cases h
    exact ⟨held, hheld⟩
  | cons line rest ih =>
    obtain ⟨mid, hmid, hrest⟩ := exists_of_bind_eq_ok h
    obtain ⟨added, hadded⟩ := exists_holdsIndices_of_step hstate hheld hmid
    exact ih ((ensures_step settings hstate line).property_of_eq_ok hmid) hadded hrest

theorem exists_holdsIndices_of_after {read : List Char} (h : after settings read = .ok state) :
    ∃ held, HoldsIndices state.script.buffers held := by
  obtain ⟨start, hstart, hin⟩ := exists_start settings
  rw [after_eq_run hstart] at h
  have hnone : HoldsIndices start.script.buffers [] :=
    ⟨fun _ => indexBuffers_of_start hstart, fun hne => (hne rfl).elim⟩
  exact exists_holdsIndices_of_run hin hnone h

/-- Whether a word of a row, the words before which stand for indices, is judged by the number that
it is as a whole. As one of sixteen bits it is the next index, as one that is larger it is refused
as too large, and as none it is refused as invalid. -/
structure JudgesToken (settings : Settings) (state : Loading) (line : NumberedLine)
    (held before : List UInt16) (token : List Char) (back : List (List Char)) : Prop where
  accepted : (∃ next, state.step settings line = .ok next) ↔
    (∃ index : UInt16, decimal? token = some index.toNat) ∧ ∃ after, AreIndices back after
  appended : ∀ (next : Loading) (index : UInt16) (after : List UInt16),
    state.step settings line = .ok next → decimal? token = some index.toNat →
    AreIndices back after → HoldsIndices next.script.buffers (held ++ (before ++ index :: after))
  tooLarge : refusal? (state.step settings line) = some (toString (line.number - 1) ++ ": " ++
      quoting "Value too large in indices block: " token) ↔
    ∃ n, decimal? token = some n ∧ 65535 < n
  invalid : refusal? (state.step settings line) = some (toString (line.number - 1) ++ ": " ++
      quoting "Invalid value in indices block: " token) ↔
    decimal? token = none

theorem IsIndexRow.refusal?_eq_invalid_iff
    (h : state.IsIndexRow settings line (front ++ token :: back))
    (hheld : HoldsIndices state.script.buffers held) (hfront : AreIndices front before) :
    refusal? (state.step settings line) = some (toString (line.number - 1) ++ ": " ++
        quoting "Invalid value in indices block: " token) ↔
      decimal? token = none ∧ ¬ StartsTooLarge token :=
  (h.refusal?_eq_iff hheld hfront (.inl rfl)).trans
    (readIndex_eq_invalid_iff (h.isWord (by simp)))

theorem IsIndexRow.refusal?_eq_tooLarge_iff
    (h : state.IsIndexRow settings line (front ++ token :: back))
    (hheld : HoldsIndices state.script.buffers held) (hfront : AreIndices front before) :
    refusal? (state.step settings line) = some (toString (line.number - 1) ++ ": " ++
        quoting "Value too large in indices block: " token) ↔
      (∃ n, decimal? token = some n ∧ 65535 < n) ∨ StartsTooLarge token :=
  (h.refusal?_eq_iff hheld hfront (.inr rfl)).trans
    (readIndex_eq_tooLarge_iff (h.isWord (by simp)))

end Loading

/-- A word of a row is judged by the number that it is as a whole, unless it is none and starts with
one too large. Such a word is refused as too large. -/
theorem Loading.judgesToken_iff {settings : Settings} {read : List Char} {state : Loading}
    (hstate : after settings read = .ok state) {line : NumberedLine}
    {front back : List (List Char)} {token : List Char} {before : List UInt16}
    (hrow : state.IsIndexRow settings line (front ++ token :: back))
    (hfront : AreIndices front before) :
    ∃ held, HoldsIndices state.script.buffers held ∧
      (JudgesToken settings state line held before token back ↔ ¬ StartsTooLarge token) ∧
      (StartsTooLarge token → refusal? (state.step settings line) =
        some (toString (line.number - 1) ++ ": " ++
          quoting "Value too large in indices block: " token)) := by
  obtain ⟨held, hheld⟩ := exists_holdsIndices_of_after hstate
  have hinvalid := hrow.refusal?_eq_invalid_iff hheld hfront
  have htooLarge := hrow.refusal?_eq_tooLarge_iff hheld hfront
  refine ⟨held, hheld, ⟨?_, ?_⟩, fun hstarts => htooLarge.2 (.inr hstarts)⟩
  · intro hjudges hstarts
    exact (hinvalid.1 (hjudges.invalid.2 hstarts.1)).2 hstarts
  · intro hstarts
    refine ⟨?_, ?_, htooLarge.trans (or_iff_left hstarts), hinvalid.trans (and_iff_left hstarts)⟩
    · constructor
      · rintro ⟨next, hnext⟩
        obtain ⟨indices, hindices⟩ := hrow.exists_areIndices_of_step hnext
        exact hindices.exists_of_append_cons
      · rintro ⟨⟨index, htoken⟩, after, hback⟩
        obtain ⟨next, hnext, -⟩ := hrow.exists_step hheld (hfront.append_cons htoken hback)
        exact ⟨next, hnext⟩
    · intro next index after hnext htoken hback
      exact hrow.holdsIndices_of_step hheld (hfront.append_cons htoken hback) hnext

/-- The greatest index with a sign and leading zeros, between others and behind those of another
section. -/
theorem Loading.judgesToken_iff_of_row :
    ∃ state next held, after {} "[indices]\n7\n[test]\n[indices]\n".toList = .ok state ∧
      state.IsIndexRow {} ⟨5, "1 +0065535 3# x\n".toList⟩
        (["1".toList] ++ "+0065535".toList :: ["3".toList]) ∧
      AreIndices ["1".toList] [1] ∧ HoldsIndices state.script.buffers held ∧
      JudgesToken {} state ⟨5, "1 +0065535 3# x\n".toList⟩ held [1] "+0065535".toList
        ["3".toList] ∧
      state.step {} ⟨5, "1 +0065535 3# x\n".toList⟩ = .ok next ∧
      HoldsIndices next.script.buffers (held ++ [1, 65535, 3]) := by
  have hrules : ({} : Settings).rules = [] := rfl
  have hread : ∃ state, after {} "[indices]\n7\n[test]\n[indices]\n".toList = .ok state ∧
      state.current = .indices := by
    simp only [after, run_of_no_rules hrules]
    decide +kernel
  obtain ⟨state, hstate, hcurrent⟩ := hread
  have hrow : state.IsIndexRow {} ⟨5, "1 +0065535 3# x\n".toList⟩
      (["1".toList] ++ "+0065535".toList :: ["3".toList]) := by
    refine ⟨hcurrent, _, replaceTokens_nil .., ?_, ?_⟩
    all_goals decide +kernel
  have hnumbers : AreIndices ["1".toList] [1] ∧ AreIndices ["3".toList] [3] ∧
      decimal? "+0065535".toList = some (65535 : UInt16).toNat := by
    rw [AreIndices, AreIndices]
    decide +kernel
  obtain ⟨hfront, hback, htoken⟩ := hnumbers
  have hwhole : ¬ StartsTooLarge "+0065535".toList := by
    rw [startsTooLarge_iff]
    decide +kernel
  obtain ⟨held, hheld, hiff, -⟩ := judgesToken_iff hstate hrow hfront
  have hjudges := hiff.2 hwhole
  obtain ⟨next, hnext⟩ := hjudges.accepted.2 ⟨⟨_, htoken⟩, _, hback⟩
  exact ⟨state, next, held, hstate, hrow, hfront, hheld, hjudges, hnext,
    hjudges.appended next _ _ hnext htoken hback⟩

/-- A word that is no number can be refused as a number too large. -/
theorem Loading.not_judgesToken :
    ¬ ∀ (settings : Settings) (read : List Char) (state : Loading) (line : NumberedLine)
        (front back : List (List Char)) (token : List Char) (held before : List UInt16),
      after settings read = .ok state →
        state.IsIndexRow settings line (front ++ token :: back) → AreIndices front before →
        HoldsIndices state.script.buffers held →
          JudgesToken settings state line held before token back := by
  have hrules : ({} : Settings).rules = [] := rfl
  have hread : ∃ state, after {} "[indices]\n".toList = .ok state ∧ state.current = .indices := by
    simp only [after, run_of_no_rules hrules]
    decide +kernel
  obtain ⟨state, hstate, hcurrent⟩ := hread
  have hrow : state.IsIndexRow {} ⟨2, "99999x\n".toList⟩ ([] ++ "99999x".toList :: []) := by
    refine ⟨hcurrent, _, replaceTokens_nil .., ?_, ?_⟩
    all_goals decide +kernel
  obtain ⟨held, hheld⟩ := exists_holdsIndices_of_after hstate
  have hstarts : StartsTooLarge "99999x".toList := by
    rw [startsTooLarge_iff]
    decide +kernel
  intro h
  have hjudges := h _ _ _ _ _ _ _ _ _ hstate hrow .nil hheld
  exact ((hrow.refusal?_eq_invalid_iff hheld .nil).1 (hjudges.invalid.2 hstarts.1)).2 hstarts

end GpuScript
