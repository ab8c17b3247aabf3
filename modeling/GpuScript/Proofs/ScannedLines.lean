import GpuScript.Proofs.JoinedLines
import GpuScript.Proofs.LoadingRun

/-!
# Scanned lines

A script is read in logical lines, the tokens of which are replaced before anything else is made of
them. Without replacements the lines are the stretches of the text without their joins, and each is
numbered by the line feeds of the text before it. What a script is loaded to depends on the scanned
lines alone.
-/

namespace GpuScript

/-- A logical line with its tokens replaced, unless that takes too many replacements. -/
def NumberedLine.scan? (settings : Settings) (line : NumberedLine) : Option NumberedLine :=
  (replaceTokens settings.rules replacementLimit line.text).map fun text => ⟨line.number, text⟩

/-- The lines that a text is read in up to its end, unless one takes too many replacements. -/
def scannedLines (settings : Settings) (source : List Char) : Option (List NumberedLine) :=
  (logicalLines source).mapM (NumberedLine.scan? settings)

variable {settings : Settings}

theorem NumberedLine.scan?_of_no_rules (h : settings.rules = []) (line : NumberedLine) :
    line.scan? settings = some line := by
  rw [scan?, h, replaceTokens_nil]
  rfl

theorem mapM_scan?_of_no_rules (h : settings.rules = []) (lines : List NumberedLine) :
    lines.mapM (NumberedLine.scan? settings) = some lines := by
  induction lines with
  | nil => rfl
  | cons line rest ih =>
    rw [List.mapM_cons, line.scan?_of_no_rules h, ih]
    rfl

namespace Loading

variable {state next final : Loading}

theorem exists_scan?_of_step {line : NumberedLine} (h : state.step settings line = .ok next) :
    ∃ scanned, line.scan? settings = some scanned ∧ state.takeNumbered scanned = .ok next := by
  obtain ⟨text, htext, htake⟩ := step_eq_ok_iff.1 h
  refine ⟨⟨line.number, text⟩, by rw [NumberedLine.scan?, htext, Option.map_some], ?_⟩
  rw [takeNumbered, htake]
  rfl

theorem exists_scanned_of_run {lines : List NumberedLine}
    (h : state.run settings lines = .ok final) :
    ∃ scanned, lines.mapM (NumberedLine.scan? settings) = some scanned ∧
      scanned.foldlM takeNumbered state = .ok final := by
  induction lines generalizing state with
  | nil => exact ⟨[], rfl, h⟩
  | cons line rest ih =>
    obtain ⟨next, hnext, hrest⟩ := exists_of_bind_eq_ok h
    obtain ⟨first, hfirst, htake⟩ := exists_scan?_of_step hnext
    obtain ⟨more, hmore, hfold⟩ := ih hrest
    refine ⟨first :: more, ?_, ?_⟩
    · rw [List.mapM_cons, hfirst, hmore]
      rfl
    · rw [List.foldlM_cons, htake]
      exact hfold

theorem run_of_scanned {lines scanned : List NumberedLine}
    (h : lines.mapM (NumberedLine.scan? settings) = some scanned) :
    state.run settings lines = scanned.foldlM takeNumbered state := by
  induction lines generalizing state scanned with
  | nil =>
    cases h
    rfl
  | cons line rest ih =>
    rw [List.mapM_cons] at h
    obtain ⟨first, hfirst, h⟩ := Option.bind_eq_some_iff.1 h
    obtain ⟨more, hmore, h⟩ := Option.bind_eq_some_iff.1 h
    cases h
    obtain ⟨text, htext, rfl⟩ := Option.map_eq_some_iff.1 hfirst
    have hstep : state.step settings line = state.takeNumbered ⟨line.number, text⟩ := by
      rw [step, htext]
      rfl
    rw [run, List.foldlM_cons, hstep]
    exact bind_congr fun next => ih hmore

end Loading

theorem Script.load_of_scannedLines {source : List Char} {start final : Loading}
    {lines : List NumberedLine} (hstart : Loading.start settings = .ok start)
    (hlines : scannedLines settings source = some lines)
    (hfinal : lines.foldlM Loading.takeNumbered start = .ok final) :
    load settings source = .ok final.endSection.script := by
  have hrun : start.run settings (logicalLines source) = .ok final :=
    (Loading.run_of_scanned hlines).trans hfinal
  rw [load, hstart]
  exact congrArg (· >>= fun final => pure final.endSection.script) hrun

theorem Script.exists_scannedLines_of_load {source : List Char} {script : Script}
    (h : load settings source = .ok script) :
    ∃ start lines final, Loading.start settings = .ok start ∧
      scannedLines settings source = some lines ∧
      lines.foldlM Loading.takeNumbered start = .ok final ∧ final.endSection.script = script := by
  obtain ⟨start, hstart, h⟩ := exists_of_bind_eq_ok h
  obtain ⟨final, hfinal, h⟩ := exists_of_bind_eq_ok h
  obtain ⟨lines, hlines, hfold⟩ := Loading.exists_scanned_of_run hfinal
  exact ⟨start, lines, final, orFault_eq_ok_iff.1 hstart, hlines, hfold, Except.ok.inj h⟩

/-- Without replacements a text is read in its stretches without their joins. All that is left out
is the joins, no line goes on behind a line feed, and each line has one more than the number of line
feeds before its stretch. A line starts where its stretch does, also where that is with a join. -/
theorem exists_stretches_of_scannedLines (h : settings.rules = []) (source : List Char) :
    ∃ lines stretches, scannedLines settings source = some lines ∧
      LineStretches source stretches ∧
      (lines.map NumberedLine.text).flatten = withoutJoins source ∧
      (∀ line ∈ lines, '\n' ∉ line.text.dropLast) ∧
      ∀ i : Nat, lines[i]? = stretches[i]?.map fun stretch =>
        ⟨(stretches.take i).flatten.count '\n' + 1, withoutJoins stretch⟩ := by
  have hphysical := arePhysical_physicalLines source
  obtain ⟨stretches, hstretches, hjoined⟩ := exists_lineStretches hphysical 1
  rw [flatten_physicalLines] at hstretches
  refine ⟨logicalLines source, stretches, mapM_scan?_of_no_rules h _, hstretches, ?_, ?_, ?_⟩
  · rw [logicalLines, flatten_map_text_joinLines hphysical, flatten_physicalLines]
  · exact fun line => not_mem_dropLast_of_mem_joinLines hphysical
  · intro i
    rw [logicalLines, hjoined, getElem?_numberStretches]
    simp only [Nat.add_comm 1]

/-- A text with a doubled backslash, stacked and empty joins with and without a carriage return, and
a join at the very end. -/
theorem exists_stretches_of_stacked_joins :
    ∃ lines stretches,
      scannedLines {} "a\\\\\n\n\\\r\n\\\nb\nc\\\n".toList = some lines ∧
      lines = [⟨1, "a\\\n".toList⟩, ⟨3, "b\n".toList⟩, ⟨6, "c".toList⟩] ∧
      LineStretches "a\\\\\n\n\\\r\n\\\nb\nc\\\n".toList stretches ∧
      (lines.map NumberedLine.text).flatten = withoutJoins "a\\\\\n\n\\\r\n\\\nb\nc\\\n".toList ∧
      (∀ line ∈ lines, '\n' ∉ line.text.dropLast) ∧
      ∀ i : Nat, lines[i]? = stretches[i]?.map fun stretch =>
        ⟨(stretches.take i).flatten.count '\n' + 1, withoutJoins stretch⟩ := by
  have hrules : ({} : Settings).rules = [] := rfl
  have hlines : logicalLines "a\\\\\n\n\\\r\n\\\nb\nc\\\n".toList =
      [⟨1, "a\\\n".toList⟩, ⟨3, "b\n".toList⟩, ⟨6, "c".toList⟩] := by
    decide +kernel
  obtain ⟨lines, stretches, hscanned, hlaw⟩ :=
    exists_stretches_of_scannedLines hrules "a\\\\\n\n\\\r\n\\\nb\nc\\\n".toList
  have hsame := (mapM_scan?_of_no_rules hrules _).symm.trans hscanned
  exact ⟨lines, stretches, hscanned, (Option.some.inj hsame).symm.trans hlines, hlaw⟩

end GpuScript
