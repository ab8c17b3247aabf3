import GpuScript.Proofs.LineAdditions

/-!
# Reported lines

An error is reported for the physical line that its logical line starts on, and one line earlier if
what is wrong is inside a block of data. A block of data has its header before it, so the line that
is reported is always one of the text. The commands of a script have the numbers of their lines.
-/

namespace GpuScript

namespace Loading

/-- Whether an error on a line is one of a block of data: the line is invalid, it is not a header,
and it belongs to a section with requirements, vertex data or indices. -/
def IsInData (settings : Settings) (state : Loading) (line : NumberedLine) (cause : LoadCause) :
    Prop :=
  cause.IsInvalid ∧
    (state.current = .require ∨ state.current = .vertexData ∨ state.current = .indices) ∧
    ∃ text, replaceTokens settings.rules replacementLimit line.text = some text ∧
      text.head? ≠ some '['

variable {settings : Settings} {state : Loading} {lines : List TestLine} {line : NumberedLine}

theorem isDataBlock_iff {entered : Section} : entered.isDataBlock = true ↔
    entered = .require ∨ entered = .vertexData ∨ entered = .indices := by
  cases entered <;> simp [Section.isDataBlock]

theorem isInData_iff {text : List Char} {error : LineError}
    (htext : replaceTokens settings.rules replacementLimit line.text = some text) :
    IsInData settings state line (.invalid error) ↔
      text.head? ≠ some '[' ∧ state.current.isDataBlock = true := by
  rw [IsInData, isDataBlock_iff, and_iff_right ⟨error, rfl⟩, and_comm]
  simp [htext]

theorem reportedLine_of_isInData {number : Nat} {text : List Char} (hbracket : text.head? ≠ some '[')
    (hdata : state.current.isDataBlock = true) : state.reportedLine number text = number - 1 := by
  rw [reportedLine, if_neg hbracket, if_pos hdata]

theorem reportedLine_of_not_isInData {number : Nat} {text : List Char}
    (h : ¬ (text.head? ≠ some '[' ∧ state.current.isDataBlock = true)) :
    state.reportedLine number text = number := by
  unfold reportedLine
  split
  · rfl
  · next hbracket => exact if_neg fun hdata => h ⟨hbracket, hdata⟩

theorem line_of_step (h : state.InStep lines) {failure : Failure LoadError}
    (hstep : state.step settings line = .error failure) :
    ∃ error : LoadError, failure = .error error ∧
      (IsInData settings state line error.cause → error.line = line.number - 1) ∧
      (¬ IsInData settings state line error.cause → error.line = line.number) := by
  unfold step at hstep
  split at hstep
  · next hloop =>
    cases hstep
    refine ⟨⟨line.number, .replacementLoop⟩, rfl, ?_, fun _ => rfl⟩
    rintro ⟨⟨error, hcause⟩, -⟩
    cases hcause
  · next text htext =>
    rcases (ensures_takeLine h line.number text).cases with ⟨new, hnew, -⟩ | ⟨cause, hcause, hinvalid⟩
    · rw [hnew] at hstep
      cases hstep
    · rw [hcause] at hstep
      cases hstep
      obtain ⟨error, rfl⟩ := hinvalid
      refine ⟨⟨state.reportedLine line.number text, .invalid error⟩, rfl, ?_, ?_⟩
      · rw [isInData_iff htext]
        rintro ⟨hbracket, hdata⟩
        exact reportedLine_of_isInData hbracket hdata
      · rw [isInData_iff htext]
        exact reportedLine_of_not_isInData

theorem current_of_after_nil (h : after settings [] = .ok state) : state.current = .outside := by
  obtain ⟨start, hstart, h⟩ := exists_of_bind_eq_ok h
  cases h
  rw [orFault_eq_ok_iff] at hstart
  obtain ⟨format, -, rfl⟩ := exists_of_map_eq_ok hstart
  rfl

/-- A line in a section is not the first one of its text. -/
theorem one_lt_number_of_current {source read : List Char} (hline : StartsBehind source read line)
    (hstate : after settings read = .ok state) (hcurrent : state.current ≠ .outside) :
    1 < line.number := by
  rw [hline.number]
  have hread : logicalLines read ≠ [] := by
    intro hnone
    rw [logicalLines, joinLines_eq_nil_iff, physicalLines_eq_nil_iff] at hnone
    rw [hnone] at hstate
    exact hcurrent (current_of_after_nil hstate)
  obtain ⟨first, others, hfirst⟩ := List.exists_cons_of_ne_nil hread
  obtain ⟨rest, hrest⟩ := hline.lines
  have hpairwise := pairwise_number_joinLines 1 (physicalLines source)
  rw [← logicalLines, ← hrest, hfirst] at hpairwise
  have hmem : first ∈ joinLines 1 (physicalLines read) := by
    rw [← logicalLines, hfirst]
    exact List.mem_cons_self ..
  have hle := le_number_of_mem_joinLines hmem
  have hlt : first.number < line.number := by
    simp only [List.cons_append, List.map_cons, List.pairwise_cons] at hpairwise
    exact hpairwise.1 _ (by simp)
  rw [← hline.number]
  exact Nat.lt_of_le_of_lt hle hlt

/-- A text that cannot be taken in stops at one of its lines. -/
theorem exists_line_of_after {source : List Char} {failure : Failure LoadError}
    (h : after settings source = .error failure) :
    ∃ read line state, StartsBehind source read line ∧ after settings read = .ok state ∧
      state.step settings line = .error failure ∧
      line.number ≤ (physicalLines source).length := by
  obtain ⟨start, hstart, -⟩ := exists_start settings
  rw [after_eq_run hstart] at h
  obtain ⟨before, line, rest, state, hlines, hbefore, hstep⟩ := exists_line_of_error h
  obtain ⟨read, hline, rfl, hinside⟩ := exists_startsBehind hlines
  exact ⟨read, line, state, hline, by rw [after_eq_run hstart, hbefore], hstep, hinside⟩

theorem commands_of_start {start : Loading} (h : Loading.start settings = .ok start) :
    start.script.commands = [] := by
  obtain ⟨format, -, rfl⟩ := exists_of_map_eq_ok h
  rfl

theorem commands_of_after {source : List Char} (h : after settings source = .ok state) :
    (state.script.commands.map Command.line).Pairwise (· < ·) ∧
      ∀ (k : Nat) (command : Command), state.script.commands[k]? = some command →
        ∃ read line mid next, StartsBehind source read line ∧ after settings read = .ok mid ∧
          mid.step settings line = .ok next ∧ command.line = line.number ∧
          mid.script.commands = state.script.commands.take k ∧
          next.script.commands = state.script.commands.take (k + 1) := by
  obtain ⟨start, hstart, -⟩ := exists_start settings
  have hempty := commands_of_start hstart
  rw [after_eq_run hstart] at h
  constructor
  · obtain ⟨added, hadded, hsublist⟩ := commands_of_run h
    rw [hadded, hempty, List.nil_append]
    exact (pairwise_number_joinLines 1 (physicalLines source)).sublist hsublist
  · intro k command hcommand
    obtain ⟨before, line, rest, mid, next, hlines, hbefore, hstep, hmid, hnext, hnumber⟩ :=
      exists_line_of_command h (by simp [hempty]) hcommand
    obtain ⟨read, hline, rfl, -⟩ := exists_startsBehind hlines
    exact ⟨read, line, mid, next, hline, by rw [after_eq_run hstart, hbefore], hstep, hnumber, hmid,
      hnext⟩

end Loading

open Loading

/-- An error is reported for the line that its logical line starts on, or for the line before in a
block of data, and this is a line of the text. The commands of a script have the numbers of the
lines that gave them, which increase. -/
theorem Script.line_of_load (settings : Settings) (source : List Char) :
    (∀ failure, load settings source = .error failure →
      ∃ (error : LoadError) (read : List Char) (line : NumberedLine) (state : Loading),
        failure = .error error ∧ StartsBehind source read line ∧
        after settings read = .ok state ∧ state.step settings line = .error failure ∧
        (IsInData settings state line error.cause → error.line = line.number - 1) ∧
        (¬ IsInData settings state line error.cause → error.line = line.number) ∧
        1 ≤ error.line ∧ error.line ≤ (physicalLines source).length) ∧
    ∀ script, load settings source = .ok script →
      (script.commands.map Command.line).Pairwise (· < ·) ∧
      ∀ (k : Nat) (command : Command), script.commands[k]? = some command →
        ∃ (read : List Char) (line : NumberedLine) (state next : Loading),
          StartsBehind source read line ∧ after settings read = .ok state ∧
          state.step settings line = .ok next ∧ command.line = line.number ∧
          state.script.commands = script.commands.take k ∧
          next.script.commands = script.commands.take (k + 1) := by
  rw [load_eq]
  constructor
  · intro failure h
    cases hafter : after settings source with
    | ok final =>
      rw [hafter] at h
      cases h
    | error other =>
      rw [hafter] at h
      cases h
      obtain ⟨read, line, state, hline, hread, hstep, hinside⟩ := exists_line_of_after hafter
      obtain ⟨error, rfl, hdata, hother⟩ := line_of_step (inStep_of_after hread) hstep
      refine ⟨error, read, line, state, rfl, hline, hread, hstep, hdata, hother, ?_⟩
      by_cases hcause : IsInData settings state line error.cause
      · have hcurrent : state.current ≠ .outside := by
          rcases hcause.2.1 with h | h | h <;> simp [h]
        have hlt := one_lt_number_of_current hline hread hcurrent
        rw [hdata hcause]
        omega
      · rw [hother hcause, hline.number]
        exact ⟨Nat.le_add_left .., hline.number ▸ hinside⟩
  · intro script h
    obtain ⟨final, hfinal, rfl⟩ := exists_of_map_eq_ok h
    obtain ⟨-, hcommands, -⟩ := endSection_frame final
    rw [hcommands]
    exact commands_of_after hfinal

/-- Behind a line that takes up two physical lines, the fourth is invalid in a block of data, or gives
a command. -/
theorem Script.line_of_load_behind_joined :
    (∃ (error : LoadError) (read : List Char) (line : NumberedLine) (state : Loading),
      load {} "[require]\nfbsize 1 \\\n 2\nfbsize x\n".toList = .error (.error error) ∧
        StartsBehind "[require]\nfbsize 1 \\\n 2\nfbsize x\n".toList read line ∧
        after {} read = .ok state ∧ IsInData {} state line error.cause ∧
        line.number = 4 ∧ error.line = 3) ∧
    ∃ script read line state, load {} "[test]\nclear \\\n depth 1\nclear\n".toList = .ok script ∧
      StartsBehind "[test]\nclear \\\n depth 1\nclear\n".toList read line ∧
      after {} read = .ok state ∧ state.script.commands = [⟨2, .clearDepth 0x3f800000⟩] ∧
      script.commands = [⟨2, .clearDepth 0x3f800000⟩, ⟨line.number, .clear⟩] := by
  constructor
  · have hload : load {} "[require]\nfbsize 1 \\\n 2\nfbsize x\n".toList =
        .error (.error ⟨3, .invalid .invalidFramebufferSize⟩) := by
      rw [load_of_no_rules rfl]
      decide +kernel
    have hnumbers : ∀ line ∈ logicalLines "[require]\nfbsize 1 \\\n 2\nfbsize x\n".toList,
        line.number ≠ 3 := by
      decide +kernel
    obtain ⟨error, read, line, state, heq, hline, hread, -, hdata, hother, -⟩ :=
      (Script.line_of_load _ _).1 _ hload
    cases heq
    have hne : line.number ≠ 3 := hnumbers line (hline.lines.subset (by simp))
    have hcause := Classical.not_not.1 fun h => hne (hother h).symm
    have hthree : 3 = line.number - 1 := hdata hcause
    exact ⟨_, read, line, state, hload, hline, hread, hcause, by omega, rfl⟩
  · have hload : ∃ script, load {} "[test]\nclear \\\n depth 1\nclear\n".toList = .ok script ∧
        script.commands = [⟨2, .clearDepth 0x3f800000⟩, ⟨4, .clear⟩] := by
      rw [load_of_no_rules rfl]
      decide +kernel
    obtain ⟨script, hload, hcommands⟩ := hload
    obtain ⟨-, hown⟩ := (Script.line_of_load _ _).2 script hload
    obtain ⟨read, line, state, next, hline, hread, -, hnumber, hstate, -⟩ :=
      hown 1 ⟨4, .clear⟩ (by rw [hcommands]; rfl)
    refine ⟨script, read, line, state, hload, hline, hread, ?_, ?_⟩
    · rw [hstate, hcommands]
      rfl
    · rw [hcommands, ← hnumber]

end GpuScript
