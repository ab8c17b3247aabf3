import GpuScript.Proofs.AlikeStates
import GpuScript.Proofs.LineAdditions

/-!
# Bodies of test sections

The lines of a test section are taken in exactly if each can be read and the uses they ask for agree
with one another, in order. A line that asks for a size agrees with what the others agree with, so it
can stand anywhere among them, and the states that the lines lead to are alike.
-/

namespace GpuScript

/-- What a logical line asks for in a test section, or that it is blank, if it can be read at all. -/
def readingOf (settings : Settings) (line : List Char) : Option (Option TestLine) :=
  (replaceTokens settings.rules replacementLimit line).bind fun text => (readTestLine text).toOption

/-- The uses after a line, unless it cannot be read or asks for one that does not agree. -/
def takeReading (uses : Uses) (reading : Option (Option TestLine)) : Option Uses :=
  reading.bind fun asked? => takeAsked asked? uses

/-- Whether a line is no header, which ends a section. -/
def IsBodyLine (settings : Settings) (line : List Char) : Prop :=
  ∀ text, replaceTokens settings.rules replacementLimit line = some text → text.head? ≠ some '['

def lineTexts (text : List Char) : List (List Char) := (logicalLines text).map NumberedLine.text

/-- Whether the lines of two bodies ask for the same, in the same order but for one line. -/
structure MovesLine (settings : Settings) (line : TestLine) (body moved : List Char) : Prop where
  bodyLines : ∀ text ∈ lineTexts body, IsBodyLine settings text
  movedLines : ∀ text ∈ lineTexts moved, IsBodyLine settings text
  readings : ∃ ahead behind front back : List (Option (Option TestLine)),
    (lineTexts body).map (readingOf settings) = ahead ++ some (some line) :: behind ∧
      (lineTexts moved).map (readingOf settings) = front ++ some (some line) :: back ∧
      ahead ++ behind = front ++ back

theorem map_text_linesFrom (number : Nat) (text : List Char) :
    (linesFrom number text).map NumberedLine.text = lineTexts text :=
  map_text_joinLines number 1 (physicalLines text)

theorem readingOf_of_no_rules {settings : Settings} (h : settings.rules = []) :
    readingOf settings = fun line => (readTestLine line).toOption := by
  funext line
  rw [readingOf, h, replaceTokens_nil, Option.bind_some]

theorem isBodyLine_of_no_rules {settings : Settings} (h : settings.rules = []) {line : List Char}
    (hline : line.head? ≠ some '[') : IsBodyLine settings line := by
  intro text htext
  rw [h, replaceTokens_nil] at htext
  cases htext
  exact hline

theorem takeReading_comm (kind : BufferKind) (binding : Binding) (bytes : Nat)
    (reading : Option (Option TestLine)) (uses : Uses) :
    ((takeReading uses (some (some (.size kind binding bytes)))).bind (takeReading · reading)) =
      (takeReading uses reading).bind (takeReading · (some (some (.size kind binding bytes)))) := by
  cases reading with
  | none => exact Option.bind_fun_none _
  | some asked? =>
    cases asked? with
    | none => exact (Option.bind_fun_some _).trans (Option.bind_some ..).symm
    | some line => exact TestLine.takeUse_comm kind binding bytes line uses

theorem foldlM_takeReading_middle (kind : BufferKind) (binding : Binding) (bytes : Nat)
    (ahead behind : List (Option (Option TestLine))) (uses : Uses) :
    (ahead ++ some (some (.size kind binding bytes)) :: behind).foldlM takeReading uses =
      (some (some (.size kind binding bytes)) :: (ahead ++ behind)).foldlM takeReading uses := by
  induction ahead generalizing uses with
  | nil => rfl
  | cons reading rest ih =>
    calc (reading :: rest ++ some (some (.size kind binding bytes)) :: behind).foldlM takeReading uses
      _ = (takeReading uses reading).bind fun after =>
          (rest ++ some (some (.size kind binding bytes)) :: behind).foldlM takeReading after := rfl
      _ = (takeReading uses reading).bind fun after =>
          (takeReading after (some (some (.size kind binding bytes)))).bind
            fun last => (rest ++ behind).foldlM takeReading last := by
          simp only [ih]
          rfl
      _ = ((takeReading uses reading).bind
            (takeReading · (some (some (.size kind binding bytes))))).bind
            fun last => (rest ++ behind).foldlM takeReading last := (Option.bind_assoc ..).symm
      _ = ((takeReading uses (some (some (.size kind binding bytes)))).bind
            (takeReading · reading)).bind
            fun last => (rest ++ behind).foldlM takeReading last := by rw [takeReading_comm]
      _ = _ := Option.bind_assoc ..

namespace MovesLine

variable {settings : Settings} {line : TestLine} {body moved : List Char}

theorem symm (h : MovesLine settings line body moved) : MovesLine settings line moved body := by
  obtain ⟨hbody, hmoved, ahead, behind, front, back, hreadings, hreadings', heq⟩ := h
  exact ⟨hmoved, hbody, front, back, ahead, behind, hreadings', hreadings, heq.symm⟩

theorem foldlM_eq {kind : BufferKind} {binding : Binding} {bytes : Nat}
    (h : MovesLine settings (.size kind binding bytes) body moved) (uses : Uses) :
    ((lineTexts body).map (readingOf settings)).foldlM takeReading uses =
      ((lineTexts moved).map (readingOf settings)).foldlM takeReading uses := by
  obtain ⟨ahead, behind, front, back, hbody, hmoved, heq⟩ := h.readings
  rw [hbody, hmoved, foldlM_takeReading_middle, foldlM_takeReading_middle, heq]

end MovesLine

namespace Loading

variable {settings : Settings} {state next new : Loading} {lines : List TestLine}

theorem toOption_report (number : Nat) (x : LineResult Loading) :
    (report number x).toOption = x.toOption := by
  cases x with
  | ok state => rfl
  | error failure => cases failure <;> rfl

/-- A line that is no header is read and its use is taken. -/
theorem takeReading_eq (h : state.InStep lines) (hcurrent : state.current = .test)
    {line : NumberedLine} (hbody : IsBodyLine settings line.text) :
    takeReading (usesOf state.script.buffers) (readingOf settings line.text) =
      (state.step settings line).toOption.map fun new => usesOf new.script.buffers := by
  unfold step readingOf
  cases hreplace : replaceTokens settings.rules replacementLimit line.text with
  | none => rfl
  | some text =>
    dsimp only
    rw [toOption_report, takeLine_of_ne_bracket (hbody text hreplace), takeBodyLine, hcurrent]
    cases hread : readTestLine text with
    | error error =>
      rw [takeTestLine, hread, Option.bind_some, hread]
      rfl
    | ok asked? =>
      have hasked : takeReading (usesOf state.script.buffers) ((some text).bind fun text =>
          (readTestLine text).toOption) = takeAsked asked? (usesOf state.script.buffers) := by
        rw [Option.bind_some, hread]
        rfl
      exact hasked.trans (takeAsked_eq h line.number hread)

theorem stays_of_step (h : state.InStep lines) (hcurrent : state.current = .test)
    {line : NumberedLine} (hbody : IsBodyLine settings line.text)
    (hnext : state.step settings line = .ok next) :
    state.Stays next ∧ (replaceTokens settings.rules replacementLimit line.text).bind state.asked? =
      (readingOf settings line.text).join := by
  obtain ⟨text, htext, htake⟩ := step_eq_ok_iff.1 hnext
  have hbracket := hbody text htext
  rw [takeLine_of_ne_bracket hbracket, takeBodyLine, hcurrent] at htake
  obtain ⟨asked?, hread, -⟩ := exists_of_bind_eq_ok htake
  rw [orInvalid_eq_ok_iff] at hread
  refine ⟨stays_of_takeTestLine h htake, ?_⟩
  rw [readingOf, htext, Option.bind_some, Option.bind_some, hread,
    asked?_of_test hcurrent hbracket hread]
  rfl

/-- The lines of a body are taken in exactly if all can be read and the uses agree in order. -/
theorem foldlM_takeReading_eq (h : state.InStep lines) (hcurrent : state.current = .test)
    {body : List NumberedLine} (hbody : ∀ line ∈ body, IsBodyLine settings line.text) :
    (body.map fun line => readingOf settings line.text).foldlM takeReading
        (usesOf state.script.buffers) =
      (state.run settings body).toOption.map fun new => usesOf new.script.buffers := by
  induction body generalizing state lines with
  | nil => rfl
  | cons line rest ih =>
    obtain ⟨hline, hrest⟩ := List.forall_mem_cons.1 hbody
    rw [List.map_cons, List.foldlM_cons, takeReading_eq h hcurrent hline, run]
    cases hnext : state.step settings line with
    | error failure => rfl
    | ok next =>
      have hin := (ensures_step settings h line).property_of_eq_ok hnext
      have hstays := (stays_of_step h hcurrent hline hnext).1
      exact ih hin (hstays.current.trans hcurrent) hrest

/-- A body leaves the section and the columns, and the test lines among it are those it reads as. -/
theorem stays_of_run (h : state.InStep lines) (hcurrent : state.current = .test)
    {body : List NumberedLine} (hbody : ∀ line ∈ body, IsBodyLine settings line.text)
    (hnew : state.run settings body = .ok new) :
    state.Stays new ∧ state.asked settings body =
      (body.map fun line => readingOf settings line.text).filterMap Option.join := by
  induction body generalizing state lines with
  | nil =>
    cases hnew
    exact ⟨.refl _, rfl⟩
  | cons line rest ih =>
    obtain ⟨hline, hrest⟩ := List.forall_mem_cons.1 hbody
    obtain ⟨next, hnext, hnew⟩ := exists_of_bind_eq_ok hnew
    have hin := (ensures_step settings h line).property_of_eq_ok hnext
    obtain ⟨hstays, hasked⟩ := stays_of_step h hcurrent hline hnext
    obtain ⟨hstays', hasked'⟩ := ih hin (hstays.current.trans hcurrent) hrest hnew
    refine ⟨hstays.trans hstays', ?_⟩
    rw [asked_cons hnext, hasked, hasked', List.map_cons]
    cases hjoin : (readingOf settings line.text).join with
    | none => rw [List.filterMap_cons_none hjoin]; rfl
    | some asked => rw [List.filterMap_cons_some hjoin]; rfl

end Loading

end GpuScript
