import GpuScript.LogicalLine
import Mathlib.Data.List.Basic

/-!
# Where logical lines start

A text that ends where a logical line does can be read before any other text: the logical lines of
the two are those of the first and then those of the second, which are numbered on. A logical line
has the number of the physical line that it starts on, one more than the line feeds before it, so
the numbers of the lines of a text increase.
-/

namespace GpuScript

/-- Whether a text ends where a logical line does: it is empty, or its last character is a line feed
that does not go on in a next line. -/
def EndsLine (text : List Char) : Prop :=
  text = [] ∨ text.getLast? = some '\n' ∧ continued? text = none

instance (text : List Char) : Decidable (EndsLine text) :=
  inferInstanceAs (Decidable (text = [] ∨ text.getLast? = some '\n' ∧ continued? text = none))

/-- The logical lines of a text, the first physical line of which has a number. -/
def linesFrom (number : Nat) (text : List Char) : List NumberedLine :=
  joinLines number (physicalLines text)

theorem physicalLines_eq_nil_iff {text : List Char} : physicalLines text = [] ↔ text = [] := by
  constructor
  · intro h
    rw [← flatten_physicalLines text, h, List.flatten_nil]
  · rintro rfl
    rfl

theorem physicalLines_append {s : List Char} (h : s = [] ∨ s.getLast? = some '\n')
    (t : List Char) : physicalLines (s ++ t) = physicalLines s ++ physicalLines t := by
  induction s with
  | nil => rfl
  | cons c rest ih =>
    by_cases hrest : rest = []
    · subst hrest
      have hc : c = '\n' := by simpa using h
      simp [physicalLines, hc]
    · have hlast : rest.getLast? = some '\n' := by
        simpa [List.getLast?_cons, Option.getD_eq_iff, hrest] using h
      rw [List.cons_append, physicalLines, physicalLines, ih (.inr hlast)]
      split
      · rfl
      · obtain ⟨line, more, hlines⟩ :=
          List.exists_cons_of_ne_nil (mt physicalLines_eq_nil_iff.1 hrest)
        rw [hlines]
        rfl

theorem exists_of_physicalLines_eq_append {text : List Char} {read left : List (List Char)}
    (h : physicalLines text = read ++ left) :
    ∃ s t, text = s ++ t ∧ physicalLines s = read ∧
      (left ≠ [] → s.count '\n' = read.length) := by
  induction text generalizing read with
  | nil =>
    obtain ⟨rfl, -⟩ := List.append_eq_nil_iff.1 h.symm
    exact ⟨[], [], rfl, rfl, fun _ => rfl⟩
  | cons c rest ih =>
    cases read with
    | nil => exact ⟨[], c :: rest, rfl, rfl, fun _ => rfl⟩
    | cons line more =>
      by_cases hc : c = '\n'
      · subst hc
        obtain ⟨rfl, hmore⟩ := List.cons.inj h
        obtain ⟨s, t, rfl, rfl, hcount⟩ := ih hmore
        exact ⟨'\n' :: s, t, rfl, rfl, fun hleft => by simp [hcount hleft]⟩
      -- A character that is not a line feed belongs to the first line of what follows it.
      · rw [physicalLines, if_neg hc] at h
        split at h
        · next hnil =>
          obtain ⟨rfl, hmore⟩ := List.cons.inj h
          obtain ⟨rfl, rfl⟩ := List.append_eq_nil_iff.1 hmore.symm
          rw [physicalLines_eq_nil_iff] at hnil
          exact ⟨[c], [], by rw [hnil, List.append_nil], by simp [physicalLines, hc],
            fun hleft => (hleft rfl).elim⟩
        · next first others hlines =>
          obtain ⟨rfl, rfl⟩ := List.cons.inj h
          have hsame : physicalLines rest = (first :: more) ++ left := hlines
          obtain ⟨s, t, rfl, hs, hcount⟩ := ih hsame
          refine ⟨c :: s, t, rfl, ?_, ?_⟩
          · rw [physicalLines, if_neg hc, hs]
          · intro hleft
            rw [List.count_cons_of_ne hc, hcount hleft]
            rfl

/-- What stands before a line does not matter to whether it goes on. -/
theorem continued?_append {line head : List Char} (h : continued? line = some head)
    (text : List Char) : continued? (text ++ line) = some (text ++ head) := by
  unfold continued? at h ⊢
  rw [List.reverse_append]
  split at h
  · next heq =>
    cases h
    simp [heq]
  · next heq =>
    cases h
    simp [heq]
  · cases h

theorem EndsLine.continued?_eq_none {text : List Char} (h : EndsLine text) {line : List Char}
    (hline : (physicalLines text).getLast? = some line) : continued? line = none := by
  obtain ⟨init, hlines⟩ := List.getLast?_eq_some_iff.1 hline
  have htext : init.flatten ++ line = text := by
    rw [← flatten_physicalLines text, hlines, List.flatten_concat]
  rcases h with rfl | ⟨-, h⟩
  · cases hline
  · cases hcontinued : continued? line with
    | none => rfl
    | some head =>
      have hgoes := continued?_append hcontinued init.flatten
      rw [htext, h] at hgoes
      cases hgoes

theorem joinLines_eq_nil_iff {number : Nat} {lines : List (List Char)} :
    joinLines number lines = [] ↔ lines = [] := by
  cases lines with
  | nil => simp [joinLines]
  | cons line rest =>
    rw [joinLines]
    split
    · simp
    · split <;> simp

theorem joinLines_append {lines : List (List Char)}
    (h : ∀ line, lines.getLast? = some line → continued? line = none) (number : Nat)
    (more : List (List Char)) :
    joinLines number (lines ++ more) =
      joinLines number lines ++ joinLines (number + lines.length) more := by
  induction lines generalizing number with
  | nil => rfl
  | cons line rest ih =>
    by_cases hrest : rest = []
    · subst hrest
      simp [joinLines, h line rfl]
    · have hlast : ∀ last, rest.getLast? = some last → continued? last = none := by
        intro last hlast
        refine h last ?_
        rw [List.getLast?_cons, hlast, Option.getD_some]
      have hne : joinLines (number + 1) rest ≠ [] := mt joinLines_eq_nil_iff.1 hrest
      obtain ⟨next, others, hjoined⟩ := List.exists_cons_of_ne_nil hne
      rw [List.cons_append, joinLines, joinLines, ih hlast, hjoined, List.length_cons,
        Nat.add_right_comm, Nat.add_assoc]
      split <;> simp
  
theorem linesFrom_append {s : List Char} (h : EndsLine s) (number : Nat) (t : List Char) :
    linesFrom number (s ++ t) =
      linesFrom number s ++ linesFrom (number + (physicalLines s).length) t := by
  rw [linesFrom, physicalLines_append (h.imp id And.left)]
  exact joinLines_append (fun _ => h.continued?_eq_none) number _

theorem map_text_joinLines (number other : Nat) (lines : List (List Char)) :
    (joinLines number lines).map NumberedLine.text = (joinLines other lines).map NumberedLine.text := by
  induction lines generalizing number other with
  | nil => rfl
  | cons line rest ih =>
    have hrest := ih (number + 1) (other + 1)
    rw [joinLines, joinLines]
    cases continued? line with
    | none => simp [hrest]
    | some head =>
      cases hleft : joinLines (number + 1) rest <;> cases hright : joinLines (other + 1) rest <;>
        simp_all

theorem le_number_of_mem_joinLines {number : Nat} {lines : List (List Char)} {line : NumberedLine}
    (h : line ∈ joinLines number lines) : number ≤ line.number := by
  induction lines generalizing number with
  | nil => cases h
  | cons first rest ih =>
    have hmore : line ∈ joinLines (number + 1) rest → number ≤ line.number :=
      fun hline => Nat.le_of_succ_le (ih hline)
    rw [joinLines] at h
    split at h
    · rcases List.mem_cons.1 h with rfl | h
      · exact Nat.le_refl number
      · exact hmore h
    · split at h
      · cases List.mem_singleton.1 h
        exact Nat.le_refl number
      · next next others hjoined =>
        rw [hjoined] at hmore
        rcases List.mem_cons.1 h with rfl | h
        · exact Nat.le_refl number
        · exact hmore (List.mem_cons_of_mem next h)

theorem pairwise_number_joinLines (number : Nat) (lines : List (List Char)) :
    ((joinLines number lines).map NumberedLine.number).Pairwise (· < ·) := by
  induction lines generalizing number with
  | nil => exact .nil
  | cons first rest ih =>
    have hrest := ih (number + 1)
    have hmore : ∀ n ∈ (joinLines (number + 1) rest).map NumberedLine.number, number < n := by
      intro n hn
      obtain ⟨line, hline, rfl⟩ := List.mem_map.1 hn
      exact le_number_of_mem_joinLines hline
    rw [joinLines]
    split
    · exact .cons hmore hrest
    · split
      · exact List.pairwise_singleton ..
      · next next others hjoined =>
        rw [hjoined, List.map_cons] at hmore hrest
        exact .cons (fun n hn => hmore n (List.mem_cons_of_mem _ hn)) (List.pairwise_cons.1 hrest).2

theorem exists_of_joinLines_eq_append {number : Nat} {lines : List (List Char)}
    {before rest : List NumberedLine} {line : NumberedLine}
    (h : joinLines number lines = before ++ line :: rest) :
    ∃ read left, lines = read ++ left ∧ left ≠ [] ∧ joinLines number read = before ∧
      line.number = number + read.length := by
  induction lines generalizing number before with
  | nil => simp [joinLines] at h
  | cons first more ih =>
    cases before with
    | nil =>
      refine ⟨[], first :: more, rfl, by simp, rfl, ?_⟩
      rw [joinLines] at h
      split at h
      · cases h
        rfl
      · split at h <;>
          cases h <;> rfl
    | cons start before =>
      rw [joinLines] at h
      cases hcontinued : continued? first with
      | none =>
        rw [hcontinued] at h
        obtain ⟨rfl, hmore⟩ := List.cons.inj h
        obtain ⟨read, left, rfl, hleft, rfl, hnumber⟩ := ih hmore
        refine ⟨first :: read, left, rfl, hleft, ?_, ?_⟩
        · rw [joinLines, hcontinued]
        · rw [hnumber, List.length_cons, Nat.add_right_comm, Nat.add_assoc]
      -- The line is joined with the next one, which the lines before then start with.
      | some head =>
        rw [hcontinued] at h
        dsimp only at h
        split at h
        · simp at h
        · next next others hjoined =>
          obtain ⟨rfl, rfl⟩ := List.cons.inj h
          have hsame : joinLines (number + 1) more = (next :: before) ++ line :: rest := hjoined
          obtain ⟨read, left, rfl, hleft, hread, hnumber⟩ := ih hsame
          refine ⟨first :: read, left, rfl, hleft, ?_, ?_⟩
          · rw [joinLines, hcontinued, hread]
          · rw [hnumber, List.length_cons, Nat.add_right_comm, Nat.add_assoc]

/-- Whether a logical line of a text starts behind a first part of the text. -/
structure StartsBehind (source read : List Char) (line : NumberedLine) : Prop where
  text : read <+: source
  lines : logicalLines read ++ [line] <+: logicalLines source
  number : line.number = read.count '\n' + 1

theorem exists_startsBehind {source : List Char} {before rest : List NumberedLine}
    {line : NumberedLine} (h : logicalLines source = before ++ line :: rest) :
    ∃ read, StartsBehind source read line ∧ logicalLines read = before ∧
      line.number ≤ (physicalLines source).length := by
  obtain ⟨read, left, hlines, hleft, hbefore, hnumber⟩ := exists_of_joinLines_eq_append h
  obtain ⟨s, t, rfl, hs, hcount⟩ := exists_of_physicalLines_eq_append hlines
  have hlogical : logicalLines s = before := by rw [logicalLines, hs, hbefore]
  refine ⟨s, ⟨List.prefix_append s t, ?_, ?_⟩, hlogical, ?_⟩
  · rw [hlogical, h]
    exact ⟨rest, by simp⟩
  · rw [hnumber, hcount hleft, Nat.add_comm]
  · have hpos := List.length_pos_iff.2 hleft
    rw [hlines, hnumber, List.length_append]
    omega

end GpuScript
