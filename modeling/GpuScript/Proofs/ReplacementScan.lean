import GpuScript.Proofs.TextCuts
import GpuScript.Proofs.TokenOccurrences

/-!
# Replacing in place

A line is replaced in place by steps at a position, counted in bytes: a step applies a rule there or
moves the position on past a character, and a line that needs one replacement too many is given up.
Every replacement takes from what may still be replaced, and every other step from what is still
ahead, so the steps come to an end for any rules and any line. On the way the position is never
inside of a character, and the line grows by no more than its replacements.
-/

namespace GpuScript

open String (utf8Len)

def longestReplacement (size : List Char → Nat) (rules : List TokenReplacement) : Nat :=
  (rules.map fun rule => size rule.replacement).max?.getD 0

/-- A line in which tokens are being replaced, the position come to, whether a rule has been applied
at it, and the number of replacements made. -/
structure ReplacementScan extends TokenScan where
  applied : Bool
  replacements : Nat

/-- What a step leads to, or where the steps end. -/
inductive ScanOutcome
  | next (scan : ReplacementScan)
  | done (line : List Char)
  | givenUp
  /-- The position is inside of a character. -/
  | insideCharacter

/-- How replacing a line ends, with the line if it is not given up. -/
def ScanOutcome.ofResult : Option (List Char) → ScanOutcome
  | some out => .done out
  | none => .givenUp

namespace ReplacementScan

def start (line : List Char) : ReplacementScan := ⟨⟨line, 0⟩, false, 0⟩

def step (rules : List TokenReplacement) (scan : ReplacementScan) : ScanOutcome :=
  if utf8Len scan.text ≤ scan.position ∧ scan.applied = false then .done scan.text
  else
    match cutAt? scan.text scan.position with
    | none => .insideCharacter
    | some (passed, ahead) =>
      match replaceStart? rules ahead with
      | some next =>
        if replacementLimit < scan.replacements + 1 then .givenUp
        else .next ⟨⟨passed ++ next, scan.position⟩, true, scan.replacements + 1⟩
      | none =>
        match ahead with
        | [] => .done scan.text
        | c :: _ => .next ⟨⟨scan.text, scan.position + c.utf8Size⟩, false, scan.replacements⟩

/-- What a number of steps lead to, fewer if they end before. -/
def steps (rules : List TokenReplacement) : Nat → ReplacementScan → ScanOutcome
  | 0, scan => .next scan
  | n + 1, scan =>
    match scan.step rules with
    | .next scan => steps rules n scan
    | outcome => outcome

/-- What a number of steps in a line lead to. Without rules there is nothing to do. -/
def stepsOn (rules : List TokenReplacement) (line : List Char) (n : Nat) : ScanOutcome :=
  if rules = [] then .done line else steps rules n (start line)

def ofState (state : ReplacementState) (replacements : Nat) : ReplacementScan :=
  ⟨⟨state.text, utf8Len state.passed⟩, state.applied, replacements⟩

/-- What is left to do: the replacements that may still be made, each of which may put as much ahead
as the longest one has, and what is ahead. -/
def work (rules : List TokenReplacement) (scan : ReplacementScan) : Nat :=
  (replacementLimit - scan.replacements) * (longestReplacement utf8Len rules + 1) +
    (utf8Len scan.text - scan.position)

end ReplacementScan

variable {rules : List TokenReplacement} {line text out : List Char}

theorem le_longestReplacement (size : List Char → Nat) {rule : TokenReplacement}
    (hrule : rule ∈ rules) : size rule.replacement ≤ longestReplacement size rules :=
  List.le_max?_getD_of_mem (List.mem_map_of_mem hrule)

section Sizes

variable {size : List Char → Nat}

theorem size_replaceStart? (hsize : ∀ a b, size (a ++ b) = size a + size b) {next : List Char}
    (h : replaceStart? rules text = some next) :
    size next ≤ size text + longestReplacement size rules := by
  obtain ⟨rule, hrule, tail, rfl, rfl⟩ := exists_rule_of_replaceStart? h
  have hle := le_longestReplacement size hrule
  rw [hsize, hsize]
  omega

theorem ReplacementCourse.size_le (hsize : ∀ a b, size (a ++ b) = size a + size b)
    {first last : ReplacementState} {places : List Nat}
    (h : ReplacementCourse rules first places last) :
    size last.text ≤ size first.text + places.length * longestReplacement size rules := by
  induction h with
  | refl => exact Nat.le_add_right ..
  | replace _ hstart _ ih =>
    have hle := size_replaceStart? hsize hstart
    simp only [ReplacementState.text, hsize, List.length_cons, Nat.succ_mul] at ih ⊢
    omega
  | move _ _ ih => simpa [ReplacementState.text] using ih

theorem EndsReplaced.size_le (hsize : ∀ a b, size (a ++ b) = size a + size b) {places : List Nat}
    (h : EndsReplaced rules line places out) :
    size out ≤ size line + places.length * longestReplacement size rules := by
  obtain ⟨state, hcourse, hended, rfl⟩ := h
  have hle := hcourse.size_le hsize
  rwa [ReplacementState.text, hended.1, List.append_nil] at hle

end Sizes

namespace ReplacementScan

theorem inside_ofState (state : ReplacementState) (n : Nat) :
    (ofState state n).Inside :=
  ⟨state.passed, state.ahead, rfl, rfl⟩

theorem work_ofState (rules : List TokenReplacement) (state : ReplacementState) (n : Nat) :
    (ofState state n).work rules =
      (replacementLimit - n) * (longestReplacement utf8Len rules + 1) + utf8Len state.ahead := by
  rw [work, ofState, ReplacementState.text, String.utf8Len_append, Nat.add_sub_cancel_left]

/-- How a number of steps from a state follow the course of replacing: they go on along it, each with
less left to do, or end where it ends, or stop in front of one replacement too many. -/
inductive Follows (rules : List TokenReplacement) (state : ReplacementState) (n count : Nat) :
    ScanOutcome → Prop
  | next {places : List Nat} {after : ReplacementState}
      (hcourse : ReplacementCourse rules state places after)
      (hlimit : n + places.length ≤ replacementLimit)
      (hwork : count + (ofState after (n + places.length)).work rules ≤
        (ofState state n).work rules) :
      Follows rules state n count (.next (ofState after (n + places.length)))
  | done {places : List Nat} {after : ReplacementState}
      (hcourse : ReplacementCourse rules state places after)
      (hlimit : n + places.length ≤ replacementLimit) (hended : after.Ended rules) :
      Follows rules state n count (.done after.passed)
  | givenUp {places : List Nat} {after : ReplacementState}
      (hcourse : ReplacementCourse rules state places after)
      (hlimit : n + places.length = replacementLimit + 1) : Follows rules state n count .givenUp

theorem ofState_move (passed rest : List Char) (c : Char) (n : Nat) :
    (⟨⟨passed ++ c :: rest, utf8Len passed + c.utf8Size⟩, false, n⟩ : ReplacementScan) =
      ofState ⟨passed ++ [c], rest, false⟩ n := by
  simp [ofState, ReplacementState.text]

theorem follows_step (rules : List TokenReplacement) (state : ReplacementState) {n : Nat} (hn : n ≤ replacementLimit) :
    Follows rules state n 1 ((ofState state n).step rules) := by
  obtain ⟨passed, ahead, applied⟩ := state
  have hcut : cutAt? (ofState ⟨passed, ahead, applied⟩ n).text
      (ofState ⟨passed, ahead, applied⟩ n).position = some (passed, ahead) :=
    cutAt?_append passed ahead
  have hend : utf8Len (ofState ⟨passed, ahead, applied⟩ n).text ≤
      (ofState ⟨passed, ahead, applied⟩ n).position ↔ ahead = [] := by
    change utf8Len (passed ++ ahead) ≤ utf8Len passed ↔ ahead = []
    rw [String.utf8Len_append, ← String.utf8Len_eq_zero]
    omega
  have hdone : ahead = [] → (ofState ⟨passed, ahead, applied⟩ n).text = passed := by
    rintro rfl
    exact List.append_nil passed
  rw [step, hcut]
  split
  · next h =>
    rw [hend] at h
    rw [hdone h.1]
    exact .done (.refl _) hn ⟨h.1, fun happlied => by cases h.2.symm.trans happlied⟩
  · next h =>
    have hposition : ahead ≠ [] ∨ applied = true := by
      rwa [hend, Decidable.not_and_iff_or_not, Bool.not_eq_false] at h
    dsimp only
    split
    · next next hstart =>
      have hcourse : ReplacementCourse rules ⟨passed, ahead, applied⟩ [passed.length]
          ⟨passed, next, true⟩ := .replace hposition hstart (.refl _)
      split
      · next hlimit => exact .givenUp hcourse (Nat.le_antisymm (Nat.succ_le_succ hn) hlimit)
      · next hlimit =>
        refine .next hcourse (Nat.le_of_not_lt hlimit) ?_
        have hsize := size_replaceStart? String.utf8Len_append hstart
        have hleft : replacementLimit - n = replacementLimit - (n + 1) + 1 := by
          have := Nat.le_of_not_lt hlimit
          change n + 1 ≤ replacementLimit at this
          omega
        simp only [work_ofState, List.length_singleton, hleft, Nat.succ_mul]
        omega
    · next hstart =>
      split
      · rw [hdone rfl]
        exact .done (.refl _) hn ⟨rfl, fun _ => hstart⟩
      · next c rest =>
        have hpos := c.utf8Size_pos
        have hnext : Follows rules ⟨passed, c :: rest, applied⟩ n 1
            (.next (ofState ⟨passed ++ [c], rest, false⟩ n)) := by
          have hcourse : ReplacementCourse rules ⟨passed, c :: rest, applied⟩ []
              ⟨passed ++ [c], rest, false⟩ := .move hstart (.refl _)
          refine .next hcourse hn ?_
          simp only [work_ofState, List.length_nil, Nat.add_zero, String.utf8Len_cons]
          omega
        rwa [← ofState_move] at hnext

theorem Follows.trans {state after : ReplacementState} {n m k : Nat} {places : List Nat}
    {outcome : ScanOutcome} (hcourse : ReplacementCourse rules state places after)
    (hwork : m + (ofState after (n + places.length)).work rules ≤ (ofState state n).work rules)
    (h : Follows rules after (n + places.length) k outcome) :
    Follows rules state n (m + k) outcome := by
  cases h with
  | @next more last hmore hlimit hless =>
    rw [Nat.add_assoc, ← List.length_append] at hlimit hless ⊢
    exact .next (hcourse.trans hmore) hlimit (by omega)
  | done hmore hlimit hended =>
    rw [Nat.add_assoc, ← List.length_append] at hlimit
    exact .done (hcourse.trans hmore) hlimit hended
  | givenUp hmore hlimit =>
    rw [Nat.add_assoc, ← List.length_append] at hlimit
    exact .givenUp (hcourse.trans hmore) hlimit

theorem follows_steps (count : Nat) (state : ReplacementState) {n : Nat}
    (hn : n ≤ replacementLimit) :
    Follows rules state n count (steps rules count (ofState state n)) := by
  induction count generalizing state n with
  | zero => exact .next (ReplacementCourse.refl state) hn (Nat.le_of_eq (Nat.zero_add _))
  | succ count ih =>
    have hstep := follows_step rules state hn
    rw [steps, Nat.add_comm]
    generalize (ofState state n).step rules = outcome at hstep
    cases hstep with
    | next hcourse hlimit hwork => exact (ih _ hlimit).trans hcourse hwork
    | done hcourse hlimit hended => exact .done hcourse hlimit hended
    | givenUp hcourse hlimit => exact .givenUp hcourse hlimit

end ReplacementScan

namespace ReplacementScan

theorem follows_start (rules : List TokenReplacement) (line : List Char) (count : Nat) :
    Follows rules (.start line) 0 count (steps rules count (start line)) :=
  follows_steps count (.start line) (Nat.zero_le _)

theorem steps_eq_ofResult {count : Nat} (hcount : (start line).work rules < count) :
    steps rules count (start line) =
      .ofResult (replaceTokens rules replacementLimit line) := by
  have hfollows := follows_start rules line count
  generalize steps rules count (start line) = outcome at hfollows
  cases hfollows with
  | next _ _ hwork =>
    have hstart : (ofState (.start line) 0).work rules = (start line).work rules := rfl
    omega
  | @done places after hcourse hlimit hended =>
    rw [Nat.zero_add] at hlimit
    rw [replaceTokens_eq_some_iff.2 ⟨places, hlimit, after, hcourse, hended, rfl⟩]
    rfl
  | @givenUp places after hcourse hlimit =>
    rw [Nat.zero_add] at hlimit
    rw [replaceTokens_eq_none_iff.2 ⟨places, after, hcourse, hlimit⟩]
    rfl

theorem bounds_of_steps {count : Nat} {scan : ReplacementScan}
    (h : steps rules count (start line) = .next scan) :
    scan.replacements ≤ replacementLimit ∧ scan.Inside := by
  have hfollows := follows_start rules line count
  rw [h] at hfollows
  cases hfollows with
  | next _ hlimit _ => exact ⟨hlimit, inside_ofState _ _⟩

end ReplacementScan

/-- Replacing in place comes to its end for any rules and any line, within a number of steps given
by their sizes, and the end is what replacing gives. On the way no more than 999 replacements are
made and the position is never inside of a character, and a line that is not given up has grown by
no more than 999 times the longest replacement. -/
theorem ends_of_stepsOn (rules : List TokenReplacement) (line : List Char) :
    ReplacementScan.stepsOn rules line
        (utf8Len line + 999 * (longestReplacement utf8Len rules + 1) + 1) =
      .ofResult (replaceTokens rules replacementLimit line) ∧
    (∀ count scan, ReplacementScan.stepsOn rules line count = .next scan →
      scan.replacements ≤ 999 ∧ scan.Inside) ∧
    ∀ out, replaceTokens rules replacementLimit line = some out →
      (∃ places, places.length ≤ 999 ∧ EndsReplaced rules line places out) ∧
        utf8Len out ≤ utf8Len line + 999 * longestReplacement utf8Len rules ∧
        out.length ≤ line.length + 999 * longestReplacement List.length rules := by
  refine ⟨?ends, ?bounds, ?size⟩
  case ends =>
    by_cases hrules : rules = []
    · subst hrules
      have hsame : replaceTokens [] replacementLimit line = some line :=
        replaceTokens_eq_some_iff.2
          ⟨[], Nat.zero_le _, freeOf_iff.1 (List.forall_mem_nil _)⟩
      rw [hsame]
      rfl
    · rw [ReplacementScan.stepsOn, if_neg hrules]
      refine ReplacementScan.steps_eq_ofResult ?_
      change 999 * (longestReplacement utf8Len rules + 1) + utf8Len line < _
      omega
  case bounds =>
    intro count scan hscan
    by_cases hrules : rules = []
    · rw [ReplacementScan.stepsOn, if_pos hrules] at hscan
      cases hscan
    · rw [ReplacementScan.stepsOn, if_neg hrules] at hscan
      exact ReplacementScan.bounds_of_steps hscan
  case size =>
    intro out hout
    obtain ⟨places, hplaces, hends⟩ := replaceTokens_eq_some_iff.1 hout
    have hgrowth : ∀ {size : List Char → Nat}, (∀ a b, size (a ++ b) = size a + size b) →
        size out ≤ size line + 999 * longestReplacement size rules := by
      intro size hsize
      exact Nat.le_trans (hends.size_le hsize)
        (Nat.add_le_add_left (Nat.mul_le_mul_right _ hplaces) _)
    exact ⟨⟨places, hplaces, hends⟩, hgrowth String.utf8Len_append,
      hgrowth fun _ _ => List.length_append⟩

end GpuScript
