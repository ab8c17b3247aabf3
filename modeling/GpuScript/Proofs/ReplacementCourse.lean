import GpuScript.TokenReplacement
import Mathlib.Data.List.Basic

/-!
# The course of replacing

Replacing goes through the positions of a line from left to right. At a position the first rule that
fits is applied as long as one fits, and then the position moves on by one character. The course is
determined by the line: it ends after a number of replacements, or has any number of them. With a
limit a line is given up exactly if its course has more replacements than that, and otherwise all of
them are made.
-/

namespace GpuScript

/-- How far replacing has come in a line: the characters passed, those from the position on, and
whether a rule has been applied at the position. -/
structure ReplacementState where
  passed : List Char
  ahead : List Char
  applied : Bool

namespace ReplacementState

def start (line : List Char) : ReplacementState := ⟨[], line, false⟩

/-- Whether replacing has come to its end: no character is left, and no rule applies any more. -/
def Ended (rules : List TokenReplacement) (state : ReplacementState) : Prop :=
  state.ahead = [] ∧ (state.applied = true → replaceStart? rules [] = none)

end ReplacementState

/-- The course of replacing from one state to a later one, with the positions of the replacements in
turn. A position has a character when it is come to; what is applied there may leave none. -/
inductive ReplacementCourse (rules : List TokenReplacement) :
    ReplacementState → List Nat → ReplacementState → Prop
  | refl (state : ReplacementState) : ReplacementCourse rules state [] state
  | replace {passed ahead next : List Char} {applied : Bool} {places : List Nat}
      {state : ReplacementState} (hposition : ahead ≠ [] ∨ applied = true)
      (hstart : replaceStart? rules ahead = some next)
      (hmore : ReplacementCourse rules ⟨passed, next, true⟩ places state) :
      ReplacementCourse rules ⟨passed, ahead, applied⟩ (passed.length :: places) state
  | move {passed rest : List Char} {c : Char} {applied : Bool} {places : List Nat}
      {state : ReplacementState} (hstart : replaceStart? rules (c :: rest) = none)
      (hmore : ReplacementCourse rules ⟨passed ++ [c], rest, false⟩ places state) :
      ReplacementCourse rules ⟨passed, c :: rest, applied⟩ places state

/-- Whether replacing in a line has replacements at some positions in turn and then ends with a
text. -/
def EndsReplaced (rules : List TokenReplacement) (line : List Char) (places : List Nat)
    (out : List Char) : Prop :=
  ∃ state, ReplacementCourse rules (.start line) places state ∧ state.Ended rules ∧
    state.passed = out

/-- Whether replacing in a line comes to a number of replacements. -/
def HasReplacements (rules : List TokenReplacement) (line : List Char) (n : Nat) : Prop :=
  ∃ places state, ReplacementCourse rules (.start line) places state ∧ places.length = n

variable {rules : List TokenReplacement} {left after : Nat} {line text out : List Char}

namespace ReplacementCourse

variable {first mid last : ReplacementState} {places more : List Nat}

theorem trans (h : ReplacementCourse rules first places mid)
    (h' : ReplacementCourse rules mid more last) :
    ReplacementCourse rules first (places ++ more) last := by
  induction h with
  | refl => exact h'
  | replace hposition hstart _ ih => exact .replace hposition hstart (ih h')
  | move hstart _ ih => exact .move hstart (ih h')

theorem eq_of_ended (h : ReplacementCourse rules first places last) (hended : first.Ended rules) :
    places = [] ∧ last = first := by
  obtain ⟨hnil, hnone⟩ := hended
  cases h with
  | refl => exact ⟨rfl, rfl⟩
  | replace hposition hstart _ =>
    dsimp only at hnil hnone
    subst hnil
    cases (hnone (hposition.resolve_left fun h => h rfl)).symm.trans hstart
  | move => cases hnil

/-- Every course from a state is a part of the one that comes to the end. -/
theorem exists_append (h : ReplacementCourse rules first places mid)
    (hlast : ReplacementCourse rules first more last) (hended : last.Ended rules) :
    ∃ rest, more = places ++ rest ∧ ReplacementCourse rules mid rest last := by
  induction h generalizing more with
  | refl state => exact ⟨more, rfl, hlast⟩
  | replace hposition hstart _ ih =>
    cases hlast with
    | refl => cases ((ReplacementCourse.replace hposition hstart (.refl _)).eq_of_ended hended).1
    | replace _ hother hmore =>
      obtain rfl := Option.some.inj (hother.symm.trans hstart)
      obtain ⟨rest, rfl, hrest⟩ := ih hmore
      exact ⟨rest, rfl, hrest⟩
    | move hnone _ => cases hnone.symm.trans hstart
  | move hnone _ ih =>
    cases hlast with
    | refl => cases hended.1
    | replace _ hstart _ => cases hnone.symm.trans hstart
    | move _ hmore => exact ih hmore

end ReplacementCourse

theorem exists_course_of_settleStart (h : settleStart rules left text = some (after, out))
    (passed : List Char) {applied : Bool} (hposition : text ≠ [] ∨ applied = true) :
    ∃ n now, left = after + n ∧ replaceStart? rules out = none ∧
      ReplacementCourse rules ⟨passed, text, applied⟩ (List.replicate n passed.length)
        ⟨passed, out, now⟩ := by
  induction left generalizing text applied with
  | zero =>
    unfold settleStart at h
    split at h
    · next hnone =>
      cases h
      exact ⟨0, applied, rfl, hnone, .refl _⟩
    · cases h
    · next heq => cases heq
  | succ left ih =>
    unfold settleStart at h
    split at h
    · next hnone =>
      cases h
      exact ⟨0, applied, rfl, hnone, .refl _⟩
    · cases h
    · next next hstart heq =>
      obtain rfl := Nat.succ.inj heq
      obtain ⟨n, now, rfl, hnone, hcourse⟩ := ih h (.inr rfl)
      exact ⟨n + 1, now, rfl, hnone, .replace hposition hstart hcourse⟩

theorem exists_course_of_settleStart_eq_none (h : settleStart rules left text = none)
    (passed : List Char) {applied : Bool} (hposition : text ≠ [] ∨ applied = true) :
    ∃ next, ReplacementCourse rules ⟨passed, text, applied⟩
      (List.replicate (left + 1) passed.length) ⟨passed, next, true⟩ := by
  induction left generalizing text applied with
  | zero =>
    unfold settleStart at h
    split at h
    · cases h
    · next next hstart _ => exact ⟨next, .replace hposition hstart (.refl _)⟩
    · next heq => cases heq
  | succ left ih =>
    unfold settleStart at h
    split at h
    · cases h
    · next heq => cases heq
    · next next hstart heq =>
      obtain rfl := Nat.succ.inj heq
      obtain ⟨last, hcourse⟩ := ih h (.inr rfl)
      exact ⟨last, .replace hposition hstart hcourse⟩

theorem exists_course_of_replaceTokens (h : replaceTokens rules left text = some out)
    (passed : List Char) :
    ∃ places state, places.length ≤ left ∧
      ReplacementCourse rules ⟨passed, text, false⟩ places state ∧ state.Ended rules ∧
      state.passed = passed ++ out := by
  induction left, text using replaceTokens.induct rules generalizing passed out with
  | case1 left =>
    rw [replaceTokens] at h
    cases h
    exact ⟨[], _, Nat.zero_le _, .refl _, ⟨rfl, nofun⟩, (List.append_nil _).symm⟩
  | case2 left c rest hsettle =>
    rw [replaceTokens, hsettle] at h
    cases h
  | case3 left c rest after hsettle =>
    rw [replaceTokens, hsettle] at h
    cases h
    obtain ⟨n, now, rfl, hnone, hcourse⟩ :=
      exists_course_of_settleStart hsettle passed (.inl (List.cons_ne_nil c rest))
    refine ⟨_, _, ?_, hcourse, ⟨rfl, fun _ => hnone⟩, (List.append_nil _).symm⟩
    rw [List.length_replicate]
    exact Nat.le_add_left ..
  | case4 left c rest after d tail hsettle ih =>
    -- The replacements at the position are followed by those behind it.
    rw [replaceTokens, hsettle] at h
    obtain ⟨more, hmore, rfl⟩ := Option.map_eq_some_iff.1 h
    obtain ⟨n, now, rfl, hnone, hhere⟩ :=
      exists_course_of_settleStart hsettle passed (.inl (List.cons_ne_nil c rest))
    obtain ⟨places, state, hle, hbehind, hended, hpassed⟩ := ih hmore (passed ++ [d])
    refine ⟨_, state, ?_, hhere.trans (.move hnone hbehind), hended, by simpa using hpassed⟩
    rw [List.length_append, List.length_replicate]
    omega

theorem exists_course_of_replaceTokens_eq_none (h : replaceTokens rules left text = none)
    (passed : List Char) :
    ∃ places state, places.length = left + 1 ∧
      ReplacementCourse rules ⟨passed, text, false⟩ places state := by
  induction left, text using replaceTokens.induct rules generalizing passed with
  | case1 left =>
    rw [replaceTokens] at h
    cases h
  | case2 left c rest hsettle =>
    obtain ⟨next, hcourse⟩ := exists_course_of_settleStart_eq_none hsettle passed
      (.inl (List.cons_ne_nil c rest))
    exact ⟨_, _, List.length_replicate, hcourse⟩
  | case3 left c rest after hsettle =>
    rw [replaceTokens, hsettle] at h
    cases h
  | case4 left c rest after d tail hsettle ih =>
    rw [replaceTokens, hsettle] at h
    obtain ⟨n, now, rfl, hnone, hhere⟩ :=
      exists_course_of_settleStart hsettle passed (.inl (List.cons_ne_nil c rest))
    obtain ⟨places, state, hlength, hbehind⟩ :=
      ih (Option.map_eq_none_iff.1 h) (passed ++ [d])
    refine ⟨_, state, ?_, hhere.trans (.move hnone hbehind)⟩
    rw [List.length_append, List.length_replicate]
    omega

namespace EndsReplaced

variable {places : List Nat}

theorem length_le (h : EndsReplaced rules line places out) {n : Nat}
    (hn : HasReplacements rules line n) : n ≤ places.length := by
  obtain ⟨state, hcourse, hended, -⟩ := h
  obtain ⟨before, mid, hbefore, rfl⟩ := hn
  obtain ⟨rest, rfl, -⟩ := hbefore.exists_append hcourse hended
  rw [List.length_append]
  exact Nat.le_add_right ..

theorem hasReplacements (h : EndsReplaced rules line places out) :
    HasReplacements rules line places.length :=
  let ⟨state, hcourse, _⟩ := h
  ⟨places, state, hcourse, rfl⟩

/-- The course of a line has one end. -/
theorem unique (h : EndsReplaced rules line places out) {others : List Nat} {other : List Char}
    (h' : EndsReplaced rules line others other) : others = places ∧ other = out := by
  obtain ⟨state, hcourse, hended, rfl⟩ := h
  obtain ⟨last, hother, hlast, rfl⟩ := h'
  obtain ⟨rest, rfl, hrest⟩ := hcourse.exists_append hother hlast
  obtain ⟨rfl, rfl⟩ := hrest.eq_of_ended hended
  exact ⟨List.append_nil _, rfl⟩

end EndsReplaced

theorem replaceTokens_eq_some_iff : replaceTokens rules left line = some out ↔
    ∃ places, places.length ≤ left ∧ EndsReplaced rules line places out := by
  constructor
  · intro h
    obtain ⟨places, state, hle, hcourse, hended, hpassed⟩ := exists_course_of_replaceTokens h []
    exact ⟨places, hle, state, hcourse, hended, hpassed⟩
  · rintro ⟨places, hle, hends⟩
    cases hresult : replaceTokens rules left line with
    | none =>
      obtain ⟨before, mid, hlength, hbefore⟩ := exists_course_of_replaceTokens_eq_none hresult []
      have := hends.length_le ⟨before, mid, hbefore, hlength⟩
      omega
    | some other =>
      obtain ⟨others, state, -, hcourse, hended, hpassed⟩ :=
        exists_course_of_replaceTokens hresult []
      obtain ⟨-, rfl⟩ := hends.unique ⟨state, hcourse, hended, hpassed⟩
      rfl

theorem replaceTokens_eq_none_iff :
    replaceTokens rules left line = none ↔ HasReplacements rules line (left + 1) := by
  constructor
  · intro h
    obtain ⟨places, state, hlength, hcourse⟩ := exists_course_of_replaceTokens_eq_none h []
    exact ⟨places, state, hcourse, hlength⟩
  · intro h
    cases hresult : replaceTokens rules left line with
    | none => rfl
    | some out =>
      obtain ⟨places, hle, hends⟩ := replaceTokens_eq_some_iff.1 hresult
      have := hends.length_le h
      omega

theorem HasReplacements.mono {m n : Nat} (h : HasReplacements rules line n) (hle : m ≤ n) :
    HasReplacements rules line m := by
  cases m with
  | zero => exact ⟨[], _, .refl _, rfl⟩
  | succ m =>
    cases hresult : replaceTokens rules m line with
    | none => exact replaceTokens_eq_none_iff.1 hresult
    | some out =>
      obtain ⟨places, hplaces, hends⟩ := replaceTokens_eq_some_iff.1 hresult
      have := hends.length_le h
      omega

/-- Whether a line is treated as a limit of replacements asks: it is given up exactly if it comes to
more of them, and all are made if its course ends within the limit. -/
structure KeepsLimit (rules : List TokenReplacement) (line : List Char) (limit : Nat) : Prop where
  none_iff : replaceTokens rules replacementLimit line = none ↔
    HasReplacements rules line (limit + 1)
  some_of_ends : ∀ (places : List Nat) (out : List Char), EndsReplaced rules line places out →
    places.length ≤ limit → replaceTokens rules replacementLimit line = some out

theorem keepsLimit_replacementLimit (rules : List TokenReplacement) (line : List Char) :
    KeepsLimit rules line replacementLimit :=
  ⟨replaceTokens_eq_none_iff, fun places _ hends hle =>
    replaceTokens_eq_some_iff.2 ⟨places, hle, hends⟩⟩

theorem EndsReplaced.not_keepsLimit {places : List Nat} (h : EndsReplaced rules line places out)
    (hlength : places.length = 1000) : ¬ KeepsLimit rules line 1000 := by
  intro hlimit
  have hcomes := h.hasReplacements
  rw [hlength] at hcomes
  have hnone : replaceTokens rules replacementLimit line = none :=
    replaceTokens_eq_none_iff.2 hcomes
  cases hnone.symm.trans (hlimit.some_of_ends places out h (Nat.le_of_eq hlength))

/-- A line is given up exactly if it comes to a thousand replacements, and all are made if its
course ends before. That is to allow a thousand of them exactly unless the course of the line ends
with the thousandth. -/
theorem keepsLimit_thousand_iff (rules : List TokenReplacement) (line : List Char) :
    KeepsLimit rules line 999 ∧
      (KeepsLimit rules line 1000 ↔
        ¬ ∃ places out, places.length = 1000 ∧ EndsReplaced rules line places out) := by
  have hkeeps : KeepsLimit rules line 999 := keepsLimit_replacementLimit rules line
  refine ⟨hkeeps, ?_, ?_⟩
  · rintro hlimit ⟨places, out, hlength, hends⟩
    exact hends.not_keepsLimit hlength hlimit
  · intro hother
    have hbefore : ∀ places out, EndsReplaced rules line places out → places.length ≤ 1000 →
        places.length ≤ 999 := by
      intro places out hends hle
      by_contra hmore
      exact hother ⟨places, out, by omega, hends⟩
    refine ⟨hkeeps.none_iff.trans ⟨fun hthousand => ?_, fun h => h.mono (Nat.le_succ _)⟩, ?_⟩
    · -- A course that ends within a thousand replacements has fewer, and so it goes on.
      cases hresult : replaceTokens rules 1000 line with
      | none => exact replaceTokens_eq_none_iff.1 hresult
      | some out =>
        obtain ⟨places, hle, hends⟩ := replaceTokens_eq_some_iff.1 hresult
        have hmore := hends.length_le hthousand
        have hfewer := hbefore places out hends hle
        omega
    · exact fun places out hends hle => hkeeps.some_of_ends places out hends
        (hbefore places out hends hle)

theorem course_of_pairs (n : Nat) (tail : List Char) (applied : Bool) :
    ∃ now, ReplacementCourse [⟨['q', 'q'], ['q']⟩]
      ⟨[], List.replicate (n + 1) 'q' ++ tail, applied⟩ (List.replicate n 0)
      ⟨[], 'q' :: tail, now⟩ := by
  induction n generalizing applied with
  | zero => exact ⟨applied, .refl _⟩
  | succ n ih =>
    obtain ⟨now, hmore⟩ := ih true
    exact ⟨now, .replace (.inl (by simp)) rfl hmore⟩

/-- A line of a thousand and one letters takes exactly a thousand replacements, and is given up. -/
theorem not_keepsLimit_thousand :
    ¬ ∀ (rules : List TokenReplacement) (line : List Char), KeepsLimit rules line 1000 := by
  intro h
  obtain ⟨now, hpairs⟩ := course_of_pairs 1000 ['\n'] false
  have hends : EndsReplaced [⟨['q', 'q'], ['q']⟩] (List.replicate 1001 'q' ++ ['\n'])
      (List.replicate 1000 0 ++ []) ['q', '\n'] :=
    ⟨⟨['q', '\n'], [], false⟩, hpairs.trans (.move rfl (.move rfl (.refl _))),
      ⟨rfl, nofun⟩, rfl⟩
  have hlength : (List.replicate 1000 0 ++ []).length = 1000 := by
    rw [List.append_nil, List.length_replicate]
  exact hends.not_keepsLimit hlength (h _ _)

end GpuScript
