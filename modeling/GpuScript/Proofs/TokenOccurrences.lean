import GpuScript.Proofs.ReplacementCourse

/-!
# Tokens that stand in a replaced line

When replacing passes a position no token stands there. Later replacements change only what is
behind it, so a token that stands there in the end has been completed by a replacement at one of its
own characters. A line in which no token stands is left as it is.
-/

namespace GpuScript

/-- Whether a token of some rules stands at no position of a text. -/
def FreeOf (rules : List TokenReplacement) (text : List Char) : Prop :=
  ∀ rule ∈ rules, ∀ position < text.length, ¬ rule.token <+: text.drop position

instance (rules : List TokenReplacement) (text : List Char) : Decidable (FreeOf rules text) :=
  inferInstanceAs (Decidable (∀ rule ∈ rules, ∀ position < text.length, _))

def ReplacementState.text (state : ReplacementState) : List Char := state.passed ++ state.ahead

variable {rules : List TokenReplacement} {line text out : List Char}

theorem replaceStart?_eq_none_iff :
    replaceStart? rules text = none ↔ ∀ rule ∈ rules, ¬ rule.token <+: text := by
  rw [replaceStart?, List.findSome?_eq_none_iff]
  refine forall₂_congr fun rule _ => ?_
  rw [Option.map_eq_none_iff, Option.eq_none_iff_forall_ne_some]
  simp only [ne_eq, List.isPrefixOf?_eq_some_iff_append_eq, List.IsPrefix, not_exists]

theorem isPrefix_drop_of_take_eq {token a b : List Char} {position : Nat}
    (h : token <+: a.drop position)
    (htake : a.take (position + token.length) = b.take (position + token.length)) :
    token <+: b.drop position := by
  have hdrop := congrArg (List.drop position) htake
  rw [List.drop_take, List.drop_take, Nat.add_sub_cancel_left] at hdrop
  rw [List.prefix_iff_eq_take] at h
  rw [h, hdrop]
  exact List.take_prefix ..

namespace ReplacementCourse

variable {first last : ReplacementState} {places : List Nat}

theorem le_of_mem (h : ReplacementCourse rules first places last) :
    ∀ place ∈ places, first.passed.length ≤ place := by
  induction h with
  | refl => exact List.forall_mem_nil _
  | replace _ _ _ ih => exact List.forall_mem_cons.2 ⟨Nat.le_refl _, ih⟩
  | move _ _ ih =>
    intro place hplace
    have hle := ih place hplace
    rw [List.length_append] at hle
    exact Nat.le_of_add_right_le hle

theorem take_text (h : ReplacementCourse rules first places last) {n : Nat}
    (hplaces : ∀ place ∈ places, n ≤ place) : first.text.take n = last.text.take n := by
  induction h with
  | refl => rfl
  | replace _ _ _ ih =>
    obtain ⟨hhere, hmore⟩ := List.forall_mem_cons.1 hplaces
    rw [← ih hmore, ReplacementState.text, ReplacementState.text,
      List.take_append_of_le_length hhere, List.take_append_of_le_length hhere]
  | move _ _ ih =>
    rw [← ih hplaces, ReplacementState.text, ReplacementState.text, List.append_assoc]
    rfl

theorem exists_place (h : ReplacementCourse rules first places last) (hlast : last.ahead = [])
    {rule : TokenReplacement} (hrule : rule ∈ rules) {position : Nat}
    (hahead : first.passed.length ≤ position) (hposition : position < last.passed.length)
    (hstands : rule.token <+: last.passed.drop position) :
    ∃ place ∈ places, position < place ∧ place < position + rule.token.length := by
  induction h with
  | refl => omega
  | replace _ _ _ ih =>
    obtain ⟨place, hplace, hinside⟩ := ih hlast hahead hposition hstands
    exact ⟨place, List.mem_cons_of_mem _ hplace, hinside⟩
  | @move passed rest c applied places state hnone hmore ih =>
    rcases Nat.lt_or_ge passed.length position with hlater | hhere
    · refine ih hlast ?_ hposition hstands
      rw [List.length_append]
      exact hlater
    · obtain rfl : passed.length = position := Nat.le_antisymm hahead hhere
      by_contra hoff
      -- Without a replacement inside of it the token stood there already.
      have hbehind : ∀ place ∈ places, passed.length + rule.token.length ≤ place := by
        intro place hplace
        have hle := hmore.le_of_mem place hplace
        rw [List.length_append, List.length_singleton] at hle
        by_contra hinside
        exact hoff ⟨place, hplace, hle, Nat.lt_of_not_le hinside⟩
      have htext : state.text = state.passed := by
        rw [ReplacementState.text, hlast, List.append_nil]
      have htake := hmore.take_text hbehind
      rw [htext] at htake
      have hbefore := isPrefix_drop_of_take_eq hstands htake.symm
      rw [ReplacementState.text, List.append_assoc, List.drop_left] at hbefore
      exact replaceStart?_eq_none_iff.1 hnone rule hrule hbefore

end ReplacementCourse

/-- The position moves through a text in which no token stands. -/
theorem FreeOf.course {passed ahead : List Char} (h : FreeOf rules (passed ++ ahead)) :
    ReplacementCourse rules ⟨passed, ahead, false⟩ [] ⟨passed ++ ahead, [], false⟩ := by
  induction ahead generalizing passed with
  | nil =>
    rw [List.append_nil]
    exact .refl _
  | cons c rest ih =>
    have hsplit : passed ++ c :: rest = (passed ++ [c]) ++ rest := by simp
    refine .move (replaceStart?_eq_none_iff.2 fun rule hrule hstands => ?_) ?_
    · refine h rule hrule passed.length ?_ ?_
      · rw [List.length_append, List.length_cons]
        omega
      · rwa [List.drop_left]
    · rw [hsplit] at h ⊢
      exact ih h

theorem freeOf_iff : FreeOf rules text ↔ EndsReplaced rules text [] text := by
  constructor
  · intro h
    have hall : FreeOf rules ([] ++ text) := h
    exact ⟨_, hall.course, ⟨rfl, nofun⟩, rfl⟩
  · rintro ⟨state, hcourse, hended, rfl⟩ rule hrule position hposition hstands
    obtain ⟨place, hplace, -⟩ :=
      hcourse.exists_place hended.1 hrule (Nat.zero_le _) hposition hstands
    cases hplace

/-- A token stands in a replaced line only where a replacement at one of its characters but the
first has completed it. A line without tokens is one that nothing is replaced in, and a replaced line
without tokens stays as it is. -/
theorem occurrences_of_replaceTokens (h : replaceTokens rules replacementLimit line = some out) :
    ∃ places, EndsReplaced rules line places out ∧
      (∀ rule ∈ rules, ∀ position < out.length, rule.token <+: out.drop position →
        ∃ place ∈ places, position < place ∧ place < position + rule.token.length) ∧
      (∀ text, FreeOf rules text ↔ EndsReplaced rules text [] text) ∧
      (FreeOf rules out → replaceTokens rules replacementLimit out = some out) := by
  obtain ⟨places, -, hends⟩ := replaceTokens_eq_some_iff.1 h
  refine ⟨places, hends, ?_, fun _ => freeOf_iff, fun hfree =>
    replaceTokens_eq_some_iff.2 ⟨[], Nat.zero_le _, freeOf_iff.1 hfree⟩⟩
  obtain ⟨state, hcourse, hended, rfl⟩ := hends
  intro rule hrule position hposition hstands
  exact hcourse.exists_place hended.1 hrule (Nat.zero_le _) hposition hstands

/-- A chain of tokens of which none is left, and a token that its neighbours are joined to. -/
theorem occurrences_of_replaceTokens_chain :
    (∃ rules out, rules = [⟨"this".toList, "thatthing".toList⟩, ⟨"that".toList, "t".toList⟩,
        ⟨"thing".toList, "omatoes".toList⟩] ∧ out = "I like tomatoes".toList ∧
      replaceTokens rules replacementLimit "I like this".toList = some out ∧
      FreeOf rules out ∧ replaceTokens rules replacementLimit out = some out) ∧
    ∃ places, EndsReplaced [⟨"ab".toList, []⟩] "aabb".toList places "ab".toList ∧
      ∃ place ∈ places, 0 < place ∧ place < 0 + 2 := by
  refine ⟨?_, ?_⟩
  · have hchain : replaceTokens [⟨"this".toList, "thatthing".toList⟩, ⟨"that".toList, "t".toList⟩,
        ⟨"thing".toList, "omatoes".toList⟩] replacementLimit "I like this".toList =
          some "I like tomatoes".toList := by cbv
    obtain ⟨-, -, -, -, hagain⟩ := occurrences_of_replaceTokens hchain
    have hfree : FreeOf [⟨"this".toList, "thatthing".toList⟩, ⟨"that".toList, "t".toList⟩,
        ⟨"thing".toList, "omatoes".toList⟩] "I like tomatoes".toList := by decide +kernel
    exact ⟨_, _, rfl, rfl, hchain, hfree, hagain hfree⟩
  · have hjoined : replaceTokens [⟨"ab".toList, []⟩] replacementLimit "aabb".toList =
        some "ab".toList := by cbv
    obtain ⟨places, hends, hplace, -⟩ := occurrences_of_replaceTokens hjoined
    exact ⟨places, hends, hplace _ (List.mem_singleton_self _) 0 (by decide) (by decide +kernel)⟩

/-- A token can be left in a line once its replacements are made. -/
theorem not_freeOf_of_replaceTokens :
    ¬ ∀ (rules : List TokenReplacement) (line out : List Char),
      replaceTokens rules replacementLimit line = some out →
        FreeOf rules out ∧ replaceTokens rules replacementLimit out = some out := by
  intro h
  have hjoined : replaceTokens [⟨"xy".toList, []⟩] replacementLimit "xxyy\n".toList =
      some "xy\n".toList := by cbv
  exact absurd (h _ _ _ hjoined).1 (by decide +kernel)

end GpuScript
