import GpuScript.Proofs.LineStarts

/-!
# Joined lines

A join is a backslash with the line feed behind it, and with a carriage return between them if there
is one. The logical lines of a text are stretches of it without their joins. A stretch ends with the
first line feed that is not part of a join, so no join is cut, and all that the lines leave out of
the text is its joins.
-/

namespace GpuScript

/-- What a join has before its line feed. -/
def joinStems : List (List Char) := ["\\".toList, "\\\r".toList]

/-- A text without its joins. -/
def withoutJoins : List Char → List Char
  | '\\' :: '\n' :: rest => withoutJoins rest
  | '\\' :: '\r' :: '\n' :: rest => withoutJoins rest
  | c :: rest => c :: withoutJoins rest
  | [] => []

/-- Whether stretches of a text are what its logical lines take up of it, joins included: each but
the last ends where a line does, and none goes on behind such an end. -/
structure LineStretches (text : List Char) (stretches : List (List Char)) : Prop where
  flatten : stretches.flatten = text
  ne_nil : ∀ stretch ∈ stretches, stretch ≠ []
  ends : ∀ stretch ∈ stretches.dropLast, EndsLine stretch
  whole : ∀ stretch ∈ stretches, ∀ front, front <+: stretch → EndsLine front →
    front = [] ∨ front = stretch

/-- Stretches of a text as logical lines. The first starts on the line with a number. -/
def numberStretches : Nat → List (List Char) → List NumberedLine
  | _, [] => []
  | number, stretch :: rest =>
    ⟨number, withoutJoins stretch⟩ :: numberStretches (number + stretch.count '\n') rest

/-- Whether lines have a line feed each, at the end, which only the last one may lack. -/
inductive ArePhysical : List (List Char) → Prop
  | nil : ArePhysical []
  | last {line : List Char} (hne : line ≠ []) (hline : '\n' ∉ line) : ArePhysical [line]
  | cons {line : List Char} (hline : '\n' ∉ line) {rest : List (List Char)}
      (hrest : ArePhysical rest) : ArePhysical ((line ++ ['\n']) :: rest)

theorem arePhysical_physicalLines (text : List Char) : ArePhysical (physicalLines text) := by
  induction text with
  | nil => exact .nil
  | cons c rest ih =>
    rw [physicalLines]
    split
    · exact @ArePhysical.cons [] (by simp) _ ih
    · next hc =>
      have hc : ∀ {line : List Char}, '\n' ∉ line → '\n' ∉ c :: line := fun hline hmem =>
        (List.mem_cons.1 hmem).elim (fun h => hc h.symm) hline
      split
      · exact .last (by simp) (hc (by simp))
      · next heq =>
        rw [heq] at ih
        cases ih with
        | last hne hline => exact .last (by simp) (hc hline)
        | cons hline hrest => exact .cons (hc hline) hrest

theorem not_mem_of_mem_joinStems {stem : List Char} (h : stem ∈ joinStems) : '\n' ∉ stem := by
  revert stem
  decide

theorem continued?_eq_some_iff {line head : List Char} :
    continued? line = some head ↔ ∃ stem ∈ joinStems, line = head ++ stem ++ ['\n'] := by
  constructor
  · intro h
    unfold continued? at h
    split at h
    · next rest heq =>
      cases h
      exact ⟨_, .head _, by rw [← List.reverse_inj, heq]; simp⟩
    · next rest heq =>
      cases h
      exact ⟨_, .tail _ (.head _), by rw [← List.reverse_inj, heq]; simp⟩
    · cases h
  · rintro ⟨stem, hstem, rfl⟩
    simp only [joinStems, List.mem_cons, List.not_mem_nil, or_false] at hstem
    rcases hstem with rfl | rfl <;> simp [continued?]

theorem takeWhile_feed {front : List Char} (h : '\n' ∉ front) (back : List Char) :
    (front ++ '\n' :: back).takeWhile (· ≠ '\n') = front := by
  have hfront : ∀ c ∈ front, decide (c ≠ '\n') = true :=
    fun c hc => decide_eq_true fun heq => h (heq ▸ hc)
  rw [List.takeWhile_append_of_pos hfront]
  simp

theorem continued?_of_not_mem {line : List Char} (h : '\n' ∉ line) : continued? line = none := by
  rw [Option.eq_none_iff_forall_ne_some]
  intro head hhead
  obtain ⟨stem, -, rfl⟩ := continued?_eq_some_iff.1 hhead
  exact h (by simp)

theorem eq_of_feed_prefix {stem front back : List Char} (hstem : '\n' ∉ stem)
    (hfront : '\n' ∉ front) (h : stem ++ ['\n'] <+: front ++ '\n' :: back) : stem = front := by
  obtain ⟨rest, h⟩ := h
  rw [List.append_assoc, List.singleton_append] at h
  rw [← takeWhile_feed hstem rest, h, takeWhile_feed hfront]

theorem withoutJoins_join {stem : List Char} (h : stem ∈ joinStems) (rest : List Char) :
    withoutJoins (stem ++ '\n' :: rest) = withoutJoins rest := by
  simp only [joinStems, List.mem_cons, List.not_mem_nil, or_false] at h
  rcases h with rfl | rfl
  · simp [withoutJoins]
  · simp [withoutJoins]

theorem withoutJoins_cons {c : Char} {rest : List Char}
    (h : ∀ stem ∈ joinStems, ¬ stem ++ ['\n'] <+: c :: rest) :
    withoutJoins (c :: rest) = c :: withoutJoins rest := by
  rw [withoutJoins]
  · rintro more rfl rfl
    exact h _ (.head _) ⟨more, rfl⟩
  · rintro more rfl rfl
    exact h _ (.tail _ (.head _)) ⟨more, rfl⟩

theorem withoutJoins_append {s t : List Char}
    (h : ∀ u, u <:+ s → u ≠ [] → ∀ stem ∈ joinStems, ¬ stem ++ ['\n'] <+: u ++ t) :
    withoutJoins (s ++ t) = s ++ withoutJoins t := by
  induction s with
  | nil => rfl
  | cons c rest ih =>
    have hc := withoutJoins_cons (h (c :: rest) (List.suffix_refl _) (by simp))
    exact hc.trans (congrArg _ (ih fun u hu => h u (hu.trans (List.suffix_cons c rest))))

theorem withoutJoins_of_not_mem {line : List Char} (h : '\n' ∉ line) :
    withoutJoins line = line := by
  have hkept := withoutJoins_append (s := line) (t := []) ?_
  · simpa [withoutJoins] using hkept
  · intro u hu _ stem _ hjoin
    rw [List.append_nil] at hjoin
    exact h (hu.subset (hjoin.subset (by simp)))

/-- A line that does not go on stays with its line feed. -/
theorem withoutJoins_append_of_continued?_eq_none {line : List Char} (hline : '\n' ∉ line)
    (h : continued? (line ++ ['\n']) = none) (t : List Char) :
    withoutJoins (line ++ ['\n'] ++ t) = line ++ ['\n'] ++ withoutJoins t := by
  refine withoutJoins_append ?_
  rintro u ⟨before, hu⟩ hne stem hstem hjoin
  obtain ⟨front, rfl⟩ : ∃ front, u = front ++ ['\n'] := by
    have hlast := congrArg List.getLast? hu
    rw [List.getLast?_append_of_ne_nil _ hne, List.getLast?_concat] at hlast
    exact List.getLast?_eq_some_iff.1 hlast
  rw [← List.append_assoc] at hu
  obtain rfl : before ++ front = line := List.append_cancel_right hu
  rw [List.append_assoc, List.singleton_append] at hjoin
  obtain rfl := eq_of_feed_prefix (not_mem_of_mem_joinStems hstem)
    (fun hmem => hline (List.mem_append_right _ hmem)) hjoin
  rw [continued?_eq_some_iff.2 ⟨stem, hstem, rfl⟩] at h
  cases h

theorem withoutJoins_append_of_continued? {line head : List Char} (hline : '\n' ∉ line)
    (h : continued? (line ++ ['\n']) = some head) (t : List Char) :
    withoutJoins (line ++ ['\n'] ++ t) = head ++ withoutJoins t := by
  obtain ⟨stem, hstem, heq⟩ := continued?_eq_some_iff.1 h
  obtain rfl : line = head ++ stem := List.append_cancel_right heq
  rw [List.append_assoc, List.append_assoc, List.singleton_append, withoutJoins_append,
    withoutJoins_join hstem]
  intro u hu hne other hother hjoin
  rw [← List.append_assoc] at hjoin
  have hfront : '\n' ∉ u ++ stem := fun hmem => hline <|
    (List.mem_append.1 hmem).elim (fun h => List.mem_append_left _ (hu.subset h))
      (List.mem_append_right _)
  obtain rfl := eq_of_feed_prefix (not_mem_of_mem_joinStems hother) hfront hjoin
  have hlengths : ∀ stem ∈ joinStems, ∀ other ∈ joinStems, stem <:+ other → other = stem := by
    decide
  exact hne (List.append_left_eq_self.1 (hlengths stem hstem _ hother ⟨u, rfl⟩))

theorem getElem?_numberStretches (number : Nat) (stretches : List (List Char)) (i : Nat) :
    (numberStretches number stretches)[i]? = stretches[i]?.map fun stretch =>
      ⟨number + (stretches.take i).flatten.count '\n', withoutJoins stretch⟩ := by
  induction stretches generalizing number i with
  | nil => rfl
  | cons stretch rest ih =>
    cases i with
    | zero => simp [numberStretches]
    | succ i => simp [numberStretches, ih, Nat.add_assoc]

theorem eq_nil_of_endsLine {line front : List Char} (hline : '\n' ∉ line) (hfront : front <+: line)
    (h : EndsLine front) : front = [] := by
  rcases h with h | ⟨hlast, -⟩
  · exact h
  · exact (hline (hfront.subset (List.mem_of_getLast? hlast))).elim

theorem eq_nil_or_eq_of_endsLine {line front : List Char} (hline : '\n' ∉ line)
    (hfront : front <+: line ++ ['\n']) (h : EndsLine front) :
    front = [] ∨ front = line ++ ['\n'] := by
  rcases List.prefix_concat_iff.1 hfront with hwhole | hfront
  · exact .inr hwhole
  · exact .inl (eq_nil_of_endsLine hline hfront h)

/-- What stands before a line feed does not matter to whether what is behind it ends a line. -/
theorem endsLine_append_iff {line stretch : List Char} (hne : stretch ≠ []) :
    EndsLine (line ++ ['\n'] ++ stretch) ↔ EndsLine stretch := by
  simp only [EndsLine, List.append_eq_nil_iff, hne, and_false, false_or,
    List.getLast?_append_of_ne_nil _ hne]
  refine and_congr_right fun hlast => ?_
  obtain ⟨init, rfl⟩ := List.getLast?_eq_some_iff.1 hlast
  simp only [Option.eq_none_iff_forall_ne_some, ne_eq, continued?_eq_some_iff, not_exists, not_and]
  constructor
  · intro h head stem hstem heq
    refine h (line ++ ['\n'] ++ head) stem hstem ?_
    rw [heq]
    simp only [List.append_assoc]
  · intro h head stem hstem heq
    rw [← List.append_assoc] at heq
    have heq := List.append_cancel_right heq
    have hsuffix : stem <:+ '\n' :: init := by
      refine (List.suffix_or_suffix_of_suffix ⟨head, heq.symm⟩ ⟨line, by simp⟩).resolve_right ?_
      exact fun h => not_mem_of_mem_joinStems hstem (h.subset (by simp))
    rcases List.suffix_cons_iff.1 hsuffix with rfl | ⟨front, rfl⟩
    · exact not_mem_of_mem_joinStems hstem (by simp)
    · exact h front stem hstem rfl

namespace LineStretches

variable {line head text stretch : List Char} {stretches : List (List Char)}

theorem nil : LineStretches [] [] :=
  ⟨rfl, by simp, by simp, by simp⟩

/-- A text in which no line ends before its own end is one stretch. -/
theorem single (hne : line ≠ [])
    (h : ∀ front, front <+: line → EndsLine front → front = [] ∨ front = line) :
    LineStretches line [line] :=
  ⟨by simp, by simpa using hne, by simp, by simpa using h⟩

/-- A line that does not go on is a stretch of its own. -/
theorem cons (hline : '\n' ∉ line) (h : continued? (line ++ ['\n']) = none)
    (hrest : LineStretches text stretches) :
    LineStretches (line ++ ['\n'] ++ text) ((line ++ ['\n']) :: stretches) := by
  have hends : EndsLine (line ++ ['\n']) := .inr ⟨List.getLast?_concat, h⟩
  refine ⟨by simp [hrest.flatten], ?_, ?_, ?_⟩
  · exact List.forall_mem_cons.2 ⟨by simp, hrest.ne_nil⟩
  · intro own hown
    cases stretches with
    | nil => cases hown
    | cons next others =>
      rw [List.dropLast_cons_cons] at hown
      rcases List.mem_cons.1 hown with rfl | hown
      · exact hends
      · exact hrest.ends own hown
  · exact List.forall_mem_cons.2 ⟨fun _ => eq_nil_or_eq_of_endsLine hline, hrest.whole⟩

/-- A line that goes on is in one stretch with what is behind it. -/
theorem join (hline : '\n' ∉ line) (h : continued? (line ++ ['\n']) = some head)
    (hrest : LineStretches text (stretch :: stretches)) :
    LineStretches (line ++ ['\n'] ++ text) ((line ++ ['\n'] ++ stretch) :: stretches) := by
  obtain ⟨hstretch, hothers⟩ := List.forall_mem_cons.1 hrest.ne_nil
  refine ⟨?_, ?_, ?_, ?_⟩
  · rw [← hrest.flatten, List.flatten_cons, List.flatten_cons, List.append_assoc]
  · exact List.forall_mem_cons.2 ⟨by simp, hothers⟩
  · intro own hown
    cases stretches with
    | nil => cases hown
    | cons next others =>
      have hends := hrest.ends
      rw [List.dropLast_cons_cons] at hown hends
      rcases List.mem_cons.1 hown with rfl | hown
      · exact (endsLine_append_iff hstretch).2 (hends stretch (List.mem_cons_self ..))
      · exact hends own (List.mem_cons_of_mem _ hown)
  · obtain ⟨hwhole, hothers⟩ := List.forall_mem_cons.1 hrest.whole
    have hgoes : ¬ EndsLine (line ++ ['\n']) := by
      simp [EndsLine, h]
    refine List.forall_mem_cons.2 ⟨?_, hothers⟩
    intro front hfront hends
    have hstretch := List.prefix_or_prefix_of_prefix hfront (List.prefix_append _ _)
    rcases hstretch with hfront | ⟨behind, rfl⟩
    · refine .inl ((eq_nil_or_eq_of_endsLine hline hfront hends).resolve_right ?_)
      rintro rfl
      exact hgoes hends
    · have hne : behind ≠ [] := by
        rintro rfl
        rw [List.append_nil] at hends
        exact hgoes hends
      have hbehind := hwhole behind ((List.prefix_append_right_inj _).1 hfront)
        ((endsLine_append_iff hne).1 hends)
      exact .inr (congrArg _ (hbehind.resolve_left hne))

end LineStretches

theorem exists_lineStretches {lines : List (List Char)} (h : ArePhysical lines) (number : Nat) :
    ∃ stretches, LineStretches lines.flatten stretches ∧
      joinLines number lines = numberStretches number stretches := by
  induction h generalizing number with
  | nil => exact ⟨[], .nil, rfl⟩
  | @last line hne hline =>
    have hwhole : ∀ front, front <+: line → EndsLine front → front = [] ∨ front = line :=
      fun front hfront hends => .inl (eq_nil_of_endsLine hline hfront hends)
    have hnone := continued?_of_not_mem hline
    refine ⟨[line], by simpa using LineStretches.single hne hwhole, ?_⟩
    rw [joinLines, hnone, numberStretches, withoutJoins_of_not_mem hline]
    rfl
  | @cons line hline rest hrest ih =>
    obtain ⟨stretches, hstretches, hjoined⟩ := ih (number + 1)
    have hcount : (line ++ ['\n']).count '\n' = 1 := by
      simp [List.count_eq_zero.2 hline]
    rw [joinLines, hjoined]
    cases hcontinued : continued? (line ++ ['\n']) with
    | none =>
      refine ⟨_, .cons hline hcontinued hstretches, ?_⟩
      have hkept := withoutJoins_append_of_continued?_eq_none hline hcontinued []
      simp only [List.append_nil, withoutJoins] at hkept
      rw [numberStretches, hcount, hkept]
    | some head =>
      have hlost := withoutJoins_append_of_continued? hline hcontinued
      cases stretches with
      | nil =>
        have hempty : rest.flatten = [] := hstretches.flatten.symm
        refine ⟨[line ++ ['\n']], ?_, ?_⟩
        · rw [List.flatten_cons, hempty, List.append_nil]
          exact .single (by simp) fun _ => eq_nil_or_eq_of_endsLine hline
        · have hlost := hlost []
          rw [List.append_nil, withoutJoins, List.append_nil] at hlost
          rw [numberStretches, numberStretches, numberStretches, hlost]
      | cons stretch others =>
        refine ⟨_, .join hline hcontinued hstretches, ?_⟩
        rw [numberStretches, numberStretches, hlost, List.count_append, hcount, Nat.add_assoc]

/-- A logical line has no line feed but its last character. -/
theorem not_mem_dropLast_of_mem_joinLines {lines : List (List Char)} (h : ArePhysical lines)
    {number : Nat} {line : NumberedLine} (hline : line ∈ joinLines number lines) :
    '\n' ∉ line.text.dropLast := by
  induction h generalizing number line with
  | nil => cases hline
  | last hne hlast =>
    rw [joinLines, continued?_of_not_mem hlast] at hline
    rw [List.mem_singleton.1 hline]
    exact fun hmem => hlast (List.dropLast_subset _ hmem)
  | @cons first hfirst rest _ ih =>
    rw [joinLines] at hline
    cases hcontinued : continued? (first ++ ['\n']) with
    | none =>
      rw [hcontinued] at hline
      rcases List.mem_cons.1 hline with rfl | hline
      · simpa using hfirst
      · exact ih hline
    | some head =>
      obtain ⟨stem, -, heq⟩ := continued?_eq_some_iff.1 hcontinued
      obtain rfl : first = head ++ stem := List.append_cancel_right heq
      have hhead : '\n' ∉ head := fun hmem => hfirst (List.mem_append_left _ hmem)
      rw [hcontinued] at hline
      cases hjoined : joinLines (number + 1) rest with
      | nil =>
        rw [hjoined] at hline
        rw [List.mem_singleton.1 hline]
        exact fun hmem => hhead (List.dropLast_subset _ hmem)
      | cons next others =>
        rw [hjoined] at hline
        rcases List.mem_cons.1 hline with rfl | hline
        · have hnext := ih (hjoined ▸ List.mem_cons_self ..)
          intro hmem
          by_cases hnil : next.text = []
          · rw [hnil, List.append_nil] at hmem
            exact hhead (List.dropLast_subset _ hmem)
          · rw [List.dropLast_append_of_ne_nil hnil] at hmem
            exact (List.mem_append.1 hmem).elim hhead hnext
        · exact ih (hjoined ▸ List.mem_cons_of_mem _ hline)

theorem flatten_map_text_joinLines {lines : List (List Char)} (h : ArePhysical lines)
    (number : Nat) :
    ((joinLines number lines).map NumberedLine.text).flatten = withoutJoins lines.flatten := by
  induction h generalizing number with
  | nil => rfl
  | last hne hlast =>
    rw [joinLines, continued?_of_not_mem hlast]
    simp [joinLines, withoutJoins_of_not_mem hlast]
  | @cons first hfirst rest _ ih =>
    have hrest := ih (number + 1)
    rw [joinLines, List.flatten_cons]
    cases hcontinued : continued? (first ++ ['\n']) with
    | none =>
      rw [withoutJoins_append_of_continued?_eq_none hfirst hcontinued, ← hrest]
      rfl
    | some head =>
      rw [withoutJoins_append_of_continued? hfirst hcontinued, ← hrest]
      cases joinLines (number + 1) rest with
      | nil => simp
      | cons next others => simp

end GpuScript
