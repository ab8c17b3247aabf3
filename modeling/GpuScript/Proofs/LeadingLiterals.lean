import GpuScript.Blank
import GpuScript.IntegerLiteral
import GpuScript.Proofs.Outcomes

/-!
# Literals at the start of a text

An unsigned literal that a text starts with has no blank in it and stands in the first word. What is
behind the literal does not matter to it, so the first word is the literal exactly if a blank or the
end of the text follows.
-/

namespace GpuScript

theorem digitValue?_ten (c : Char) :
    digitValue? 10 c = if '0' ≤ c ∧ c ≤ '9' then some (c.toNat - '0'.toNat) else none := by
  unfold digitValue?
  by_cases hdecimal : '0' ≤ c ∧ c ≤ '9'
  · have hhigh : c.toNat ≤ 57 := UInt32.le_iff_toNat_le.1 hdecimal.2
    have hlt : c.toNat - '0'.toNat < 10 := by
      change c.toNat - 48 < 10
      omega
    simp only [if_pos hdecimal, if_pos hlt]
  · by_cases hlower : 'a' ≤ c ∧ c ≤ 'f'
    · simp [hdecimal, hlower]
    · by_cases hupper : 'A' ≤ c ∧ c ≤ 'F'
      · simp [hdecimal, hlower, hupper]
      · simp [hdecimal, hlower, hupper]

theorem isDigit_of_decimal {base : Nat} (hbase : 10 ≤ base) {c : Char}
    (h : isDigit 10 c = true) : isDigit base c = true := by
  rw [isDigit, digitValue?_ten, Option.isSome_ite] at h
  have hvalue := digitValue?_ten c
  rw [if_pos h] at hvalue
  simp only [digitValue?, if_pos h, Option.ite_none_right_eq_some] at hvalue
  simp only [isDigit, digitValue?, if_pos h, Option.isSome_ite]
  omega

theorem isBlank_of_bounds {c : Char} (h : 32 < c.toNat ∧ c.toNat < 128) : isBlank c = false := by
  simp only [isBlank, blankRanges, List.any_cons, List.any_nil, Bool.or_false, Bool.or_eq_false_iff,
    Bool.and_eq_false_iff, decide_eq_false_iff_not]
  omega

theorem isBlank_of_isDigit {base : Nat} {c : Char} (h : isDigit base c = true) :
    isBlank c = false :=
  isBlank_of_bounds (toNat_bounds_of_isDigit h)

theorem exists_spaces (text : List Char) :
    ∃ spaces, spaces ++ skipSpaces text = text ∧ (∀ c ∈ spaces, c = ' ' ∨ c = '\t') ∧
      ∀ c ∈ (skipSpaces text).head?, c ≠ ' ' ∧ c ≠ '\t' := by
  refine ⟨_, List.takeWhile_append_dropWhile, fun c hc => ?_, fun c hc => ?_⟩
  · simpa using List.all_eq_true.1 List.all_takeWhile c hc
  · simpa using not_of_head?_dropWhile hc

theorem exists_sign (text : List Char) :
    ∃ sign, sign ++ (splitSign text).2 = text ∧ (sign = [] ∨ sign = ['+'] ∨ sign = ['-']) ∧
      (sign = [] → ∀ c ∈ (splitSign text).2.head?, c ≠ '+' ∧ c ≠ '-') := by
  unfold splitSign
  split
  · exact ⟨['-'], rfl, .inr (.inr rfl), nofun⟩
  · exact ⟨['+'], rfl, .inr (.inl rfl), nofun⟩
  · next hminus hplus =>
    refine ⟨[], rfl, .inl rfl, fun _ c hc => ?_⟩
    obtain ⟨rest, rfl⟩ := List.head?_eq_some_iff.1 hc
    refine ⟨?_, ?_⟩
    · rintro rfl
      exact hplus rest rfl
    · rintro rfl
      exact hminus rest rfl

theorem splitSign_append {text : List Char} (hne : text ≠ []) (back : List Char) :
    splitSign (text ++ back) = ((splitSign text).1, (splitSign text).2 ++ back) := by
  cases text with
  | nil => exact (hne rfl).elim
  | cons c rest =>
    by_cases hminus : c = '-'
    · subst hminus
      rfl
    · by_cases hplus : c = '+'
      · subst hplus
        rfl
      · simp [splitSign, hminus, hplus]

/-- A text starts with a mark of base sixteen, or is all that is left of it. -/
theorem splitBase_cases (text : List Char) :
    (∃ x rest, (x = 'x' ∨ x = 'X') ∧ text = '0' :: x :: rest ∧ splitBase text = (16, rest)) ∨
      (∀ x rest, x = 'x' ∨ x = 'X' → text ≠ '0' :: x :: rest) ∧ splitBase text = (10, text) := by
  unfold splitBase
  split
  · exact .inl ⟨'x', _, .inl rfl, rfl, rfl⟩
  · exact .inl ⟨'X', _, .inr rfl, rfl, rfl⟩
  · next hlower hupper =>
    refine .inr ⟨?_, rfl⟩
    rintro x rest (rfl | rfl)
    · exact hlower rest
    · exact hupper rest

theorem exists_mark (text : List Char) :
    ∃ mark, mark ++ (splitBase text).2 = text ∧
      (mark = [] ∨ mark = ['0', 'x'] ∨ mark = ['0', 'X']) ∧
      (splitBase text).1 = (if mark = [] then 10 else 16) ∧
      (mark = [] → ¬ ['0', 'x'] <+: (splitBase text).2 ∧ ¬ ['0', 'X'] <+: (splitBase text).2) := by
  rcases splitBase_cases text with ⟨x, rest, hx, rfl, hsplit⟩ | ⟨hno, hsplit⟩
  · rw [hsplit]
    rcases hx with rfl | rfl
    · exact ⟨['0', 'x'], rfl, .inr (.inl rfl), rfl, nofun⟩
    · exact ⟨['0', 'X'], rfl, .inr (.inr rfl), rfl, nofun⟩
  · rw [hsplit]
    refine ⟨[], rfl, .inl rfl, rfl, fun _ => ⟨?_, ?_⟩⟩
    · rintro ⟨rest, rfl⟩
      exact hno 'x' rest (.inl rfl) rfl
    · rintro ⟨rest, rfl⟩
      exact hno 'X' rest (.inr rfl) rfl

theorem splitBase_of_append {text back rest : List Char} {base : Nat}
    (h : splitBase (text ++ back) = (base, rest ++ back)) : splitBase text = (base, rest) := by
  rcases splitBase_cases (text ++ back) with ⟨x, more, hx, htext, hsplit⟩ | ⟨hno, hsplit⟩
  · obtain ⟨rfl, rfl⟩ := Prod.mk.inj (hsplit.symm.trans h)
    obtain rfl : text = '0' :: x :: rest := List.append_cancel_right htext
    rcases hx with rfl | rfl <;> rfl
  · obtain ⟨rfl, hrest⟩ := Prod.mk.inj (hsplit.symm.trans h)
    obtain rfl := List.append_cancel_right hrest
    rcases splitBase_cases text with ⟨x, more, hx, rfl, -⟩ | ⟨-, hsame⟩
    · exact (hno x (more ++ back) hx rfl).elim
    · exact hsame

theorem skipSpaces_of_not_blank {c : Char} (hc : isBlank c = false) (rest : List Char) :
    skipSpaces (c :: rest) = c :: rest := by
  have hspace : c ≠ ' ' ∧ c ≠ '\t' := by
    refine ⟨?_, ?_⟩ <;> rintro rfl <;> cases hc
  simp [skipSpaces, hspace]

theorem takeWhile_of_append {p : Char → Bool} {run front back : List Char}
    (h : (run ++ front ++ back).takeWhile p = run) : (run ++ front).takeWhile p = run := by
  rw [List.takeWhile_append] at h
  split at h
  · next hall =>
    have hlength := congrArg List.length h
    simp only [List.length_append] at hlength
    obtain rfl : front = [] := List.length_eq_zero_iff.1 (by omega)
    have hwhole := (List.takeWhile_prefix p).eq_of_length hall
    rwa [List.append_nil] at hwhole ⊢
  · exact h

namespace IntegerLiteral

theorem exists_append_tail (text : List Char) :
    ∃ literal, skipSpaces text = literal ++ (ofText text).digits ++ (ofText text).tail ∧
      ∀ c ∈ literal ++ (ofText text).digits, isBlank c = false := by
  obtain ⟨sign, hsign, hsigns, -⟩ := exists_sign (skipSpaces text)
  obtain ⟨mark, hmark, hmarks, -⟩ := exists_mark (splitSign (skipSpaces text)).2
  have hsigned : ∀ c ∈ sign, isBlank c = false := by
    rcases hsigns with rfl | rfl | rfl
    · exact List.forall_mem_nil _
    · exact List.forall_mem_singleton.2 rfl
    · exact List.forall_mem_singleton.2 rfl
  have hmarked : ∀ c ∈ mark, isBlank c = false := by
    rcases hmarks with rfl | rfl | rfl
    · exact List.forall_mem_nil _
    · exact List.forall_mem_cons.2 ⟨rfl, List.forall_mem_singleton.2 rfl⟩
    · exact List.forall_mem_cons.2 ⟨rfl, List.forall_mem_singleton.2 rfl⟩
  refine ⟨sign ++ mark, ?_, ?_⟩
  · rw [List.append_assoc, ofText, List.takeWhile_append_dropWhile, List.append_assoc, hmark]
    exact hsign.symm
  · intro c hc
    rcases List.mem_append.1 hc with hc | hc
    · exact (List.mem_append.1 hc).elim (hsigned c) (hmarked c)
    · exact isBlank_of_isDigit (List.all_eq_true.1 List.all_takeWhile c hc)

/-- What is behind a literal does not matter to it. -/
theorem ofText_of_append {c : Char} (hc : isBlank c = false) {text front back : List Char}
    {negative : Bool} {base : Nat} {digits : List Char}
    (h : ofText (c :: (text ++ back)) = ⟨negative, base, digits, front ++ back⟩) :
    ofText (c :: text) = ⟨negative, base, digits, front⟩ := by
  have hsign := splitSign_append (List.cons_ne_nil c text) back
  rw [ofText, skipSpaces_of_not_blank hc, ← List.cons_append, hsign] at h
  dsimp only at h
  rcases hsplit : splitBase ((splitSign (c :: text)).2 ++ back) with ⟨found, unsigned⟩
  rw [hsplit] at h
  obtain ⟨rfl, rfl, hdigits, htail⟩ := IntegerLiteral.mk.inj h
  have hunsigned : unsigned = (digits ++ front) ++ back := by
    rw [List.append_assoc, ← hdigits, ← htail, List.takeWhile_append_dropWhile]
  rw [hunsigned] at hsplit hdigits
  have hrun : (digits ++ front).takeWhile (isDigit found) = digits := takeWhile_of_append hdigits
  have hrest : (digits ++ front).dropWhile (isDigit found) = front := by
    have hsplit := List.takeWhile_append_dropWhile (p := isDigit found) (l := digits ++ front)
    rw [hrun] at hsplit
    exact List.append_cancel_left hsplit
  rw [ofText, skipSpaces_of_not_blank hc]
  simp only [splitBase_of_append hsplit, hrun, hrest]

end IntegerLiteral

section Unsigned

variable {width n : Nat} {text tail : List Char}

theorem readUnsigned_eq_ok_iff : readUnsigned width text = .ok (n, tail) ↔
    (IntegerLiteral.ofText text).magnitudeWithin width = .ok n ∧
      (IntegerLiteral.ofText text).negative = false ∧ (IntegerLiteral.ofText text).tail = tail := by
  unfold readUnsigned
  dsimp only
  generalize IntegerLiteral.ofText text = literal
  cases literal.magnitudeWithin width with
  | error e => simp [bind, Except.bind]
  | ok m => cases literal.negative <;> simp [bind, Except.bind]

theorem readUnsigned_of_append {c : Char} (hc : isBlank c = false) (more front back : List Char)
    (h : readUnsigned width (c :: (more ++ back)) = .ok (n, front ++ back)) :
    readUnsigned width (c :: more) = .ok (n, front) := by
  rw [readUnsigned_eq_ok_iff] at h ⊢
  rcases htext : IntegerLiteral.ofText (c :: (more ++ back)) with ⟨negative, base, digits, tail⟩
  rw [htext] at h
  obtain ⟨hmagnitude, hnegative, rfl⟩ := h
  rw [IntegerLiteral.ofText_of_append hc htext]
  exact ⟨hmagnitude, hnegative, rfl⟩

theorem readUnsigned_of_skipSpaces {c : Char} {rest : List Char} (hc : isBlank c = false)
    (h : skipSpaces text = c :: rest) :
    readUnsigned width (c :: rest) = readUnsigned width text := by
  rw [readUnsigned, readUnsigned, IntegerLiteral.ofText, IntegerLiteral.ofText,
    skipSpaces_of_not_blank hc, h]

theorem digits_ne_nil_of_magnitudeWithin {literal : IntegerLiteral}
    (h : literal.magnitudeWithin width = .ok n) : literal.digits ≠ [] := by
  intro hnil
  rw [IntegerLiteral.magnitudeWithin, if_pos hnil] at h
  cases h

theorem trimStart_of_skipSpaces {c : Char} {rest : List Char} (hc : isBlank c = false)
    (h : skipSpaces text = c :: rest) : trimStart text = c :: rest := by
  obtain ⟨spaces, hsplit, hspaces, -⟩ := exists_spaces text
  have hblank : ∀ d ∈ spaces, isBlank d = true := by
    intro d hd
    rcases hspaces d hd with rfl | rfl <;> decide
  rw [← hsplit, trimStart, List.dropWhile_append_of_pos hblank, h, List.dropWhile_cons, hc]
  rfl

theorem words_nil : words [] = [] := by
  rw [words]
  split
  · rfl
  · next hsome => cases hsome

theorem words_of_nextWord? {word rest : List Char} (h : nextWord? text = some (word, rest)) :
    words text = word :: words rest := by
  rw [words]
  split
  · next hnone =>
    rw [h] at hnone
    cases hnone
  · next hsome =>
    rw [h] at hsome
    cases hsome
    rfl

/-- The first word of a text that starts with a literal is the literal with what follows it up to a
blank. -/
theorem words_of_readUnsigned (h : readUnsigned width text = .ok (n, tail)) :
    ∃ word, words text = word :: words (afterLeadingWord tail) ∧
      readUnsigned width word = .ok (n, leadingWord tail) := by
  obtain ⟨hmagnitude, -, htail⟩ := readUnsigned_eq_ok_iff.1 h
  obtain ⟨start, hskip, hblank⟩ := IntegerLiteral.exists_append_tail text
  have hne : start ++ (IntegerLiteral.ofText text).digits ≠ [] := fun hnil =>
    digits_ne_nil_of_magnitudeWithin hmagnitude (List.append_eq_nil_iff.1 hnil).2
  rw [htail] at hskip
  generalize start ++ (IntegerLiteral.ofText text).digits = literal at *
  obtain ⟨c, more, rfl⟩ := List.exists_cons_of_ne_nil hne
  rw [List.cons_append] at hskip
  have hc := hblank c (List.mem_cons_self ..)
  have hword : ∀ d ∈ c :: more, (!isBlank d) = true := fun d hd => by rw [hblank d hd]; rfl
  have hparts : leadingWord tail ++ afterLeadingWord tail = tail :=
    List.takeWhile_append_dropWhile
  have hnext : nextWord? text = some (c :: (more ++ leadingWord tail), afterLeadingWord tail) := by
    simp only [nextWord?, trimStart_of_skipSpaces hc hskip, leadingWord, afterLeadingWord]
    rw [← List.cons_append, List.takeWhile_append_of_pos hword, List.dropWhile_append_of_pos hword,
      List.cons_append]
  refine ⟨_, words_of_nextWord? hnext, readUnsigned_of_append hc _ _ (afterLeadingWord tail) ?_⟩
  rw [List.append_assoc, hparts, readUnsigned_of_skipSpaces hc hskip]
  exact h

end Unsigned

end GpuScript
