import GpuScript.Proofs.IndexBuffers
import GpuScript.Proofs.TrimmedWords

/-!
# Index words

A word of an index section is an index if it is a decimal number of sixteen bits. It is too large if
the digits at its start are, whatever stands behind them, and any other word is invalid. A row is
taken in if all its words are indices, and is refused for the first that is none.
-/

namespace GpuScript

def afterPlus : List Char → List Char
  | '+' :: rest => rest
  | text => text

/-- The natural that a text stands for, however large: decimal digits after at most one plus sign,
and nothing else. -/
def decimal? (text : List Char) : Option Nat :=
  if afterPlus text ≠ [] ∧ (afterPlus text).all (isDigit 10) then
    some (digitsValue 10 (afterPlus text))
  else none

/-- Whether a text is no decimal number but starts with one that does not fit in sixteen bits. -/
def StartsTooLarge (text : List Char) : Prop :=
  decimal? text = none ∧ ∃ number n, number <+: text ∧ decimal? number = some n ∧ 65535 < n

/-- The decimal digits at the start of a text, behind a plus sign if there is one. -/
def leadingDigits (text : List Char) : List Char := (afterPlus text).takeWhile (isDigit 10)

theorem decimal?_eq_some_iff {text : List Char} {n : Nat} :
    decimal? text = some n ↔ afterPlus text ≠ [] ∧ (∀ c ∈ afterPlus text, isDigit 10 c = true) ∧
      digitsValue 10 (afterPlus text) = n := by
  rw [decimal?, Option.ite_none_right_eq_some, Option.some.injEq, List.all_eq_true, and_assoc]

theorem afterPlus_of_ne {c : Char} (h : c ≠ '+') (rest : List Char) :
    afterPlus (c :: rest) = c :: rest := by
  simp [afterPlus, h]

theorem afterPlus_cases (text : List Char) :
    (∃ rest, text = '+' :: rest ∧ afterPlus text = rest) ∨
      text.head? ≠ some '+' ∧ afterPlus text = text := by
  unfold afterPlus
  split
  · next rest => exact .inl ⟨rest, rfl, rfl⟩
  · next hplus =>
    refine .inr ⟨fun hhead => ?_, rfl⟩
    obtain ⟨rest, rfl⟩ := List.head?_eq_some_iff.1 hhead
    exact hplus rest rfl

theorem afterPlus_append {front : List Char} (hne : front ≠ []) (back : List Char) :
    afterPlus (front ++ back) = afterPlus front ++ back := by
  obtain ⟨c, rest, rfl⟩ := List.exists_cons_of_ne_nil hne
  by_cases hplus : c = '+'
  · subst hplus
    rfl
  · rw [List.cons_append, afterPlus_of_ne hplus, afterPlus_of_ne hplus, List.cons_append]

theorem le_digitsValue_append (digits more : List Char) :
    digitsValue 10 digits ≤ digitsValue 10 (digits ++ more) := by
  rw [digitsValue, digitsValue, List.foldl_append]
  generalize digits.foldl _ 0 = n
  induction more generalizing n with
  | nil => exact Nat.le_refl n
  | cons c rest ih =>
    exact Nat.le_trans (Nat.le_trans (Nat.le_mul_of_pos_right n (by decide)) (Nat.le_add_right ..))
      (ih _)

theorem decimal?_of_wholeNatural? {width n : Nat} {text : List Char}
    (h : wholeNatural? 10 width text = some n) : decimal? text = some n := by
  rw [decimal?_eq_some_iff]
  unfold wholeNatural? at h
  split at h
  all_goals
    simp only [Option.ite_none_left_eq_some, Option.ite_none_right_eq_some, Option.some.injEq,
      not_or, Bool.not_eq_true, Bool.not_eq_false', List.all_eq_true] at h
    obtain ⟨⟨hne, hdigits⟩, -, rfl⟩ := h
  · exact ⟨hne, hdigits, rfl⟩
  · next hplus =>
    have hafter : afterPlus text = text := by
      rcases afterPlus_cases text with ⟨rest, rfl, -⟩ | ⟨-, hafter⟩
      · exact (hplus rest rfl).elim
      · exact hafter
    rw [hafter]
    exact ⟨hne, hdigits, rfl⟩

theorem leadingDigits_of_digits {text : List Char}
    (h : ∀ c ∈ afterPlus text, isDigit 10 c = true) : leadingDigits text = afterPlus text :=
  List.takeWhile_eq_self_iff.2 h

theorem leadingDigits_of_decimal? {text : List Char} {n : Nat} (h : decimal? text = some n) :
    digitsValue 10 (leadingDigits text) = n := by
  obtain ⟨-, hdigits, hvalue⟩ := decimal?_eq_some_iff.1 h
  rw [leadingDigits_of_digits hdigits, hvalue]

theorem leadingDigits_ne_nil {text : List Char} {n : Nat}
    (h : n < digitsValue 10 (leadingDigits text)) : leadingDigits text ≠ [] := by
  intro hnil
  rw [hnil] at h
  cases h

theorem exists_start_of_leadingDigits {text : List Char} (hne : leadingDigits text ≠ []) :
    ∃ number, number <+: text ∧
      decimal? number = some (digitsValue 10 (leadingDigits text)) := by
  have hdigits : ∀ c ∈ leadingDigits text, isDigit 10 c = true :=
    List.all_eq_true.1 List.all_takeWhile
  have hstart : leadingDigits text <+: afterPlus text := List.takeWhile_prefix _
  have hnumber : ∀ number, afterPlus number = leadingDigits text →
      decimal? number = some (digitsValue 10 (leadingDigits text)) := by
    intro number hafter
    rw [decimal?_eq_some_iff, hafter]
    exact ⟨hne, hdigits, rfl⟩
  cases text with
  | nil => exact (hne rfl).elim
  | cons c rest =>
    by_cases hplus : c = '+'
    · subst hplus
      exact ⟨'+' :: leadingDigits ('+' :: rest), List.cons_prefix_cons.2 ⟨rfl, hstart⟩,
        hnumber _ rfl⟩
    · rw [afterPlus_of_ne hplus] at hstart
      refine ⟨_, hstart, hnumber _ ?_⟩
      obtain ⟨d, more, hcons⟩ := List.exists_cons_of_ne_nil hne
      rw [hcons, afterPlus_of_ne]
      rintro rfl
      have hplus := hdigits '+' (hcons ▸ List.mem_cons_self ..)
      cases hplus

theorem startsTooLarge_iff {text : List Char} :
    StartsTooLarge text ↔ decimal? text = none ∧ 65535 < digitsValue 10 (leadingDigits text) := by
  refine and_congr_right fun _ => ⟨?_, ?_⟩
  · rintro ⟨number, n, ⟨tail, rfl⟩, hnumber, hlarge⟩
    obtain ⟨hne, hdigits, rfl⟩ := decimal?_eq_some_iff.1 hnumber
    have hnumberNe : number ≠ [] := by
      rintro rfl
      exact hne rfl
    rw [leadingDigits, afterPlus_append hnumberNe, List.takeWhile_append_of_pos hdigits]
    exact Nat.lt_of_lt_of_le hlarge (le_digitsValue_append ..)
  · intro hlarge
    obtain ⟨number, hprefix, hnumber⟩ :=
      exists_start_of_leadingDigits (leadingDigits_ne_nil hlarge)
    exact ⟨number, _, hprefix, hnumber, hlarge⟩

section Words

variable {token : List Char}

theorem isWord_of_decimal? {n : Nat} (h : decimal? token = some n) : IsWord token := by
  obtain ⟨hne, hdigits, -⟩ := decimal?_eq_some_iff.1 h
  have hblank : ∀ c ∈ afterPlus token, isBlank c = false := fun c hc =>
    isBlank_of_isDigit (hdigits c hc)
  rcases afterPlus_cases token with ⟨rest, rfl, hafter⟩ | ⟨-, hafter⟩
  · rw [hafter] at hblank
    exact ⟨List.cons_ne_nil _ _, List.forall_mem_cons.2 ⟨rfl, hblank⟩⟩
  · rw [hafter] at hne hblank
    exact ⟨hne, hblank⟩

theorem splitSign_of_isWord (hword : IsWord token) (hminus : token.head? ≠ some '-') :
    splitSign (skipSpaces token) = (false, afterPlus token) := by
  obtain ⟨c, rest, rfl⟩ := List.exists_cons_of_ne_nil hword.1
  rw [skipSpaces_of_not_blank (hword.2 c (List.mem_cons_self ..))]
  by_cases hplus : c = '+'
  · subst hplus
    rfl
  · have hc : c ≠ '-' := fun hc => hminus (by rw [hc]; rfl)
    simp [splitSign, afterPlus, hc, hplus]

theorem not_decimal_of_refused (hword : IsWord token)
    (h : token.head? = some '-' ∨ isHexLiteral token = true) :
    decimal? token = none ∧ digitsValue 10 (leadingDigits token) = 0 := by
  by_cases hminus : token.head? = some '-'
  · obtain ⟨rest, rfl⟩ := List.head?_eq_some_iff.1 hminus
    exact ⟨rfl, rfl⟩
  · have hhex := h.resolve_left hminus
    rw [isHexLiteral, splitSign_of_isWord hword hminus] at hhex
    rcases splitBase_cases (afterPlus token) with ⟨x, rest, hx, hafter, -⟩ | ⟨-, hsplit⟩
    · -- The mark of base sixteen ends the decimal digits behind a zero.
      rw [decimal?, leadingDigits, hafter]
      rcases hx with rfl | rfl <;> exact ⟨rfl, rfl⟩
    · rw [hsplit] at hhex
      cases hhex

theorem ofText_of_isWord (hword : IsWord token) (hminus : token.head? ≠ some '-')
    (hhex : isHexLiteral token = false) : IntegerLiteral.ofText token =
      ⟨false, 10, leadingDigits token, (afterPlus token).dropWhile (isDigit 10)⟩ := by
  have hsign := splitSign_of_isWord hword hminus
  rw [isHexLiteral, hsign] at hhex
  rcases splitBase_cases (afterPlus token) with ⟨x, rest, -, -, hsplit⟩ | ⟨-, hsplit⟩
  · rw [hsplit] at hhex
    cases hhex
  · rw [IntegerLiteral.ofText, hsign]
    dsimp only
    rw [hsplit]
    rfl

theorem readIndex_of_not_refused (hword : IsWord token)
    (hread : ¬ (token.head? = some '-' ∨ isHexLiteral token = true)) : readIndex token =
      if leadingDigits token = [] then .error (.invalidIndex token)
      else if 65535 < digitsValue 10 (leadingDigits token) then .error (.indexTooLarge token)
      else if (afterPlus token).dropWhile (isDigit 10) = [] then
        .ok (digitsValue 10 (leadingDigits token))
      else .error (.invalidIndex token) := by
  obtain ⟨hminus, hhex⟩ := not_or.1 hread
  rw [Bool.not_eq_true] at hhex
  rw [readIndex, hhex, Bool.false_or, if_neg (by simpa using hminus), readUnsigned,
    ofText_of_isWord hword hminus hhex]
  dsimp only
  rw [IntegerLiteral.magnitudeWithin, IntegerLiteral.magnitude]
  dsimp only
  by_cases hnil : leadingDigits token = []
  · rw [if_pos hnil, if_pos hnil]
    rfl
  · rw [if_neg hnil, if_neg hnil]
    by_cases hlarge : 65535 < digitsValue 10 (leadingDigits token)
    · rw [if_pos hlarge, if_neg (show ¬ _ < twoPow 16 from Nat.not_lt_of_le hlarge)]
      rfl
    · rw [if_neg hlarge,
        if_pos (show _ < twoPow 16 from Nat.lt_succ_of_le (Nat.le_of_not_lt hlarge))]
      cases (afterPlus token).dropWhile (isDigit 10) <;> rfl

theorem readIndex_of_decimal? {n : Nat} (h : decimal? token = some n) (hn : n ≤ 65535) :
    readIndex token = .ok n := by
  have hword := isWord_of_decimal? h
  have hread : ¬ (token.head? = some '-' ∨ isHexLiteral token = true) := fun hrefused => by
    rw [(not_decimal_of_refused hword hrefused).1] at h
    cases h
  obtain ⟨hne, hdigits, rfl⟩ := decimal?_eq_some_iff.1 h
  rw [readIndex_of_not_refused hword hread, leadingDigits_of_digits hdigits, if_neg hne,
    if_neg (Nat.not_lt_of_le hn), if_pos (List.dropWhile_eq_nil_iff.2 hdigits)]

theorem readIndex_of_leadingDigits (hword : IsWord token)
    (hlarge : 65535 < digitsValue 10 (leadingDigits token)) :
    readIndex token = .error (.indexTooLarge token) := by
  have hread : ¬ (token.head? = some '-' ∨ isHexLiteral token = true) := fun hrefused => by
    rw [(not_decimal_of_refused hword hrefused).2] at hlarge
    cases hlarge
  rw [readIndex_of_not_refused hword hread, if_neg (leadingDigits_ne_nil hlarge), if_pos hlarge]

theorem readIndex_of_not_decimal (hword : IsWord token) (hnone : decimal? token = none)
    (hsmall : digitsValue 10 (leadingDigits token) ≤ 65535) :
    readIndex token = .error (.invalidIndex token) := by
  by_cases hread : token.head? = some '-' ∨ isHexLiteral token = true
  · rw [readIndex, if_pos (by simpa using hread.symm)]
  · rw [readIndex_of_not_refused hword hread]
    split
    · rfl
    · next hne =>
      rw [if_neg (Nat.not_lt_of_le hsmall), if_neg]
      -- If nothing stands behind the digits, they are all of a decimal number.
      intro htail
      have hdigits := List.dropWhile_eq_nil_iff.1 htail
      rw [leadingDigits_of_digits hdigits] at hne
      rw [decimal?_eq_some_iff.2 ⟨hne, hdigits, rfl⟩] at hnone
      cases hnone

theorem readIndex_cases (hword : IsWord token) :
    (∃ n, decimal? token = some n ∧ n ≤ 65535 ∧ readIndex token = .ok n) ∨
      (65535 < digitsValue 10 (leadingDigits token) ∧
        readIndex token = .error (.indexTooLarge token)) ∨
      (decimal? token = none ∧ digitsValue 10 (leadingDigits token) ≤ 65535 ∧
        readIndex token = .error (.invalidIndex token)) := by
  rcases Nat.lt_or_ge 65535 (digitsValue 10 (leadingDigits token)) with hlarge | hsmall
  · exact .inr (.inl ⟨hlarge, readIndex_of_leadingDigits hword hlarge⟩)
  · cases hdecimal : decimal? token with
    | none => exact .inr (.inr ⟨rfl, hsmall, readIndex_of_not_decimal hword hdecimal hsmall⟩)
    | some n =>
      have hn := leadingDigits_of_decimal? hdecimal
      rw [hn] at hsmall
      exact .inl ⟨n, rfl, hsmall, readIndex_of_decimal? hdecimal hsmall⟩

theorem readIndex_eq_ok_iff (hword : IsWord token) {n : Nat} :
    readIndex token = .ok n ↔ decimal? token = some n ∧ n ≤ 65535 := by
  refine ⟨fun h => ?_, fun h => readIndex_of_decimal? h.1 h.2⟩
  rcases readIndex_cases hword with ⟨m, hm, hsmall, hread⟩ | ⟨-, hread⟩ | ⟨-, -, hread⟩
  · obtain rfl := Except.ok.inj (hread.symm.trans h)
    exact ⟨hm, hsmall⟩
  · rw [hread] at h
    cases h
  · rw [hread] at h
    cases h

theorem readIndex_eq_tooLarge_iff (hword : IsWord token) :
    readIndex token = .error (.indexTooLarge token) ↔
      (∃ n, decimal? token = some n ∧ 65535 < n) ∨ StartsTooLarge token := by
  have hlarge : readIndex token = .error (.indexTooLarge token) ↔
      65535 < digitsValue 10 (leadingDigits token) := by
    rcases readIndex_cases hword with ⟨n, hn, hsmall, hread⟩ | ⟨hlarge, hread⟩ | ⟨-, hsmall, hread⟩
    · rw [hread, leadingDigits_of_decimal? hn]
      exact iff_of_false (by simp) (Nat.not_lt_of_le hsmall)
    · exact iff_of_true hread hlarge
    · rw [hread]
      exact iff_of_false (by simp) (Nat.not_lt_of_le hsmall)
  rw [hlarge, startsTooLarge_iff]
  cases hdecimal : decimal? token with
  | none => simp
  | some n => simp [leadingDigits_of_decimal? hdecimal]

theorem readIndex_eq_invalid_iff (hword : IsWord token) :
    readIndex token = .error (.invalidIndex token) ↔
      decimal? token = none ∧ ¬ StartsTooLarge token := by
  rw [startsTooLarge_iff]
  rcases readIndex_cases hword with ⟨n, hn, -, hread⟩ | ⟨hlarge, hread⟩ | ⟨hnone, hsmall, hread⟩
  · simp [hread, hn]
  · simp [hread, hlarge]
  · simp [hread, hnone, hsmall]

theorem readIndex_eq_error (hword : IsWord token) {error : LineError}
    (h : readIndex token = .error error) :
    error = .invalidIndex token ∨ error = .indexTooLarge token := by
  rcases readIndex_cases hword with ⟨n, -, -, hread⟩ | ⟨-, hread⟩ | ⟨-, -, hread⟩
  · rw [hread] at h
    cases h
  · exact .inr (Except.error.inj (h.symm.trans hread))
  · exact .inl (Except.error.inj (h.symm.trans hread))

end Words

/-- Whether words are decimal numbers that stand for some indices. -/
def AreIndices (tokens : List (List Char)) (indices : List UInt16) : Prop :=
  List.Forall₂ (fun token index => decimal? token = some index.toNat) tokens indices

theorem AreIndices.append_cons {front back : List (List Char)} {token : List Char}
    {before after : List UInt16} {index : UInt16} (hfront : AreIndices front before)
    (htoken : decimal? token = some index.toNat) (hback : AreIndices back after) :
    AreIndices (front ++ token :: back) (before ++ index :: after) :=
  List.rel_append hfront (.cons htoken hback)

theorem AreIndices.exists_of_append_cons {front back : List (List Char)} {token : List Char}
    {indices : List UInt16} (h : AreIndices (front ++ token :: back) indices) :
    (∃ index : UInt16, decimal? token = some index.toNat) ∧ ∃ after, AreIndices back after := by
  have hrest := List.forall₂_drop front.length h
  rw [List.drop_left] at hrest
  obtain ⟨index, after, htoken, hback, -⟩ := List.forall₂_cons_left_iff.1 hrest
  exact ⟨⟨index, htoken⟩, after, hback⟩

theorem AreIndices.exists_readIndex {tokens : List (List Char)} {indices : List UInt16}
    (h : AreIndices tokens indices) : ∀ token ∈ tokens, ∃ n, readIndex token = .ok n := by
  induction h with
  | nil => exact List.forall_mem_nil _
  | cons htoken _ ih =>
    exact List.forall_mem_cons.2
      ⟨⟨_, readIndex_of_decimal? htoken (Nat.le_of_lt_succ (UInt16.toNat_lt _))⟩, ih⟩

theorem readIndices_eq_mapM (tokens : List (List Char)) : readIndices tokens =
    tokens.mapM fun token => (readIndex token).map fun n : Nat => Value.ofInt .uint16 n := by
  rw [readIndices]
  congr
  funext token
  cases readIndex token <;> rfl

theorem AreIndices.readIndices_eq {tokens : List (List Char)} {indices : List UInt16}
    (h : AreIndices tokens indices) : readIndices tokens = .ok (indices.map indexValue) := by
  rw [readIndices_eq_mapM, mapM_eq_ok_iff]
  refine List.forall₂_map_right_iff.2 (h.imp fun token index htoken => ?_)
  rw [readIndex_of_decimal? htoken (Nat.le_of_lt_succ index.toNat_lt)]
  rfl

theorem readIndices_eq_error_iff {tokens : List (List Char)} {error : LineError} :
    readIndices tokens = .error error ↔ ∃ front token back, tokens = front ++ token :: back ∧
      (∀ word ∈ front, ∃ n, readIndex word = .ok n) ∧ readIndex token = .error error := by
  rw [readIndices_eq_mapM, mapM_eq_error_iff]
  simp only [map_eq_error_iff]
  have hok : ∀ word, (∃ value, (readIndex word).map (fun n : Nat => Value.ofInt .uint16 n) =
      .ok value) ↔ ∃ n, readIndex word = .ok n := by
    intro word
    cases readIndex word <;> simp [Except.map]
  simp only [hok]

theorem exists_areIndices {tokens : List (List Char)} (hwords : ∀ token ∈ tokens, IsWord token)
    {values : List Value} (h : readIndices tokens = .ok values) :
    ∃ indices, AreIndices tokens indices := by
  induction tokens generalizing values with
  | nil => exact ⟨[], .nil⟩
  | cons token rest ih =>
    obtain ⟨hword, hrest⟩ := List.forall_mem_cons.1 hwords
    rw [readIndices_eq_mapM, mapM_eq_ok_iff] at h
    obtain ⟨value, more, hvalue, hmore, -⟩ := List.forall₂_cons_left_iff.1 h
    obtain ⟨indices, hindices⟩ :=
      ih hrest ((readIndices_eq_mapM rest).trans (mapM_eq_ok_iff.2 hmore))
    obtain ⟨n, hn, -⟩ := exists_of_map_eq_ok hvalue
    obtain ⟨hdecimal, hsmall⟩ := (readIndex_eq_ok_iff hword).1 hn
    refine ⟨UInt16.ofNat n :: indices, .cons ?_ hindices⟩
    rw [UInt16.toNat_ofNat_of_lt' (Nat.lt_succ_of_le hsmall)]
    exact hdecimal

theorem words_ne_nil_of_content? {line text : List Char} (h : content? line = some text) :
    words text ≠ [] := by
  intro hnil
  have hwords := words_content line
  rw [h, Option.elim_some, hnil, ← words_trimStart, ← trimEnd_eq_nil_iff] at hwords
  unfold content? at h
  rw [trim, hwords] at h
  cases h

namespace Loading

variable {state : Loading} {held indices : List UInt16}

theorem takeIndexLine_of_error {text : List Char} {error : LineError}
    (h : readIndices (words (text.takeWhile (· ≠ '#'))) = .error error) :
    state.takeIndexLine text = reject error := by
  rw [words_content] at h
  unfold takeIndexLine
  split
  · next hcontent =>
    rw [hcontent] at h
    cases h
  · next content hcontent =>
    rw [hcontent, Option.elim_some] at h
    rw [h]
    rfl

theorem exists_takeIndexLine_of_areIndices {text : List Char}
    (hheld : HoldsIndices state.script.buffers held)
    (h : AreIndices (words (text.takeWhile (· ≠ '#'))) indices) :
    ∃ next, state.takeIndexLine text = .ok next ∧
      HoldsIndices next.script.buffers (held ++ indices) := by
  rw [words_content] at h
  unfold takeIndexLine
  split
  · next hcontent =>
    rw [hcontent] at h
    obtain rfl := List.forall₂_nil_left_iff.1 h
    rw [List.append_nil]
    exact ⟨state, rfl, hheld⟩
  · next content hcontent =>
    rw [hcontent, Option.elim_some] at h
    have hne : indices ≠ [] := by
      rintro rfl
      exact words_ne_nil_of_content? hcontent (List.forall₂_nil_right_iff.1 h)
    obtain ⟨buffers, hbuffers, hholds⟩ := hheld.exists_appendIndices hne
    refine ⟨state.setBuffers buffers, ?_, hholds⟩
    simp only [bind, Except.bind, h.readIndices_eq, orInvalid, hbuffers]
    rfl

end Loading

end GpuScript
