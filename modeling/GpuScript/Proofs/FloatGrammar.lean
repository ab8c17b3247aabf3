import GpuScript.Proofs.LiteralParts
import GpuScript.Proofs.TextCuts

/-!
# Grammar of floating-point literals

A literal is a sign, if any, and either a special name or a numeral with an exponent, if any. What a
reader takes off a text behind its spaces is the longest literal that stands there, where parts that
are not complete are given back. If none stands there, the reader fails in every format.
-/

namespace GpuScript

def AreDecimals (text : List Char) : Prop := ∀ c ∈ text, c.isDigit = true

def IsSign (text : List Char) : Prop := text = [] ∨ text = ['+'] ∨ text = ['-']

/-- Digits and a point, with a digit on one side of it at least. -/
inductive IsNumeral : List Char → Prop
  | whole {digits : List Char} (hdigits : AreDecimals digits) (hne : digits ≠ []) :
      IsNumeral digits
  | point {digits fraction : List Char} (hdigits : AreDecimals digits) (hne : digits ≠ [])
      (hfraction : AreDecimals fraction) : IsNumeral (digits ++ '.' :: fraction)
  | fraction {digits : List Char} (hdigits : AreDecimals digits) (hne : digits ≠ []) :
      IsNumeral ('.' :: digits)

inductive IsExponent : List Char → Prop
  | intro {mark : Char} {sign digits : List Char} (hmark : mark = 'e' ∨ mark = 'E')
      (hsign : IsSign sign) (hdigits : AreDecimals digits) (hne : digits ≠ []) :
      IsExponent (mark :: (sign ++ digits))

inductive IsUnsignedFloat : List Char → Prop
  | special {text : List Char}
      (hname : text.map Char.toLower ∈ ["infinity".toList, "inf".toList, "nan".toList]) :
      IsUnsignedFloat text
  | numeral {number : List Char} (hnumber : IsNumeral number) : IsUnsignedFloat number
  | scaled {number exponent : List Char} (hnumber : IsNumeral number)
      (hexponent : IsExponent exponent) : IsUnsignedFloat (number ++ exponent)

/-- The literals of floating-point numbers. -/
inductive IsFloatText : List Char → Prop
  | intro {sign unsigned : List Char} (hsign : IsSign sign) (hunsigned : IsUnsignedFloat unsigned) :
      IsFloatText (sign ++ unsigned)

/-- Whether a text is the longest one of a kind that another text starts with. -/
structure IsLongestStart (kind : List Char → Prop) (start text : List Char) : Prop where
  isPrefix : start <+: text
  isKind : kind start
  longest : ∀ other, other <+: text → kind other → other.length ≤ start.length

variable {text back : List Char}

theorem isDecimalDigit_eq (c : Char) : isDecimalDigit c = c.isDigit := by
  rw [isDecimalDigit, isDigit, digitValue?_ten, Bool.eq_iff_iff]
  simp [Char.isDigit, Char.le_def]

theorem takeWhile_isDecimalDigit (text : List Char) :
    text.takeWhile isDecimalDigit = text.takeWhile Char.isDigit := by
  rw [funext isDecimalDigit_eq]

theorem areDecimals_takeWhile (text : List Char) : AreDecimals (text.takeWhile Char.isDigit) :=
  fun c hc => List.all_eq_true.1 List.all_takeWhile c hc

theorem AreDecimals.append {digits more : List Char} (h : AreDecimals digits)
    (hmore : AreDecimals more) : AreDecimals (digits ++ more) := by
  intro c hc
  exact (List.mem_append.1 hc).elim (h c) (hmore c)

theorem exists_decimals (text : List Char) :
    ∃ digits rest, text = digits ++ rest ∧ AreDecimals digits ∧
      ∀ c ∈ rest.head?, c.isDigit = false :=
  ⟨_, _, List.takeWhile_append_dropWhile.symm, areDecimals_takeWhile text,
    fun _ hc => not_of_head?_dropWhile hc⟩

theorem isNumeral_iff {number : List Char} : IsNumeral number ↔
    AreDecimals number ∧ number ≠ [] ∨ ∃ digits fraction, AreDecimals digits ∧
      AreDecimals fraction ∧ (digits ≠ [] ∨ fraction ≠ []) ∧
        number = digits ++ '.' :: fraction := by
  constructor
  · intro h
    cases h with
    | whole hdigits hne => exact .inl ⟨hdigits, hne⟩
    | point hdigits hne hfraction => exact .inr ⟨_, _, hdigits, hfraction, .inl hne, rfl⟩
    | fraction hdigits hne => exact .inr ⟨[], _, nofun, hdigits, .inr hne, rfl⟩
  · rintro (⟨hdigits, hne⟩ | ⟨digits, fraction, hdigits, hfraction, hne, rfl⟩)
    · exact .whole hdigits hne
    · cases digits with
      | nil => exact .fraction hfraction (hne.resolve_left fun h => h rfl)
      | cons c digits => exact .point hdigits (List.cons_ne_nil c digits) hfraction

theorem numberLength?_point {digits : List Char} (hdigits : AreDecimals digits)
    (after : List Char) :
    numberLength? (digits ++ '.' :: after) =
      if digits.length + (after.takeWhile Char.isDigit).length = 0 then none
      else some (digits.length + 1 + (after.takeWhile Char.isDigit).length) := by
  have hspan : (digits ++ '.' :: after).takeWhile Char.isDigit = digits :=
    (span_append hdigits (by simp)).1
  simp [numberLength?, takeWhile_isDecimalDigit, hspan]

theorem numberLength?_whole {digits rest : List Char} (hdigits : AreDecimals digits)
    (hrest : ∀ c ∈ rest.head?, c.isDigit = false ∧ c ≠ '.') :
    numberLength? (digits ++ rest) = if digits = [] then none else some digits.length := by
  have hspan := (span_append hdigits fun c hc => (hrest c hc).1).1
  simp only [numberLength?, takeWhile_isDecimalDigit, hspan, List.drop_left]
  split
  · next after => exact ((hrest '.' rfl).2 rfl).elim
  · simp only [List.length_eq_zero_iff]

theorem isNumeral_take {n : Nat} (h : numberLength? text = some n) : IsNumeral (text.take n) := by
  obtain ⟨digits, rest, rfl, hdigits, hrest⟩ := exists_decimals text
  by_cases hpoint : rest.head? = some '.'
  · obtain ⟨after, rfl⟩ := List.head?_eq_some_iff.1 hpoint
    rw [numberLength?_point hdigits] at h
    split at h
    · cases h
    · next hne =>
      cases h
      refine isNumeral_iff.2 (.inr ⟨digits, _, hdigits, areDecimals_takeWhile after, ?_, ?_⟩)
      · simp only [← List.length_pos_iff]
        omega
      · rw [Nat.add_assoc, List.take_length_add_append, Nat.add_comm 1, List.take_succ_cons,
          ← List.prefix_iff_eq_take.1 (List.takeWhile_prefix _)]
  · rw [numberLength?_whole hdigits fun c hc => ⟨hrest c hc, ?_⟩] at h
    · split at h
      · cases h
      · next hne =>
        cases h
        rw [List.take_left]
        exact .whole hdigits hne
    · rintro rfl
      exact hpoint hc

theorem IsNumeral.exists_numberLength? {number : List Char} (h : IsNumeral number)
    (back : List Char) :
    ∃ n, numberLength? (number ++ back) = some n ∧ number.length ≤ n := by
  rcases isNumeral_iff.1 h with ⟨hdigits, hne⟩ | ⟨digits, fraction, hdigits, hfraction, hne, rfl⟩
  · -- More digits may follow, and then a point.
    obtain ⟨more, rest, rfl, hmore, hrest⟩ := exists_decimals back
    rw [← List.append_assoc]
    have hpos := List.length_pos_iff.2 hne
    by_cases hpoint : rest.head? = some '.'
    · obtain ⟨after, rfl⟩ := List.head?_eq_some_iff.1 hpoint
      rw [numberLength?_point (hdigits.append hmore), List.length_append, if_neg (by omega)]
      exact ⟨_, rfl, by omega⟩
    · rw [numberLength?_whole (hdigits.append hmore) fun c hc => ⟨hrest c hc, ?_⟩,
        if_neg (by simp [hne])]
      · exact ⟨_, rfl, by simp⟩
      · rintro rfl
        exact hpoint hc
  · simp only [← List.length_pos_iff] at hne
    rw [List.append_assoc, List.cons_append, numberLength?_point hdigits,
      List.takeWhile_append_of_pos hfraction, List.length_append, if_neg (by omega)]
    refine ⟨_, rfl, ?_⟩
    simp only [List.length_append, List.length_cons]
    omega

theorem IsNumeral.numberLength?_eq {number : List Char} (h : IsNumeral number)
    (hback : ∀ c ∈ back.head?, c.isDigit = false ∧ c ≠ '.') :
    numberLength? (number ++ back) = some number.length := by
  rcases isNumeral_iff.1 h with ⟨hdigits, hne⟩ | ⟨digits, fraction, hdigits, hfraction, hne, rfl⟩
  · rw [numberLength?_whole hdigits hback, if_neg hne]
  · have hspan := (span_append hfraction fun c hc => (hback c hc).1).1
    simp only [← List.length_pos_iff] at hne
    rw [List.append_assoc, List.cons_append, numberLength?_point hdigits, hspan,
      if_neg (by omega), List.length_append, List.length_cons, Nat.add_right_comm, Nat.add_assoc]

theorem IsNumeral.head {number : List Char} (h : IsNumeral number) :
    ∃ c rest, number = c :: rest ∧ (c.isDigit = true ∨ c = '.') := by
  cases h with
  | fraction => exact ⟨_, _, rfl, .inr rfl⟩
  | whole hdigits hne | point hdigits hne =>
    obtain ⟨c, rest, rfl⟩ := List.exists_cons_of_ne_nil hne
    exact ⟨c, _, rfl, .inl (hdigits c (List.mem_cons_self ..))⟩

theorem drop_signLength (text : List Char) :
    text.drop (signLength text) = (splitSign text).2 := by
  unfold signLength splitSign
  split <;> simp_all

theorem isSign_take (text : List Char) : IsSign (text.take (signLength text)) := by
  unfold signLength IsSign
  split <;> simp

theorem signLength_append {sign : List Char} (hsign : IsSign sign)
    (hback : ∀ c ∈ back.head?, c ≠ '+' ∧ c ≠ '-') : signLength (sign ++ back) = sign.length := by
  rcases hsign with rfl | rfl | rfl
  · cases back with
    | nil => rfl
    | cons c rest => simp [signLength, hback c rfl]
  · rfl
  · rfl

theorem ne_sign_of_isDigit {c : Char} (h : c.isDigit = true) : c ≠ '+' ∧ c ≠ '-' := by
  constructor <;> rintro rfl <;> cases h

theorem exponentLength_mark {mark : Char} (hmark : mark = 'e' ∨ mark = 'E') (rest : List Char) :
    exponentLength (mark :: rest) =
      if ((rest.drop (signLength rest)).takeWhile Char.isDigit).length = 0 then 0
      else 1 + signLength rest +
        ((rest.drop (signLength rest)).takeWhile Char.isDigit).length := by
  rcases hmark with rfl | rfl <;> simp only [exponentLength, takeWhile_isDecimalDigit]

theorem exists_mark_of_exponentLength (h : exponentLength text ≠ 0) :
    ∃ mark rest, (mark = 'e' ∨ mark = 'E') ∧ text = mark :: rest := by
  unfold exponentLength at h
  split at h
  · exact ⟨_, _, .inl rfl, rfl⟩
  · exact ⟨_, _, .inr rfl, rfl⟩
  · exact (h rfl).elim

theorem isExponent_take (h : exponentLength text ≠ 0) :
    IsExponent (text.take (exponentLength text)) := by
  obtain ⟨mark, rest, hmark, rfl⟩ := exists_mark_of_exponentLength h
  rw [exponentLength_mark hmark] at h ⊢
  split at h
  · exact (h rfl).elim
  · next hdigits =>
    rw [if_neg hdigits, Nat.add_assoc, Nat.add_comm 1, List.take_succ_cons, List.take_add,
      ← List.prefix_iff_eq_take.1 (List.takeWhile_prefix _)]
    exact .intro hmark (isSign_take rest) (areDecimals_takeWhile _)
      (fun hnil => hdigits (List.length_eq_zero_iff.2 hnil))

/-- An exponent that a text starts with is no longer than the one that is found there. -/
theorem IsExponent.length_le {exponent : List Char} (h : IsExponent exponent) (back : List Char) :
    exponent.length ≤ exponentLength (exponent ++ back) := by
  obtain ⟨hmark, hsign, hdigits, hne⟩ := h
  next mark sign digits =>
  have hpos := List.length_pos_iff.2 hne
  have hlength : signLength (sign ++ (digits ++ back)) = sign.length := by
    refine signLength_append hsign fun c hc => ne_sign_of_isDigit (hdigits c ?_)
    rw [List.head?_append_of_ne_nil _ hne] at hc
    exact List.mem_of_mem_head? hc
  rw [List.cons_append, List.append_assoc, exponentLength_mark hmark, hlength, List.drop_left,
    List.takeWhile_append_of_pos hdigits]
  simp only [List.length_cons, List.length_append]
  split <;> omega

theorem specialName?_eq (text : List Char) :
    specialName? text = specialNames.find? fun name => name.isPrefixOf (text.map Char.toLower) := by
  rw [specialName?]
  congr 1
  funext name
  rw [Bool.eq_iff_iff, beq_iff_eq, List.isPrefixOf_iff_prefix, List.prefix_iff_eq_take,
    List.map_take, eq_comm]

theorem isSpecial_of_specialName? {name : List Char} (h : specialName? text = some name) :
    name ∈ specialNames ∧ (text.take name.length).map Char.toLower = name :=
  ⟨List.mem_of_find?_eq_some h, by simpa using List.find?_some h⟩

theorem exists_specialName? {start : List Char} (h : start.map Char.toLower ∈ specialNames)
    (back : List Char) :
    ∃ name, specialName? (start ++ back) = some name ∧ start.length ≤ name.length := by
  have hlength : start.length = (start.map Char.toLower).length := (List.length_map ..).symm
  rw [specialName?_eq, List.map_append, hlength]
  generalize start.map Char.toLower = name at *
  generalize back.map Char.toLower = more
  have hnames : name = "infinity".toList ∨ name = "inf".toList ∨ name = "nan".toList := by
    simpa [specialNames] using h
  rcases hnames with rfl | rfl | rfl
  · exact ⟨"infinity".toList, rfl, Nat.le_refl _⟩
  · cases hlonger : "inity".toList.isPrefixOf more with
    | true => exact ⟨"infinity".toList, by simp_all [specialNames, List.isPrefixOf], by decide⟩
    | false => exact ⟨"inf".toList, by simp_all [specialNames, List.isPrefixOf], by decide⟩
  · exact ⟨"nan".toList, rfl, Nat.le_refl _⟩

theorem toLower_of_isDigit {c : Char} (h : c.isDigit = true) : c.toLower = c := by
  have hhigh : c.val ≤ '9'.val := by simpa using (Bool.and_eq_true_iff.1 h).2
  exact dif_neg fun hupper => absurd (UInt32.le_trans hupper.1 hhigh) (by decide)

theorem specialName?_of_numeral {c : Char} (hc : c.isDigit = true ∨ c = '.') (rest : List Char) :
    specialName? (c :: rest) = none := by
  have hlower : c.toLower ≠ 'i' ∧ c.toLower ≠ 'n' := by
    rcases hc with hc | rfl
    · rw [toLower_of_isDigit hc]
      constructor <;> rintro rfl <;> cases hc
    · decide
  rw [specialName?_eq]
  simp [specialNames, List.isPrefixOf, hlower.1.symm, hlower.2.symm]

theorem isUnsignedFloat_take (h : unsignedFloatLength text ≠ 0) :
    IsUnsignedFloat (text.take (unsignedFloatLength text)) := by
  unfold unsignedFloatLength at h ⊢
  split
  · next name hname =>
    obtain ⟨hmem, hlower⟩ := isSpecial_of_specialName? hname
    refine .special ?_
    rw [hlower]
    exact hmem
  · split
    · next n hn =>
      have hnumber := isNumeral_take hn
      rw [List.take_add]
      by_cases hexponent : exponentLength (text.drop n) = 0
      · rw [hexponent, List.take_zero, List.append_nil]
        exact .numeral hnumber
      · exact .scaled hnumber (isExponent_take hexponent)
    · next hspecial _ hnumber =>
      simp only [hspecial, hnumber] at h
      exact (h rfl).elim

/-- An unsigned literal that a text starts with is no longer than the one that is found there. -/
theorem IsUnsignedFloat.length_le {unsigned : List Char} (h : IsUnsignedFloat unsigned)
    (back : List Char) : unsigned.length ≤ unsignedFloatLength (unsigned ++ back) := by
  cases h with
  | special hname =>
    obtain ⟨name, hfound, hle⟩ := exists_specialName? hname back
    rw [unsignedFloatLength, hfound]
    exact hle
  | numeral hnumber =>
    obtain ⟨n, hn, hle⟩ := hnumber.exists_numberLength? back
    obtain ⟨c, rest, rfl, hc⟩ := hnumber.head
    rw [List.cons_append] at hn ⊢
    rw [unsignedFloatLength, specialName?_of_numeral hc, hn]
    exact Nat.le_add_right_of_le hle
  | @scaled number exponent hnumber hexponent =>
    -- The mark of the exponent ends the numeral.
    have hmark : ∀ c ∈ (exponent ++ back).head?, c.isDigit = false ∧ c ≠ '.' := by
      obtain ⟨hmark, -, -, -⟩ := hexponent
      intro c hc
      obtain rfl := Option.some.inj hc
      rcases hmark with rfl | rfl <;> decide
    have hn := hnumber.numberLength?_eq hmark
    have hle := hexponent.length_le back
    have hdrop : (number ++ (exponent ++ back)).drop number.length = exponent ++ back :=
      List.drop_left
    have hspecial : specialName? (number ++ (exponent ++ back)) = none := by
      obtain ⟨c, rest, rfl, hc⟩ := hnumber.head
      exact specialName?_of_numeral hc _
    rw [List.append_assoc, unsignedFloatLength, hspecial, hn, List.length_append]
    dsimp only
    rw [hdrop]
    exact Nat.add_le_add_left hle _

/-- An unsigned literal starts with a character that is no sign. -/
theorem IsUnsignedFloat.head {unsigned : List Char} (h : IsUnsignedFloat unsigned) :
    ∃ c rest, unsigned = c :: rest ∧ c ≠ '+' ∧ c ≠ '-' := by
  have hnumeral : ∀ {number : List Char}, IsNumeral number →
      ∃ c rest, number = c :: rest ∧ c ≠ '+' ∧ c ≠ '-' := by
    intro number hnumber
    obtain ⟨c, rest, rfl, hdigit | rfl⟩ := hnumber.head
    · exact ⟨c, rest, rfl, ne_sign_of_isDigit hdigit⟩
    · exact ⟨'.', rest, rfl, by decide, by decide⟩
  cases h with
  | special hname =>
    cases unsigned with
    | nil => exact absurd hname (by decide)
    | cons c rest =>
      refine ⟨c, rest, rfl, ?_, ?_⟩ <;> rintro rfl <;> simp at hname
  | numeral hnumber => exact hnumeral hnumber
  | scaled hnumber _ =>
    obtain ⟨c, rest, rfl, hc⟩ := hnumeral hnumber
    exact ⟨c, _, rfl, hc⟩

def floatLength (text : List Char) : Nat :=
  signLength text + unsignedFloatLength (text.drop (signLength text))

theorem splitFloat_eq (text : List Char) :
    splitFloat text = ((skipSpaces text).take (floatLength (skipSpaces text)),
      (skipSpaces text).drop (floatLength (skipSpaces text))) := by
  rw [splitFloat, List.splitAt_eq]
  rfl

theorem isFloatText_take (h : unsignedFloatLength (text.drop (signLength text)) ≠ 0) :
    IsFloatText (text.take (floatLength text)) := by
  rw [floatLength, List.take_add]
  exact .intro (isSign_take text) (isUnsignedFloat_take h)

/-- A literal that a text starts with has an unsigned one, and is no longer than what is taken off
there. -/
theorem IsFloatText.length_le {literal : List Char} (h : IsFloatText literal)
    (hstart : literal <+: text) :
    unsignedFloatLength (text.drop (signLength text)) ≠ 0 ∧
      literal.length ≤ floatLength text := by
  obtain ⟨back, rfl⟩ := hstart
  obtain ⟨hsign, hunsigned⟩ := h
  next sign unsigned =>
  obtain ⟨c, rest, rfl, hc⟩ := hunsigned.head
  have hle := hunsigned.length_le back
  have hlength : signLength (sign ++ (c :: rest ++ back)) = sign.length :=
    signLength_append hsign fun d hd => Option.some.inj hd ▸ hc
  rw [floatLength, List.append_assoc, hlength, List.drop_left, List.length_append]
  rw [List.length_cons] at hle ⊢
  omega

theorem unsignedFloatLength_le (text : List Char) : unsignedFloatLength text ≤ text.length :=
  (asciiUpTo_unsignedFloat text).le

theorem floatLength_le (text : List Char) : floatLength text ≤ text.length :=
  ((asciiUpTo_sign text).add (asciiUpTo_unsignedFloat _)).le

theorem isLongestStart_take (h : unsignedFloatLength (text.drop (signLength text)) ≠ 0) :
    IsLongestStart IsFloatText (text.take (floatLength text)) text := by
  refine ⟨List.take_prefix .., isFloatText_take h, fun other hother hliteral => ?_⟩
  rw [List.length_take, Nat.min_eq_left (floatLength_le text)]
  exact (hliteral.length_le hother).2

/-- A text is a literal exactly if an unsigned one takes up all that follows its sign. -/
theorem isFloatText_iff : IsFloatText text ↔ text.drop (signLength text) ≠ [] ∧
    unsignedFloatLength (text.drop (signLength text)) = (text.drop (signLength text)).length := by
  have hsign := (asciiUpTo_sign text).le
  have hdrop : (text.drop (signLength text)).length = text.length - signLength text :=
    List.length_drop
  constructor
  · intro h
    obtain ⟨hne, hle⟩ := h.length_le (List.prefix_refl text)
    have hlength := unsignedFloatLength_le (text.drop (signLength text))
    rw [floatLength] at hle
    refine ⟨fun hnil => hne ?_, by omega⟩
    rw [hnil] at hlength ⊢
    exact Nat.le_zero.1 hlength
  · rintro ⟨hne, hlength⟩
    have hpos := List.length_pos_iff.2 hne
    have hwhole : floatLength text = text.length := by
      rw [floatLength]
      omega
    have hliteral : IsFloatText (text.take (floatLength text)) := isFloatText_take (by omega)
    rwa [hwhole, List.take_length] at hliteral

section Readers

variable (f : FloatFormat)

theorem exists_ofLiteral_iff (text : List Char) :
    (∃ b, f.ofLiteral text = .ok b) ↔ IsFloatText text := by
  rw [isFloatText_iff, drop_signLength]
  simp only [FloatFormat.ofLiteral]
  by_cases hnil : text = []
  · subst hnil
    simp [splitSign]
  · by_cases hrest : (splitSign text).2 = [] ∨
        unsignedFloatLength (splitSign text).2 ≠ (splitSign text).2.length
    · rw [if_neg hnil, if_pos hrest]
      simpa [Decidable.imp_iff_not_or] using hrest
    · rw [if_neg hnil, if_neg hrest]
      rw [not_or, not_not] at hrest
      refine ⟨fun _ => hrest, fun _ => ?_⟩
      split <;> exact ⟨_, rfl⟩

theorem ofLiteral_eq_error (h : ¬ IsFloatText text) :
    f.ofLiteral text = .error (if text = [] then .noFloat else .invalidFloat) := by
  rw [← exists_ofLiteral_iff f] at h
  simp only [FloatFormat.ofLiteral] at h ⊢
  split
  · rfl
  · next hnil =>
    rw [if_neg hnil] at h
    split
    · rfl
    · next hrest =>
      rw [if_neg hrest] at h
      refine (h ?_).elim
      split <;> exact ⟨_, rfl⟩

end Readers

/-- Behind its spaces a text is cut at the end of the longest literal that stands there, which is
read in every format; if none stands there, every format gives the same error. A whole text is read
exactly if it is a literal. -/
theorem exists_parts_of_float (text : List Char) :
    ∃ spaces literal tail, spaces ++ (literal ++ tail) = text ∧
      (∀ c ∈ spaces, c = ' ' ∨ c = '\t') ∧
      (∀ c ∈ (literal ++ tail).head?, c ≠ ' ' ∧ c ≠ '\t') ∧
      splitFloat text = (literal, tail) ∧
      (∀ (f : FloatFormat) (whole : List Char),
        (∃ b, f.ofLiteral whole = .ok b) ↔ IsFloatText whole) ∧
      (IsLongestStart IsFloatText literal (literal ++ tail) ∧
          (∀ f : FloatFormat, ∃ b, f.ofLiteral literal = .ok b ∧ readFloat f text = .ok (b, tail)) ∨
        (∀ start, start <+: literal ++ tail → ¬ IsFloatText start) ∧ IsSign literal ∧
          ∀ f : FloatFormat, readFloat f text =
            .error (if literal = [] then .noFloat else .invalidFloat)) := by
  obtain ⟨spaces, htext, hspaces, hhead⟩ := exists_spaces text
  generalize hwhole : skipSpaces text = whole at *
  have hcut := splitFloat_eq text
  rw [hwhole] at hcut
  have hparts : whole.take (floatLength whole) ++ whole.drop (floatLength whole) = whole :=
    List.take_append_drop ..
  have hread : ∀ f : FloatFormat, readFloat f text =
      (f.ofLiteral (whole.take (floatLength whole))).map
        fun b => (b, whole.drop (floatLength whole)) := by
    intro f
    rw [readFloat, hcut]
  refine ⟨spaces, _, _, by rw [hparts, htext], hspaces, by rwa [hparts], hcut,
    exists_ofLiteral_iff, ?_⟩
  rw [hparts]
  by_cases hunsigned : unsignedFloatLength (whole.drop (signLength whole)) = 0
  · -- What is handed on is at most a sign.
    have hnone : ∀ start, start <+: whole → ¬ IsFloatText start :=
      fun start hstart hliteral => (hliteral.length_le hstart).1 hunsigned
    refine .inr ⟨hnone, ?_, fun f => ?_⟩
    · rw [floatLength, hunsigned, Nat.add_zero]
      exact isSign_take whole
    · rw [hread, ofLiteral_eq_error f (hnone _ (List.take_prefix ..))]
      rfl
  · have hlongest := isLongestStart_take hunsigned
    refine .inl ⟨hlongest, fun f => ?_⟩
    obtain ⟨b, hb⟩ := (exists_ofLiteral_iff f _).2 hlongest.isKind
    refine ⟨b, hb, ?_⟩
    rw [hread, hb]
    rfl

/-- An exponent, a point or a name that is not complete is given back. -/
example : splitFloat " -infinite".toList = ("-inf".toList, "inite".toList) ∧
    splitFloat "\t7.e+x".toList = ("7.".toList, "e+x".toList) := by decide

end GpuScript
