import GpuScript.Proofs.LeadingLiterals
import Mathlib.Data.List.Induction
import Mathlib.Data.Nat.Digits.Defs

/-!
# Parts of an integer literal

Every text is, in one way only, a run of spaces and tabs, a sign, a mark of base sixteen, a run of
digits of the base and a tail, where each part before the tail takes in all that it can. What a
reader of integers gives for a text is settled by these parts: the number itself if there are digits
and it is in the range of the width, an overflow if there are digits and it is not.
-/

namespace GpuScript

theorem span_append {p : Char → Bool} {front back : List Char} (hfront : ∀ c ∈ front, p c = true)
    (hback : ∀ c ∈ back.head?, p c = false) :
    (front ++ back).takeWhile p = front ∧ (front ++ back).dropWhile p = back := by
  rw [List.takeWhile_append_of_pos hfront, List.dropWhile_append_of_pos hfront]
  cases back with
  | nil => simp
  | cons c rest => simp [hback c rfl]

theorem digitsValue_eq_ofDigits (base : Nat) (digits : List Char) :
    digitsValue base digits =
      Nat.ofDigits base (digits.reverse.map fun c => (digitValue? base c).getD 0) := by
  induction digits using List.reverseRecOn with
  | nil => rfl
  | append_singleton digits c ih =>
    rw [List.reverse_append, List.reverse_singleton, List.singleton_append, List.map_cons,
      Nat.ofDigits_cons, ← ih, digitsValue, List.foldl_append, Nat.mul_comm base, Nat.add_comm]
    rfl

/-- A text cut at the ends of the parts of an integer literal. -/
structure LiteralParts where
  spaces : List Char
  sign : List Char
  mark : List Char
  digits : List Char
  tail : List Char

namespace LiteralParts

def base (p : LiteralParts) : Nat := if p.mark = [] then 10 else 16

def value (p : LiteralParts) : Nat :=
  Nat.ofDigits p.base (p.digits.reverse.map fun c => (digitValue? p.base c).getD 0)

def signedValue (p : LiteralParts) : Int := if p.sign = ['-'] then -(p.value : Int) else p.value

/-- Whether a text consists of these parts, each of which takes in all that it can. -/
structure AreOf (p : LiteralParts) (text : List Char) : Prop where
  text_eq : p.spaces ++ (p.sign ++ (p.mark ++ (p.digits ++ p.tail))) = text
  spaces : ∀ c ∈ p.spaces, c = ' ' ∨ c = '\t'
  all_spaces : ∀ c ∈ (p.sign ++ (p.mark ++ (p.digits ++ p.tail))).head?, c ≠ ' ' ∧ c ≠ '\t'
  sign : p.sign = [] ∨ p.sign = ['+'] ∨ p.sign = ['-']
  any_sign : p.sign = [] → ∀ c ∈ (p.mark ++ (p.digits ++ p.tail)).head?, c ≠ '+' ∧ c ≠ '-'
  mark : p.mark = [] ∨ p.mark = ['0', 'x'] ∨ p.mark = ['0', 'X']
  any_mark : p.mark = [] →
    ¬ ['0', 'x'] <+: p.digits ++ p.tail ∧ ¬ ['0', 'X'] <+: p.digits ++ p.tail
  digits : ∀ c ∈ p.digits, isDigit p.base c = true
  all_digits : ∀ c ∈ p.tail.head?, isDigit p.base c = false

end LiteralParts

theorem exists_areOf (text : List Char) : ∃ p : LiteralParts, p.AreOf text := by
  obtain ⟨spaces, hskipped, hspaces, hnospace⟩ := exists_spaces text
  obtain ⟨sign, hsign, hsigns, hany⟩ := exists_sign (skipSpaces text)
  obtain ⟨mark, hmark, hmarks, hbase, hno⟩ := exists_mark (splitSign (skipSpaces text)).2
  generalize hrest : splitBase (splitSign (skipSpaces text)).2 = rest at *
  obtain ⟨base, rest⟩ := rest
  dsimp only at hmark hbase hno
  have hparts : rest.takeWhile (isDigit base) ++ rest.dropWhile (isDigit base) = rest :=
    List.takeWhile_append_dropWhile
  refine ⟨⟨spaces, sign, mark, rest.takeWhile (isDigit base), rest.dropWhile (isDigit base)⟩, ?_,
    hspaces, ?_, hsigns, ?_, hmarks, ?_, ?_, ?_⟩
  · rw [hparts, hmark, hsign, hskipped]
  · rwa [hparts, hmark, hsign]
  · rw [hparts, hmark]
    exact hany
  · rw [hparts]
    exact hno
  · rw [LiteralParts.base, ← hbase]
    exact fun c hc => List.all_eq_true.1 List.all_takeWhile c hc
  · rw [LiteralParts.base, ← hbase]
    exact fun c hc => not_of_head?_dropWhile hc

namespace LiteralParts

variable {p q : LiteralParts} {text : List Char}

theorem AreOf.skipSpaces_eq (h : p.AreOf text) :
    skipSpaces text = p.sign ++ (p.mark ++ (p.digits ++ p.tail)) := by
  rw [← h.text_eq]
  refine (span_append (fun c hc => ?_) fun c hc => ?_).2
  · simpa using h.spaces c hc
  · simpa using h.all_spaces c hc

theorem AreOf.splitSign_eq (h : p.AreOf text) :
    splitSign (p.sign ++ (p.mark ++ (p.digits ++ p.tail))) =
      (decide (p.sign = ['-']), p.mark ++ (p.digits ++ p.tail)) := by
  have hany := h.any_sign
  rcases h.sign with hsign | hsign | hsign
  · rw [hsign]
    generalize p.mark ++ (p.digits ++ p.tail) = rest at *
    cases rest with
    | nil => rfl
    | cons c rest =>
      obtain ⟨hplus, hminus⟩ := hany hsign c rfl
      simp [splitSign, hplus, hminus]
  · rw [hsign]
    rfl
  · rw [hsign]
    rfl

theorem AreOf.splitBase_eq (h : p.AreOf text) :
    splitBase (p.mark ++ (p.digits ++ p.tail)) = (p.base, p.digits ++ p.tail) := by
  rw [base]
  rcases h.mark with hmark | hmark | hmark
  · obtain ⟨hlower, hupper⟩ := h.any_mark hmark
    rw [hmark]
    rcases splitBase_cases (p.digits ++ p.tail) with ⟨x, rest, rfl | rfl, heq, -⟩ | ⟨-, hsplit⟩
    · exact (hlower (heq ▸ ⟨rest, rfl⟩)).elim
    · exact (hupper (heq ▸ ⟨rest, rfl⟩)).elim
    · exact hsplit
  · rw [hmark]
    rfl
  · rw [hmark]
    rfl

theorem AreOf.ofText_eq (h : p.AreOf text) :
    IntegerLiteral.ofText text = ⟨decide (p.sign = ['-']), p.base, p.digits, p.tail⟩ := by
  obtain ⟨hdigits, htail⟩ := span_append h.digits h.all_digits
  rw [IntegerLiteral.ofText, h.skipSpaces_eq, h.splitSign_eq]
  dsimp only
  rw [h.splitBase_eq]
  dsimp only
  rw [hdigits, htail]

/-- A text is cut into its parts in one way. -/
theorem AreOf.unique (hp : p.AreOf text) (hq : q.AreOf text) : p = q := by
  obtain ⟨spaces, sign, mark, digits, tail⟩ := p
  obtain ⟨otherSpaces, otherSign, otherMark, otherDigits, otherTail⟩ := q
  obtain ⟨-, -, rfl, rfl⟩ := IntegerLiteral.mk.inj (hp.ofText_eq.symm.trans hq.ofText_eq)
  have hsigned := hp.skipSpaces_eq.symm.trans hq.skipSpaces_eq
  have hunsigned := hp.splitSign_eq.symm.trans ((congrArg splitSign hsigned).trans hq.splitSign_eq)
  have htext := hp.text_eq.trans hq.text_eq.symm
  dsimp only at hsigned hunsigned htext
  obtain ⟨-, hmarked⟩ := Prod.mk.inj hunsigned
  rw [hsigned] at htext
  rw [hmarked] at hsigned
  rw [List.append_cancel_right htext, List.append_cancel_right hsigned,
    List.append_cancel_right hmarked]

section Readers

variable {width : Nat}

theorem AreOf.magnitudeWithin_eq (h : p.AreOf text) (width : Nat) :
    (IntegerLiteral.ofText text).magnitudeWithin width =
      if p.digits = [] then .error .noDigits
      else if p.value < 2 ^ width then .ok p.value
      else .error .tooLarge := by
  rw [h.ofText_eq, IntegerLiteral.magnitudeWithin, IntegerLiteral.magnitude,
    digitsValue_eq_ofDigits]
  rfl

theorem AreOf.readUnsigned_eq (h : p.AreOf text) :
    readUnsigned width text =
      if p.digits = [] then .error .noDigits
      else if 2 ^ width ≤ p.value then .error .tooLarge
      else if p.sign = ['-'] then .error .negated
      else .ok (p.value, p.tail) := by
  rw [readUnsigned, h.magnitudeWithin_eq, h.ofText_eq]
  by_cases hdigits : p.digits = []
  · rw [if_pos hdigits, if_pos hdigits]
    rfl
  · by_cases hlarge : 2 ^ width ≤ p.value
    · rw [if_neg hdigits, if_neg hdigits, if_neg (Nat.not_lt.2 hlarge), if_pos hlarge]
      rfl
    · rw [if_neg hdigits, if_neg hdigits, if_pos (Nat.not_le.1 hlarge), if_neg hlarge]
      simp [bind, Except.bind]

theorem AreOf.readSigned_eq (h : p.AreOf text) :
    readSigned width text =
      if p.digits = [] then .error .noDigits
      else if 2 ^ width ≤ p.value then .error .tooLarge
      else if -2 ^ (width - 1) ≤ p.signedValue ∧ p.signedValue ≤ 2 ^ (width - 1) - 1 then
        .ok (p.signedValue, p.tail)
      else .error .signedRange := by
  have hhalf : twoPow (width - 1) = 2 ^ (width - 1) := rfl
  have hpos := Nat.two_pow_pos (width - 1)
  have hcast : ((2 ^ (width - 1) : Nat) : Int) = 2 ^ (width - 1) := by push_cast; rfl
  rw [readSigned, h.magnitudeWithin_eq, h.ofText_eq, hhalf, signedValue, ← hcast]
  generalize 2 ^ (width - 1) = half at *
  by_cases hdigits : p.digits = []
  · rw [if_pos hdigits, if_pos hdigits]
    rfl
  · by_cases hlarge : 2 ^ width ≤ p.value
    · rw [if_neg hdigits, if_neg hdigits, if_neg (Nat.not_lt.2 hlarge), if_pos hlarge]
      rfl
    · rw [if_neg hdigits, if_neg hdigits, if_pos (Nat.not_le.1 hlarge), if_neg hlarge]
      simp only [bind, Except.bind, decide_eq_true_eq]
      by_cases hminus : p.sign = ['-']
      · rw [if_pos hminus, if_pos hminus]
        grind
      · rw [if_neg hminus, if_neg hminus]
        grind

theorem not_inRange_of_large (hwidth : 0 < width) (hlarge : 2 ^ width ≤ p.value) :
    ¬ (-2 ^ (width - 1) ≤ p.signedValue ∧ p.signedValue ≤ 2 ^ (width - 1) - 1) := by
  have hrange : (2 : Int) ^ width = 2 * 2 ^ (width - 1) := by
    rw [← pow_succ', Nat.sub_add_cancel hwidth]
  have hcast : (2 : Int) ^ width ≤ p.value := by exact_mod_cast hlarge
  have hpos : (0 : Int) < 2 ^ (width - 1) := by positivity
  unfold signedValue
  split <;> omega

theorem AreOf.readUnsigned_eq_ok_iff (h : p.AreOf text) {n : Nat} {tail : List Char} :
    readUnsigned width text = .ok (n, tail) ↔
      p.digits ≠ [] ∧ p.sign ≠ ['-'] ∧ n = p.value ∧ n < 2 ^ width ∧ tail = p.tail := by
  rw [h.readUnsigned_eq]
  grind

theorem AreOf.overflow_readUnsigned_iff (h : p.AreOf text) :
    (∃ e, readUnsigned width text = .error e ∧ e.isOverflow = true) ↔
      p.digits ≠ [] ∧ 2 ^ width ≤ p.value := by
  rw [h.readUnsigned_eq]
  grind [LiteralError.isOverflow]

theorem AreOf.readSigned_eq_ok_iff (hwidth : 0 < width) (h : p.AreOf text) {i : Int}
    {tail : List Char} :
    readSigned width text = .ok (i, tail) ↔ p.digits ≠ [] ∧ i = p.signedValue ∧
      -2 ^ (width - 1) ≤ i ∧ i ≤ 2 ^ (width - 1) - 1 ∧ tail = p.tail := by
  have hlarge := not_inRange_of_large (p := p) hwidth
  rw [h.readSigned_eq]
  grind

theorem AreOf.overflow_readSigned_iff (hwidth : 0 < width) (h : p.AreOf text) :
    (∃ e, readSigned width text = .error e ∧ e.isOverflow = true) ↔
      p.digits ≠ [] ∧ ¬ (-2 ^ (width - 1) ≤ p.signedValue ∧
        p.signedValue ≤ 2 ^ (width - 1) - 1) := by
  have hlarge := not_inRange_of_large (p := p) hwidth
  rw [h.readSigned_eq]
  grind [LiteralError.isOverflow]

theorem AreOf.isHexLiteral_iff (h : p.AreOf text) : isHexLiteral text = true ↔ p.base = 16 := by
  rw [isHexLiteral, h.skipSpaces_eq, h.splitSign_eq]
  dsimp only
  rw [h.splitBase_eq, beq_iff_eq]

end Readers

end LiteralParts

/-- A word that is no greater than the half of its range is negated by its complement, the half
itself included, which is its own negative. -/
theorem toInt_not_add_one {width m : Nat} (hwidth : 0 < width) (hm : m ≤ 2 ^ (width - 1)) :
    (~~~BitVec.ofNat width m + BitVec.ofNat width 1).toInt = -(m : Int) := by
  have hrange : 2 ^ width = 2 * 2 ^ (width - 1) := by
    rw [← Nat.pow_succ', Nat.succ_eq_add_one, Nat.sub_add_cancel hwidth]
  have hpos := Nat.two_pow_pos (width - 1)
  have hword : (BitVec.ofNat width m).toNat = m := by
    rw [BitVec.toNat_ofNat, Nat.mod_eq_of_lt (by omega)]
  rw [← BitVec.neg_eq_not_add, BitVec.toInt_eq_toNat_cond, BitVec.toNat_neg, hword, hrange]
  rcases Nat.eq_zero_or_pos m with rfl | hpositive
  · rw [Nat.sub_zero, Nat.mod_self, if_pos (by omega)]
    rfl
  · rw [Nat.mod_eq_of_lt (by omega), if_neg (by omega)]
    omega

/-- The signed number of a width at the start of a text as a word, and the text behind it. The
magnitude is read as an unsigned word, which is compared with the greatest signed one and negated by
its complement. -/
def readSignedWord (width : Nat) (text : List Char) :
    Except LiteralError (BitVec width × List Char) := do
  let literal := IntegerLiteral.ofText text
  let magnitude ← literal.magnitudeWithin width
  let word := BitVec.ofNat width magnitude
  if literal.negative then
    if BitVec.intMax width + BitVec.ofNat width 1 < word then .error .signedRange
    else .ok (~~~word + BitVec.ofNat width 1, literal.tail)
  else if BitVec.intMax width < word then .error .signedRange
  else .ok (word, literal.tail)

theorem IntegerLiteral.lt_of_magnitudeWithin {literal : IntegerLiteral} {width m : Nat}
    (h : literal.magnitudeWithin width = .ok m) : m < 2 ^ width := by
  unfold magnitudeWithin at h
  split at h
  · cases h
  · split at h
    · next hlt =>
      cases h
      exact hlt
    · cases h

/-- Reading a signed number by way of unsigned words never wraps it. -/
theorem readSigned_eq_map_word {width : Nat} (hwidth : 0 < width) (text : List Char) :
    readSigned width text = (readSignedWord width text).map fun p => (p.1.toInt, p.2) := by
  have hrange : 2 ^ width = 2 * 2 ^ (width - 1) := by
    rw [← Nat.pow_succ', Nat.succ_eq_add_one, Nat.sub_add_cancel hwidth]
  have hpos := Nat.two_pow_pos (width - 1)
  have hhalf : twoPow (width - 1) = 2 ^ (width - 1) := rfl
  have hmax : (BitVec.intMax width).toNat = 2 ^ (width - 1) - 1 := BitVec.toNat_intMax
  have hnext : (BitVec.intMax width + BitVec.ofNat width 1).toNat = 2 ^ (width - 1) := by
    rw [BitVec.toNat_add, hmax, BitVec.toNat_ofNat, Nat.add_mod_mod, Nat.sub_add_cancel hpos]
    exact Nat.mod_eq_of_lt (by omega)
  rw [readSigned, readSignedWord]
  generalize IntegerLiteral.ofText text = literal
  cases hliteral : literal.magnitudeWithin width with
  | error e => rfl
  | ok m =>
    have hm := IntegerLiteral.lt_of_magnitudeWithin hliteral
    have hword : (BitVec.ofNat width m).toNat = m := by
      rw [BitVec.toNat_ofNat, Nat.mod_eq_of_lt hm]
    simp only [bind, Except.bind, BitVec.lt_def, hnext, hmax, hword, hhalf]
    cases literal.negative with
    | true =>
      rw [if_pos rfl, if_pos rfl]
      by_cases hlarge : 2 ^ (width - 1) < m
      · rw [if_pos hlarge, if_pos hlarge]
        rfl
      · rw [if_neg hlarge, if_neg hlarge, Except.map,
          toInt_not_add_one hwidth (Nat.not_lt.1 hlarge)]
    | false =>
      rw [if_neg Bool.false_ne_true, if_neg Bool.false_ne_true]
      by_cases hlarge : 2 ^ (width - 1) ≤ m
      · rw [if_pos hlarge, if_pos (by omega)]
        rfl
      · have htwice : 2 * (BitVec.ofNat width m).toNat < 2 ^ width := by omega
        rw [if_neg hlarge, if_neg (by omega), Except.map, BitVec.toInt_eq_toNat_of_lt htwice, hword]

/-- What the readers of integers give is settled by the only parts that a text has. A number is read
exactly if there are digits and the number is in the range of the width, and then it is neither
wrapped nor cut; an overflow is reported exactly if there are digits that are out of range. The
signed number is the one that its two's complement stands for. -/
theorem exists_parts_of_integer {width : Nat} (hwidth : 0 < width) (text : List Char) :
    ∃ p : LiteralParts, p.AreOf text ∧ (∀ q : LiteralParts, q.AreOf text → q = p) ∧
      (∀ n tail, readUnsigned width text = .ok (n, tail) ↔
        p.digits ≠ [] ∧ p.sign ≠ ['-'] ∧ n = p.value ∧ n < 2 ^ width ∧ tail = p.tail) ∧
      ((∃ e, readUnsigned width text = .error e ∧ e.isOverflow = true) ↔
        p.digits ≠ [] ∧ 2 ^ width ≤ p.value) ∧
      (∀ i tail, readSigned width text = .ok (i, tail) ↔
        p.digits ≠ [] ∧ i = p.signedValue ∧ -2 ^ (width - 1) ≤ i ∧ i ≤ 2 ^ (width - 1) - 1 ∧
          tail = p.tail) ∧
      ((∃ e, readSigned width text = .error e ∧ e.isOverflow = true) ↔
        p.digits ≠ [] ∧ ¬ (-2 ^ (width - 1) ≤ p.signedValue ∧
          p.signedValue ≤ 2 ^ (width - 1) - 1)) ∧
      (readSigned width text = (readSignedWord width text).map fun w => (w.1.toInt, w.2)) ∧
      (isHexLiteral text = true ↔ p.base = 16) := by
  obtain ⟨p, hp⟩ := exists_areOf text
  exact ⟨p, hp, fun q hq => hq.unique hp, fun _ _ => hp.readUnsigned_eq_ok_iff,
    hp.overflow_readUnsigned_iff, fun _ _ => hp.readSigned_eq_ok_iff hwidth,
    hp.overflow_readSigned_iff hwidth, readSigned_eq_map_word hwidth text, hp.isHexLiteral_iff⟩

/-- The least number of eight bits, in base sixteen: its magnitude is no number of its own. -/
theorem exists_parts_of_integer_least :
    0 < 8 ∧ ∃ p : LiteralParts, p.AreOf " \t-0x80 after".toList ∧
      p = ⟨" \t".toList, ['-'], ['0', 'x'], ['8', '0'], " after".toList⟩ ∧
      readSigned 8 " \t-0x80 after".toList = .ok (-128, " after".toList) ∧
      readSignedWord 8 " \t-0x80 after".toList = .ok (0x80#8, " after".toList) ∧
      (∀ n tail, readUnsigned 8 " \t-0x80 after".toList ≠ .ok (n, tail)) ∧
      (¬ ∃ e, readUnsigned 8 " \t-0x80 after".toList = .error e ∧ e.isOverflow = true) ∧
      isHexLiteral " \t-0x80 after".toList = true := by
  obtain ⟨p, hp, hunique, hunsigned, hoverflow, hsigned, -, -, hbase⟩ :=
    exists_parts_of_integer (by decide : 0 < 8) " \t-0x80 after".toList
  have hparts : LiteralParts.AreOf ⟨" \t".toList, ['-'], ['0', 'x'], ['8', '0'], " after".toList⟩
      " \t-0x80 after".toList := by
    refine ⟨rfl, by simp, by simp, by simp, by simp, by simp, by simp, ?digits, ?tail⟩
    case digits => exact List.forall_mem_cons.2 ⟨rfl, List.forall_mem_singleton.2 rfl⟩
    case tail =>
      intro c hc
      obtain rfl := Option.mem_some.1 hc
      rfl
  obtain rfl := hunique _ hparts
  refine ⟨by decide, _, hp, rfl, (hsigned _ _).2 ?_, by decide, ?_, ?_, hbase.2 rfl⟩
  · decide
  · intro n tail hread
    exact ((hunsigned n tail).1 hread).2.1 rfl
  · rw [hoverflow]
    decide

end GpuScript
