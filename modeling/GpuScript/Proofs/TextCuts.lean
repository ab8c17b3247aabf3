import GpuScript.Blank
import GpuScript.FloatLiteral
import GpuScript.TokenReplacement
import Mathlib.Data.String.Basic
import Mathlib.Logic.Relation

/-!
# Cuts of a text

The readers cut a text at positions counted in bytes of its UTF-8 form, and some of them count
characters instead. Every such position is at the end of a character of the text, since what stands
before it was either found as a piece of the text or is made of one-byte characters.
-/

namespace GpuScript

open String (utf8Len)

/-- A text cut at a number of bytes, if a character ends there. -/
def cutAt? : List Char → Nat → Option (List Char × List Char)
  | text, 0 => some ([], text)
  | [], _ + 1 => none
  | c :: rest, n + 1 =>
    if c.utf8Size ≤ n + 1 then
      (cutAt? rest (n + 1 - c.utf8Size)).map fun pieces => (c :: pieces.1, pieces.2)
    else none

theorem cutAt?_append (head tail : List Char) :
    cutAt? (head ++ tail) (utf8Len head) = some (head, tail) := by
  induction head with
  | nil => cases tail <;> rfl
  | cons c more ih =>
    have hpos := c.utf8Size_pos
    obtain ⟨n, hn⟩ : ∃ n, utf8Len (c :: more) = n + 1 :=
      ⟨utf8Len (c :: more) - 1, by rw [String.utf8Len_cons]; omega⟩
    have hlength := hn
    rw [String.utf8Len_cons] at hlength
    rw [hn, List.cons_append, cutAt?, if_pos (by omega),
      show n + 1 - c.utf8Size = utf8Len more by omega, ih]
    rfl

theorem utf8Len_eq_length {text : List Char} (h : ∀ c ∈ text, c.toNat < 128) :
    utf8Len text = text.length := by
  induction text with
  | nil => rfl
  | cons c rest ih =>
    have hc : c.utf8Size = 1 := by
      refine Char.utf8Size_eq_one_iff.2 (UInt32.le_iff_toNat_le.2 ?_)
      exact Nat.le_of_lt_succ (h c (List.mem_cons_self ..))
    rw [String.utf8Len_cons, List.length_cons, hc, ih fun d hd => h d (List.mem_cons_of_mem c hd)]

/-- Whether a text starts with a number of one-byte characters. -/
structure AsciiUpTo (text : List Char) (n : Nat) : Prop where
  le : n ≤ text.length
  ascii : ∀ c ∈ text.take n, c.toNat < 128

namespace AsciiUpTo

variable {text : List Char} {n m : Nat}

theorem cutAt? (h : AsciiUpTo text n) (hm : m ≤ n) :
    GpuScript.cutAt? text m = some (text.take m, text.drop m) := by
  have hlength : utf8Len (text.take m) = m := by
    rw [utf8Len_eq_length, List.length_take, Nat.min_eq_left (Nat.le_trans hm h.le)]
    intro c hc
    rw [← Nat.min_eq_left hm, ← List.take_take] at hc
    exact h.ascii c (List.mem_of_mem_take hc)
  have hcut := cutAt?_append (text.take m) (text.drop m)
  rwa [List.take_append_drop, hlength] at hcut

theorem zero (text : List Char) : AsciiUpTo text 0 := ⟨Nat.zero_le _, by simp⟩

theorem add (h : AsciiUpTo text n) (h' : AsciiUpTo (text.drop n) m) : AsciiUpTo text (n + m) := by
  have hle := h'.le
  rw [List.length_drop] at hle
  refine ⟨by have := h.le; omega, ?_⟩
  intro c hc
  rw [List.take_add, List.mem_append] at hc
  exact hc.elim (h.ascii c) (h'.ascii c)

theorem cons {c : Char} (hc : c.toNat < 128) (h : AsciiUpTo text n) :
    AsciiUpTo (c :: text) (1 + n) :=
  .add ⟨by simp, by simpa using hc⟩ h

theorem takeWhile {p : Char → Bool} (hp : ∀ c, p c = true → c.toNat < 128) (text : List Char) :
    AsciiUpTo text (text.takeWhile p).length := by
  refine ⟨(List.takeWhile_prefix p).length_le, ?_⟩
  intro c hc
  rw [← List.prefix_iff_eq_take.1 (List.takeWhile_prefix p)] at hc
  exact hp c (List.all_eq_true.1 List.all_takeWhile c hc)

end AsciiUpTo

theorem asciiUpTo_digits (text : List Char) :
    AsciiUpTo text (text.takeWhile isDecimalDigit).length :=
  .takeWhile (fun _ h => (toNat_bounds_of_isDigit h).2) text

theorem asciiUpTo_sign (text : List Char) : AsciiUpTo text (signLength text) := by
  unfold signLength
  split
  · exact .cons (by decide) (.zero _)
  · exact .cons (by decide) (.zero _)
  · exact .zero _

theorem toNat_lt_of_toLower {c : Char} (h : c.toLower.toNat < 128) : c.toNat < 128 := by
  unfold Char.toLower at h
  split at h
  · next hupper =>
    have hle := UInt32.le_iff_toNat_le.1 hupper.2
    exact Nat.lt_of_le_of_lt hle (by decide)
  · exact h

theorem asciiUpTo_specialName {text name : List Char} (h : specialName? text = some name) :
    AsciiUpTo text name.length := by
  have hascii : (specialNames.all fun name => name.all fun c => c.toNat < 128) = true := by
    decide
  have hletters := List.all_eq_true.1 (List.all_eq_true.1 hascii name (List.mem_of_find?_eq_some h))
  have heq : (text.take name.length).map Char.toLower = name := by
    simpa using List.find?_some h
  have hlength := congrArg List.length heq
  rw [List.length_map, List.length_take] at hlength
  refine ⟨by omega, ?_⟩
  intro c hc
  apply toNat_lt_of_toLower
  have hlower : c.toLower ∈ name := heq ▸ List.mem_map_of_mem hc
  exact of_decide_eq_true (hletters _ hlower)

theorem asciiUpTo_number {text : List Char} {length : Nat} (h : numberLength? text = some length) :
    AsciiUpTo text length := by
  have hwhole := asciiUpTo_digits text
  simp only [numberLength?] at h
  split at h
  · next rest hrest =>
    split at h
    · cases h
    · cases h
      rw [Nat.add_assoc]
      refine hwhole.add ?_
      rw [hrest]
      exact .cons (by decide) (asciiUpTo_digits rest)
  · split at h
    · cases h
    · cases h
      exact hwhole

theorem asciiUpTo_exponent (text : List Char) : AsciiUpTo text (exponentLength text) := by
  have hmark : ∀ {c : Char} {rest : List Char}, c.toNat < 128 →
      AsciiUpTo (c :: rest) (1 + signLength rest +
        ((rest.drop (signLength rest)).takeWhile isDecimalDigit).length) := by
    intro c rest hc
    rw [Nat.add_assoc]
    exact .cons hc ((asciiUpTo_sign rest).add (asciiUpTo_digits _))
  unfold exponentLength
  split
  · dsimp only
    split
    · exact .zero _
    · exact hmark (by decide)
  · dsimp only
    split
    · exact .zero _
    · exact hmark (by decide)
  · exact .zero _

theorem asciiUpTo_unsignedFloat (text : List Char) :
    AsciiUpTo text (unsignedFloatLength text) := by
  unfold unsignedFloatLength
  split
  · next name h => exact asciiUpTo_specialName h
  · split
    · next length h => exact (asciiUpTo_number h).add (asciiUpTo_exponent _)
    · exact .zero _

theorem asciiUpTo_float (text : List Char) :
    AsciiUpTo (skipSpaces text) (splitFloat text).1.length := by
  have h := (asciiUpTo_sign (skipSpaces text)).add (asciiUpTo_unsignedFloat _)
  have hlength := h.le
  simp only [splitFloat, List.splitAt_eq, List.length_take, Nat.min_eq_left hlength]
  exact h

theorem cutAt?_nextWord {text word rest : List Char} (h : nextWord? text = some (word, rest)) :
    cutAt? (trimStart text) (utf8Len word) = some (word, rest) := by
  unfold nextWord? at h
  split at h
  · cases h
  · next c tail htrim =>
    cases h
    have hcut := cutAt?_append (leadingWord (c :: tail)) (afterLeadingWord (c :: tail))
    rw [leadingWord, afterLeadingWord, List.takeWhile_append_dropWhile] at hcut
    rw [htrim]
    exact hcut

theorem trimEnd_append_cons {c : Char} (hc : isBlank c = false) (text tail : List Char) :
    trimEnd (text ++ c :: tail) = text ++ c :: trimEnd tail := by
  rw [trimEnd, trimEnd, List.reverse_append, List.reverse_cons, List.append_assoc,
    List.dropWhile_append]
  split
  · next hempty =>
    rw [List.isEmpty_iff.1 hempty]
    simp [hc]
  · simp

theorem exists_rule_of_replaceStart? {rules : List TokenReplacement} {text next : List Char}
    (h : replaceStart? rules text = some next) :
    ∃ rule ∈ rules, ∃ tail, text = rule.token ++ tail ∧ next = rule.replacement ++ tail := by
  obtain ⟨rule, hrule, hreplace⟩ := List.exists_of_findSome?_eq_some h
  obtain ⟨tail, hprefix, rfl⟩ := Option.map_eq_some_iff.1 hreplace
  exact ⟨rule, hrule, tail, (List.append_eq_of_isPrefixOf?_eq_some hprefix).symm, rfl⟩

/-- A text in which tokens are replaced, and the position that this has come to, in bytes. -/
structure TokenScan where
  text : List Char
  position : Nat

namespace TokenScan

variable {rules : List TokenReplacement} {scan scan' : TokenScan}

/-- A step with some rules: one of them is applied at the position, or the position moves on past
a character. -/
inductive Step (rules : List TokenReplacement) (scan : TokenScan) : TokenScan → Prop
  | replace (rule : TokenReplacement) (done tail : List Char) (hrule : rule ∈ rules)
      (hcut : cutAt? scan.text scan.position = some (done, rule.token ++ tail)) :
      Step rules scan ⟨done ++ (rule.replacement ++ tail), scan.position⟩
  | move (c : Char) (done tail : List Char)
      (hcut : cutAt? scan.text scan.position = some (done, c :: tail)) :
      Step rules scan ⟨scan.text, scan.position + c.utf8Size⟩

def Inside (scan : TokenScan) : Prop :=
  ∃ done rest, scan.text = done ++ rest ∧ scan.position = utf8Len done

theorem inside_start (text : List Char) : Inside ⟨text, 0⟩ := ⟨[], text, rfl, rfl⟩

theorem Inside.cut (h : Inside scan) {done rest : List Char}
    (hcut : cutAt? scan.text scan.position = some (done, rest)) :
    scan.text = done ++ rest ∧ scan.position = utf8Len done := by
  obtain ⟨done', rest', htext, hposition⟩ := h
  have hcut' := cutAt?_append done' rest'
  rw [← htext, ← hposition, hcut] at hcut'
  obtain ⟨rfl, rfl⟩ := Prod.mk.inj (Option.some.inj hcut')
  exact ⟨htext, hposition⟩

theorem Inside.step (h : Inside scan) (hstep : Step rules scan scan') : Inside scan' := by
  cases hstep with
  | replace rule done tail hrule hcut =>
    exact ⟨done, rule.replacement ++ tail, rfl, (h.cut hcut).2⟩
  | move c done tail hcut =>
    obtain ⟨htext, hposition⟩ := h.cut hcut
    refine ⟨done ++ [c], tail, by simpa using htext, ?_⟩
    rw [String.utf8Len_append, String.utf8Len_cons, String.utf8Len_nil, hposition, Nat.zero_add]

/-- The position never leaves the ends of characters, whatever rules are applied on the way. -/
theorem Inside.steps (h : Inside scan) (hsteps : Relation.ReflTransGen (Step rules) scan scan') :
    Inside scan' := by
  induction hsteps with
  | refl => exact h
  | tail _ hstep ih => exact ih.step hstep

/-- What replacing reads and cuts out at a position: the text from there on, and a token that it
starts with. -/
structure CutsThere (rules : List TokenReplacement) (scan : TokenScan) : Prop where
  here : ∃ done rest, cutAt? scan.text scan.position = some (done, rest)
  token : ∀ rule ∈ rules, ∀ done tail,
    cutAt? scan.text scan.position = some (done, rule.token ++ tail) →
      cutAt? scan.text (scan.position + utf8Len rule.token) = some (done ++ rule.token, tail)

theorem Inside.cutsThere (h : Inside scan) : CutsThere rules scan := by
  refine ⟨?_, ?_⟩
  · obtain ⟨done, rest, htext, hposition⟩ := h
    exact ⟨done, rest, by rw [htext, hposition, cutAt?_append]⟩
  · intro rule _ done tail hcut
    obtain ⟨htext, hposition⟩ := h.cut hcut
    rw [htext, hposition, ← List.append_assoc, ← String.utf8Len_append]
    exact cutAt?_append (done ++ rule.token) tail

variable {left after : Nat} {text out : List Char}

theorem steps_settleStart (done : List Char)
    (h : settleStart rules left text = some (after, out)) :
    Relation.ReflTransGen (Step rules) ⟨done ++ text, utf8Len done⟩
      ⟨done ++ out, utf8Len done⟩ := by
  induction left generalizing text with
  | zero =>
    unfold settleStart at h
    split at h
    · cases h
      exact .refl
    · cases h
    · next heq => cases heq
  | succ left ih =>
    unfold settleStart at h
    split at h
    · cases h
      exact .refl
    · cases h
    · next settled hstart heq =>
      obtain rfl := Nat.succ.inj heq
      obtain ⟨rule, hrule, tail, rfl, rfl⟩ := exists_rule_of_replaceStart? hstart
      exact .head (.replace rule done tail hrule (cutAt?_append _ _)) (ih h)

theorem steps_replaceTokens (done : List Char) (h : replaceTokens rules left text = some out) :
    Relation.ReflTransGen (Step rules) ⟨done ++ text, utf8Len done⟩
      ⟨done ++ out, utf8Len (done ++ out)⟩ := by
  induction left, text using replaceTokens.induct rules generalizing done out with
  | case1 left =>
    rw [replaceTokens] at h
    cases h
    rw [List.append_nil]
  | case2 left c rest hsettle =>
    rw [replaceTokens, hsettle] at h
    cases h
  | case3 left c rest after hsettle =>
    rw [replaceTokens, hsettle] at h
    cases h
    rw [List.append_nil]
    simpa using steps_settleStart done hsettle
  | case4 left c rest after d tail hsettle ih =>
    -- The first character stays, and the rest is replaced behind it.
    rw [replaceTokens, hsettle] at h
    obtain ⟨more, hmore, rfl⟩ := Option.map_eq_some_iff.1 h
    have hsettled := steps_settleStart done hsettle
    have hmove : Step rules ⟨done ++ d :: tail, utf8Len done⟩
        ⟨done ++ d :: tail, utf8Len done + d.utf8Size⟩ :=
      .move d done tail (cutAt?_append done (d :: tail))
    have hmore := ih (done ++ [d]) hmore
    rw [String.utf8Len_append, String.utf8Len_cons, String.utf8Len_nil, Nat.zero_add,
      List.append_assoc, List.append_assoc] at hmore
    exact (hsettled.tail hmove).trans hmore

end TokenScan

/-- Whether every cut that the readers make in a text, with some rules, is where a character ends
and gives the pieces that they go on with. -/
structure CutsInside (rules : List TokenReplacement) (text : List Char) : Prop where
  mark : ∀ c rest, text = c :: rest → c = '-' ∨ c = '+' ∨ c = '[' →
    cutAt? text 1 = some ([c], rest)
  digits : ∀ base, cutAt? text (text.takeWhile (isDigit base)).length =
    some (text.takeWhile (isDigit base), text.dropWhile (isDigit base))
  float : ∀ n ≤ (splitFloat text).1.length,
    cutAt? (skipSpaces text) n = some ((skipSpaces text).splitAt n)
  word : ∀ word rest, nextWord? text = some (word, rest) →
    cutAt? (trimStart text) (utf8Len word) = some (word, rest)
  header : ∀ name tail, text = '[' :: name ++ ']' :: tail →
    cutAt? (trimEnd text) (utf8Len ('[' :: name)) = some ('[' :: name, ']' :: trimEnd tail)
  token : ∀ scan, Relation.ReflTransGen (TokenScan.Step rules) ⟨text, 0⟩ scan →
    scan.CutsThere rules
  replaced : ∀ left out, replaceTokens rules left text = some out →
    Relation.ReflTransGen (TokenScan.Step rules) ⟨text, 0⟩ ⟨out, utf8Len out⟩

theorem cutsInside (rules : List TokenReplacement) (text : List Char) : CutsInside rules text := by
  refine ⟨?_, ?_, ?_, fun _ _ => cutAt?_nextWord, ?_, ?_, ?_⟩
  · rintro c rest rfl hc
    have hascii : c.toNat < 128 := by rcases hc with rfl | rfl | rfl <;> decide
    exact (AsciiUpTo.cons hascii (.zero rest)).cutAt? (Nat.le_refl 1)
  · intro base
    have hascii : ∀ c ∈ text.takeWhile (isDigit base), c.toNat < 128 :=
      fun c hc => (toNat_bounds_of_isDigit (List.all_eq_true.1 List.all_takeWhile c hc)).2
    have hcut := cutAt?_append (text.takeWhile (isDigit base)) (text.dropWhile (isDigit base))
    rwa [List.takeWhile_append_dropWhile, utf8Len_eq_length hascii] at hcut
  · intro n hn
    rw [List.splitAt_eq]
    exact (asciiUpTo_float text).cutAt? hn
  · rintro name tail rfl
    rw [trimEnd_append_cons (by decide)]
    exact cutAt?_append ('[' :: name) (']' :: trimEnd tail)
  · intro scan hsteps
    exact ((TokenScan.inside_start text).steps hsteps).cutsThere
  · intro left out hout
    exact TokenScan.steps_replaceTokens [] hout

end GpuScript
