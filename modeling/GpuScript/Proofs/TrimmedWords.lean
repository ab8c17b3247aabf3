import GpuScript.Proofs.LeadingLiterals
import GpuScript.Proofs.StorableValues
import GpuScript.Proofs.TextCuts
import Mathlib.Data.List.DropRight
import Mathlib.Data.List.Induction
import Mathlib.Data.List.TakeWhile

/-!
# Trimmed words

Blanks around a text do not matter to its words, so a line has the same content with or without a
line feed behind it. A word that a text is asked to start with is its first word.
-/

namespace GpuScript

/-- Whether a text has characters and no blank among them. -/
def IsWord (text : List Char) : Prop := text ≠ [] ∧ ∀ c ∈ text, isBlank c = false

instance (text : List Char) : Decidable (IsWord text) :=
  decidable_of_iff (text ≠ [] ∧ text.all (fun c => !isBlank c) = true) (by simp [IsWord])

/-- Whether a word in front of a text ends there. -/
def EndsWord (text : List Char) : Prop := ∀ c, text.head? = some c → isBlank c = true

theorem nextWord?_eq_none_iff {text : List Char} :
    nextWord? text = none ↔ ∀ c ∈ text, isBlank c = true := by
  rw [← List.dropWhile_eq_nil_iff, ← trimStart]
  unfold nextWord?
  split <;> simp_all

theorem trimStart_of_word {blanks word : List Char} (hblanks : ∀ c ∈ blanks, isBlank c = true)
    (hword : IsWord word) (rest : List Char) :
    trimStart (blanks ++ (word ++ rest)) = word ++ rest := by
  obtain ⟨c, more, rfl⟩ := List.exists_cons_of_ne_nil hword.1
  rw [trimStart, List.dropWhile_append_of_pos hblanks, List.cons_append, List.dropWhile_cons,
    hword.2 c (List.mem_cons_self ..)]
  rfl

theorem nextWord?_eq_some_iff {text word rest : List Char} :
    nextWord? text = some (word, rest) ↔ ∃ blanks, text = blanks ++ (word ++ rest) ∧
      (∀ c ∈ blanks, isBlank c = true) ∧ IsWord word ∧ EndsWord rest := by
  constructor
  · intro h
    unfold nextWord? at h
    split at h
    · cases h
    · next c tail htrim =>
      obtain ⟨rfl, rfl⟩ := Prod.mk.inj (Option.some.inj h)
      have hc : isBlank c = false := not_of_head?_dropWhile (congrArg List.head? htrim)
      refine ⟨text.takeWhile isBlank, ?_, List.all_eq_true.1 List.all_takeWhile, ⟨?_, ?_⟩, ?_⟩
      · rw [leadingWord, afterLeadingWord, List.takeWhile_append_dropWhile, ← htrim]
        exact List.takeWhile_append_dropWhile.symm
      · simp [leadingWord, hc]
      · intro d hd
        simpa using List.all_eq_true.1 List.all_takeWhile d hd
      · intro d hd
        simpa using not_of_head?_dropWhile hd
  · rintro ⟨blanks, rfl, hblanks, hword, hrest⟩
    have hkept : ∀ c ∈ word, (!isBlank c) = true := fun c hc => by rw [hword.2 c hc]; rfl
    have htrim := trimStart_of_word hblanks hword rest
    obtain ⟨c, more, rfl⟩ := List.exists_cons_of_ne_nil hword.1
    rw [List.cons_append] at htrim
    have hends : rest.takeWhile (fun c => !isBlank c) = [] ∧
        rest.dropWhile (fun c => !isBlank c) = rest := by
      cases rest with
      | nil => exact ⟨rfl, rfl⟩
      | cons d tail => simp [hrest d rfl]
    simp only [nextWord?, List.cons_append, htrim, leadingWord, afterLeadingWord]
    rw [← List.cons_append, List.takeWhile_append_of_pos hkept, List.dropWhile_append_of_pos hkept,
      hends.1, hends.2, List.append_nil]

theorem leadingWord_eq_nil_iff {text : List Char} : leadingWord text = [] ↔ EndsWord text := by
  cases text with
  | nil => exact iff_of_true rfl fun c hc => by cases hc
  | cons c rest => cases hc : isBlank c <;> simp [leadingWord, EndsWord, hc]

theorem afterLeadingWord_of_endsWord {text : List Char} (h : EndsWord text) :
    afterLeadingWord text = text := by
  have hparts : leadingWord text ++ afterLeadingWord text = text :=
    List.takeWhile_append_dropWhile
  rwa [leadingWord_eq_nil_iff.2 h, List.nil_append] at hparts

theorem words_of_nextWord?_eq_none {text : List Char} (h : nextWord? text = none) :
    words text = [] := by
  rw [words]
  split
  · rfl
  · next hsome =>
    rw [h] at hsome
    cases hsome

theorem words_eq_nil_iff {text : List Char} : words text = [] ↔ ∀ c ∈ text, isBlank c = true := by
  rw [← nextWord?_eq_none_iff]
  refine ⟨fun h => ?_, words_of_nextWord?_eq_none⟩
  cases hnext : nextWord? text with
  | none => rfl
  | some p =>
    rw [words_of_nextWord? hnext] at h
    cases h

theorem endsWord_of_words_eq_nil {text : List Char} (h : words text = []) : EndsWord text :=
  fun c hc => words_eq_nil_iff.1 h c (List.mem_of_mem_head? hc)

theorem exists_word_iff_endsWord {width n : Nat} {text tail : List Char}
    (h : readUnsigned width text = .ok (n, tail)) :
    ∃ word, words text = word :: words (afterLeadingWord tail) ∧
      (wholeToken? (readUnsigned width) word = some n ↔ EndsWord tail) := by
  obtain ⟨word, hwords, hword⟩ := words_of_readUnsigned h
  refine ⟨word, hwords, ?_⟩
  rw [Value.wholeToken?_eq_some_iff, hword, ← leadingWord_eq_nil_iff]
  simp

theorem isWord_of_mem_words {text word : List Char} (h : word ∈ words text) : IsWord word := by
  induction text using words.induct with
  | case1 text hnone =>
    rw [words_of_nextWord?_eq_none hnone] at h
    cases h
  | case2 text first rest hnext ih =>
    rw [words_of_nextWord? hnext] at h
    rcases List.mem_cons.1 h with rfl | h
    · obtain ⟨blanks, -, -, hword, -⟩ := nextWord?_eq_some_iff.1 hnext
      exact hword
    · exact ih h

theorem trimEnd_eq_nil_iff {text : List Char} : trimEnd text = [] ↔ words text = [] := by
  rw [words_eq_nil_iff, trimEnd, List.reverse_eq_nil_iff, List.dropWhile_eq_nil_iff]
  simp

section Blanks

variable {c : Char}

theorem EndsWord.append_blank {text : List Char} (h : EndsWord text) (hc : isBlank c = true) :
    EndsWord (text ++ [c]) := by
  cases text with
  | nil =>
    rintro d ⟨⟩
    exact hc
  | cons d rest => exact h

theorem words_append_blank (hc : isBlank c = true) (text : List Char) :
    words (text ++ [c]) = words text := by
  induction text using words.induct with
  | case1 text hnone =>
    have hblanks := nextWord?_eq_none_iff.1 hnone
    rw [words_of_nextWord?_eq_none hnone, words_eq_nil_iff]
    simpa [or_imp, forall_and, hc] using hblanks
  | case2 text word rest hnext ih =>
    obtain ⟨blanks, rfl, hblanks, hword, hrest⟩ := nextWord?_eq_some_iff.1 hnext
    have hbehind : nextWord? (blanks ++ (word ++ rest) ++ [c]) = some (word, rest ++ [c]) :=
      nextWord?_eq_some_iff.2 ⟨blanks, by simp, hblanks, hword, hrest.append_blank hc⟩
    rw [words_of_nextWord? hnext, words_of_nextWord? hbehind, ih]

theorem trimEnd_append_blank (hc : isBlank c = true) (text : List Char) :
    trimEnd (text ++ [c]) = trimEnd text := by
  simp [trimEnd, hc]

theorem words_trimEnd (text : List Char) : words (trimEnd text) = words text := by
  induction text using List.reverseRecOn with
  | nil => rfl
  | append_singleton text c ih =>
    cases hc : isBlank c with
    | true => rw [trimEnd_append_blank hc, words_append_blank hc, ih]
    | false => rw [trimEnd_append_cons hc]; rfl

theorem words_trimStart (text : List Char) : words (trimStart text) = words text := by
  have hsame : nextWord? (trimStart text) = nextWord? text := by
    rw [nextWord?, nextWord?, trimStart, trimStart, List.dropWhile_idempotent]
  rw [words.eq_def, words.eq_def text]
  split <;> split <;> simp_all

theorem words_trim (text : List Char) : words (trim text) = words text := by
  rw [trim, words_trimEnd, words_trimStart]

theorem trim_append_blank (hc : isBlank c = true) (text : List Char) :
    trim (text ++ [c]) = trim text := by
  rw [trim, trim, trimStart, trimStart, List.dropWhile_append]
  split
  · next hnil => simp [List.isEmpty_iff.1 hnil, hc]
  · exact trimEnd_append_blank hc _

theorem content?_append_blank (hc : isBlank c = true) (line : List Char) :
    content? (line ++ [c]) = content? line := by
  have hcomment : c ≠ '#' := by
    rintro rfl
    cases hc
  have hsame : trim ((line ++ [c]).takeWhile (· ≠ '#')) = trim (line.takeWhile (· ≠ '#')) := by
    rw [List.takeWhile_append]
    split
    · next hall =>
      rw [(List.takeWhile_prefix _).eq_of_length hall]
      simp [hcomment, trim_append_blank hc]
    · rfl
  rw [content?, content?, hsame]

theorem words_content (line : List Char) :
    words (line.takeWhile (· ≠ '#')) = (content? line).elim [] words := by
  rw [← words_trim, content?]
  split
  · next hnil => rw [hnil, words_nil]; rfl
  · next hcons => rw [hcons]; rfl

end Blanks

theorem eq_append_of_afterWord? {word text rest : List Char}
    (h : afterWord? word text = some rest) :
    word ++ rest = trimStart text ∧ EndsWord rest := by
  unfold afterWord? at h
  split at h
  · next hstart =>
    cases h
    exact ⟨List.isPrefixOf?_eq_some_iff_append_eq.1 hstart, fun c hc => by cases hc⟩
  · next c tail hstart =>
    split at h
    · next hc =>
      cases h
      exact ⟨List.isPrefixOf?_eq_some_iff_append_eq.1 hstart, fun d hd => by cases hd; exact hc⟩
    · cases h
  · cases h

theorem afterWord?_eq_some_iff {word : List Char} (hword : IsWord word) {text rest : List Char} :
    afterWord? word text = some rest ↔ nextWord? text = some (word, rest) := by
  rw [nextWord?_eq_some_iff]
  constructor
  · intro h
    obtain ⟨htrim, hrest⟩ := eq_append_of_afterWord? h
    refine ⟨text.takeWhile isBlank, ?_, List.all_eq_true.1 List.all_takeWhile, hword, hrest⟩
    rw [htrim, trimStart, List.takeWhile_append_dropWhile]
  · rintro ⟨blanks, rfl, hblanks, -, hrest⟩
    have hstart : word.isPrefixOf? (word ++ rest) = some rest :=
      List.isPrefixOf?_eq_some_iff_append_eq.2 rfl
    rw [afterWord?, trimStart_of_word hblanks hword, hstart]
    cases rest with
    | nil => rfl
    | cons c more => exact if_pos (hrest c rfl)

/-- Asking for a word looks at the first word alone. -/
theorem afterWord?_eq {word : List Char} (hword : IsWord word) (text : List Char) :
    afterWord? word text =
      (nextWord? text).bind fun p => if p.1 = word then some p.2 else none := by
  refine Option.ext fun rest => ?_
  rw [afterWord?_eq_some_iff hword, Option.bind_eq_some_iff]
  constructor
  · intro h
    exact ⟨_, h, if_pos rfl⟩
  · rintro ⟨⟨first, behind⟩, hnext, h⟩
    split at h
    · next heq =>
      subst heq
      cases h
      exact hnext
    · cases h

theorem words_of_afterWords? {asked : List (List Char)} (hasked : ∀ word ∈ asked, IsWord word)
    {text rest : List Char} (h : afterWords? asked text = some rest) :
    words text = asked ++ words rest := by
  induction asked generalizing text with
  | nil => rw [Option.some.inj h, List.nil_append]
  | cons word more ih =>
    obtain ⟨hword, hmore⟩ := List.forall_mem_cons.1 hasked
    obtain ⟨behind, hbehind, h⟩ := Option.bind_eq_some_iff.1 h
    rw [words_of_nextWord? ((afterWord?_eq_some_iff hword).1 hbehind), ih hmore h, List.cons_append]

theorem exists_afterWords? {asked : List (List Char)} (hasked : ∀ word ∈ asked, IsWord word)
    {text : List Char} {others : List (List Char)} (h : words text = asked ++ others) :
    ∃ rest, afterWords? asked text = some rest ∧ words rest = others := by
  induction asked generalizing text with
  | nil => exact ⟨text, rfl, h⟩
  | cons word more ih =>
    obtain ⟨hword, hmore⟩ := List.forall_mem_cons.1 hasked
    cases hnext : nextWord? text with
    | none =>
      rw [words_of_nextWord?_eq_none hnext] at h
      cases h
    | some p =>
      obtain ⟨first, behind⟩ := p
      rw [words_of_nextWord? hnext] at h
      obtain ⟨rfl, hbehind⟩ := List.cons.inj h
      obtain ⟨rest, hrest, hothers⟩ := ih hmore hbehind
      refine ⟨rest, ?_, hothers⟩
      rw [afterWords?, (afterWord?_eq_some_iff hword).2 hnext]
      exact hrest

end GpuScript
