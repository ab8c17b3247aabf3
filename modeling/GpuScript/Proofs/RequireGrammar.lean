import GpuScript.Proofs.FormatLookups
import GpuScript.Proofs.HeaderWords
import GpuScript.Proofs.LiteralParts
import GpuScript.RequireLine

/-!
# The grammar of require lines

What a line of a require section asks for, told from its characters: a keyword with the name of a
format behind it, a keyword with one or two literals, or a name that is required, with blanks around
and a comment behind. A line is read as asking for something exactly if it says so.
-/

namespace GpuScript

def AllBlank (text : List Char) : Prop := ∀ c ∈ text, isBlank c = true

instance (text : List Char) : Decidable (AllBlank text) :=
  decidable_of_iff (text.all isBlank = true) List.all_eq_true

/-- Whether a text is what another one is without the blanks around it. -/
structure IsTrimOf (inner text : List Char) : Prop where
  around : ∃ front back, text = front ++ (inner ++ back) ∧ AllBlank front ∧ AllBlank back
  first : ∀ c ∈ inner.head?, isBlank c = false
  last : ∀ c ∈ inner.getLast?, isBlank c = false

/-- Whether a text is what a line has before its comment, without the blanks around it. -/
def IsContent (text line : List Char) : Prop := IsTrimOf text (line.takeWhile (· ≠ '#'))

/-- Whether a text starts with the literal of an unsigned number of 32 bits, and what is behind. -/
def StartsWithNumber (text : List Char) (n : Nat) (tail : List Char) : Prop :=
  ∃ p : LiteralParts, p.AreOf text ∧ p.digits ≠ [] ∧ p.sign ≠ ['-'] ∧ p.value = n ∧ n < 2 ^ 32 ∧
    p.tail = tail

/-- Whether a text is the name of the row of a format, behind some blanks. -/
def NamesFormat (text : List Char) (format : Format) : Prop :=
  ∃ entry ∈ formatTable.toList, format.IsOfRow entry ∧
    ∃ blanks, text = blanks ++ entry.name.toList ∧ blanks ≠ [] ∧ AllBlank blanks

/-- Whether the content of a line asks for something. -/
inductive RequireLine.SaidBy : RequireLine → List Char → Prop
  | framebuffer {text rest : List Char} {format : Format}
      (htext : text = "framebuffer".toList ++ rest) (hformat : NamesFormat rest format) :
      SaidBy (.framebuffer format) text
  | depthStencil {text rest : List Char} {format : Format}
      (htext : text = "depthstencil".toList ++ rest) (hformat : NamesFormat rest format) :
      SaidBy (.depthStencil format) text
  | framebufferSize {text rest tail : List Char} {width height : Nat}
      (htext : text = "fbsize".toList ++ rest) (hends : EndsWord rest)
      (hwidth : StartsWithNumber rest width tail) (hheight : StartsWithNumber tail height []) :
      SaidBy (.framebufferSize width height) text
  | fenceTimeout {text rest : List Char} {timeout : Nat}
      (htext : text = "fence_timeout".toList ++ rest) (hends : EndsWord rest)
      (htimeout : StartsWithNumber rest timeout []) : SaidBy (.fenceTimeout timeout) text
  | requirement {text : List Char} {kind : RequirementKind} {name : String}
      (htext : text = name.toList) (hkind : RequirementKind.ofName? name = some kind) :
      SaidBy (.requirement kind name) text

/-- Whether lines ask for some things in turn, with blank lines among them. -/
inductive Asks : List (List Char) → List RequireLine → Prop
  | nil : Asks [] []
  | blank {line : List Char} {rest : List (List Char)} {asked : List RequireLine}
      (hline : IsContent [] line) (hrest : Asks rest asked) : Asks (line :: rest) asked
  | cons {line text : List Char} {rest : List (List Char)} {first : RequireLine}
      {asked : List RequireLine} (hline : IsContent text line) (hfirst : first.SaidBy text)
      (hrest : Asks rest asked) : Asks (line :: rest) (first :: asked)

/-- Whether a line is the header of a require section, with blanks around the word and behind. -/
def IsRequireHeader (line : List Char) : Prop :=
  ∃ name behind, line = '[' :: (name ++ ']' :: behind) ∧ IsTrimOf "require".toList name ∧
    AllBlank behind

section Trimming

variable {text inner : List Char} {c : Char}

theorem exists_trimEnd (text : List Char) :
    ∃ back, trimEnd text ++ back = text ∧ AllBlank back ∧
      ∀ c ∈ (trimEnd text).getLast?, isBlank c = false := by
  refine ⟨(text.reverse.takeWhile isBlank).reverse, ?_, fun c hc => ?_, fun c hc => ?_⟩
  · rw [trimEnd, ← List.reverse_append, List.takeWhile_append_dropWhile, List.reverse_reverse]
  · exact List.all_eq_true.1 List.all_takeWhile c (List.mem_reverse.1 hc)
  · rw [trimEnd, List.getLast?_reverse] at hc
    exact not_of_head?_dropWhile hc

theorem trimEnd_append {back : List Char} (hlast : ∀ c ∈ inner.getLast?, isBlank c = false)
    (hback : AllBlank back) : trimEnd (inner ++ back) = inner := by
  have hreverse : ∀ c ∈ inner.reverse.head?, isBlank c = false := by rwa [List.head?_reverse]
  rw [trimEnd, List.reverse_append,
    (span_append (fun c hc => hback c (List.mem_reverse.1 hc)) hreverse).2, List.reverse_reverse]

/-- Trimming takes away the blanks around what starts and ends without one. -/
theorem trim_eq_iff : trim text = inner ↔ IsTrimOf inner text := by
  constructor
  · rintro rfl
    obtain ⟨back, hback, hblank, hlast⟩ := exists_trimEnd (trimStart text)
    refine ⟨⟨text.takeWhile isBlank, back, ?_, ?_, hblank⟩, ?_, hlast⟩
    · rw [trim, hback, trimStart, List.takeWhile_append_dropWhile]
    · exact List.all_eq_true.1 List.all_takeWhile
    · intro c hc
      obtain ⟨rest, hrest⟩ := List.head?_eq_some_iff.1 hc
      rw [trim] at hrest
      rw [hrest] at hback
      exact not_of_head?_dropWhile (congrArg List.head? hback.symm)
  · rintro ⟨⟨front, back, rfl, hfront, hback⟩, hfirst, hlast⟩
    rw [trim, trimStart, List.dropWhile_append_of_pos hfront]
    cases inner with
    | nil =>
      rw [List.nil_append, List.dropWhile_eq_nil_iff.2 hback]
      rfl
    | cons c rest =>
      rw [List.cons_append, List.dropWhile_cons, hfirst c rfl]
      exact trimEnd_append hlast hback

theorem content?_eq_none_iff {line : List Char} : content? line = none ↔ IsContent [] line := by
  rw [IsContent, ← trim_eq_iff, content?]
  split <;> simp_all

theorem content?_eq_some_iff {line : List Char} :
    content? line = some text ↔ IsContent text line ∧ text ≠ [] := by
  rw [IsContent, ← trim_eq_iff, content?]
  split <;> grind

/-- What ends without a blank does so behind any cut. -/
theorem getLast?_of_append {front back : List Char}
    (hlast : ∀ c ∈ (front ++ back).getLast?, isBlank c = false) :
    ∀ c ∈ back.getLast?, isBlank c = false := by
  intro c hc
  refine hlast c ?_
  rw [List.getLast?_append, hc]
  rfl

theorem eq_nil_of_getLast? {front back : List Char}
    (hlast : ∀ c ∈ (front ++ back).getLast?, isBlank c = false) (hback : AllBlank back) :
    back = [] := by
  by_contra hne
  obtain ⟨c, hc⟩ := Option.ne_none_iff_exists'.1 (mt List.getLast?_eq_none_iff.1 hne)
  have hlast := getLast?_of_append hlast c hc
  rw [hback c (List.mem_of_getLast? hc)] at hlast
  cases hlast

theorem IsWord.isTrimOf (h : IsWord inner) {front back : List Char} (hfront : AllBlank front)
    (hback : AllBlank back) : IsTrimOf inner (front ++ (inner ++ back)) :=
  ⟨⟨front, back, rfl, hfront, hback⟩, fun c hc => h.2 c (List.mem_of_mem_head? hc),
    fun c hc => h.2 c (List.mem_of_getLast? hc)⟩

end Trimming

theorem readUnsigned_eq_ok_iff_startsWithNumber {text tail : List Char} {n : Nat} :
    readUnsigned 32 text = .ok (n, tail) ↔ StartsWithNumber text n tail := by
  constructor
  · intro h
    obtain ⟨p, hp⟩ := exists_areOf text
    obtain ⟨hdigits, hsign, rfl, hlt, rfl⟩ := hp.readUnsigned_eq_ok_iff.1 h
    exact ⟨p, hp, hdigits, hsign, rfl, hlt, rfl⟩
  · rintro ⟨p, hp, hdigits, hsign, rfl, hlt, rfl⟩
    exact hp.readUnsigned_eq_ok_iff.2 ⟨hdigits, hsign, rfl, hlt, rfl⟩

theorem StartsWithNumber.exists_append {text tail : List Char} {n : Nat}
    (h : StartsWithNumber text n tail) : ∃ front, text = front ++ tail := by
  obtain ⟨p, hp, -, -, -, -, rfl⟩ := h
  refine ⟨p.spaces ++ (p.sign ++ (p.mark ++ p.digits)), ?_⟩
  simp only [List.append_assoc]
  exact hp.text_eq.symm

section Formats

variable {format other : Format} {entry : FormatEntry}

theorem Format.IsOfRow.unique (h : format.IsOfRow entry) (hother : other.IsOfRow entry) :
    format = other := by
  have hsegments := Option.some.inj (h.segments.symm.trans hother.segments)
  have hname := h.name.trans hother.name.symm
  have hpacked := h.packedSize.trans hother.packedSize.symm
  have hparts := h.parts.trans hother.parts.symm
  cases format
  cases other
  cases hname
  cases hpacked
  cases hparts
  cases hsegments
  rfl

theorem Format.ofName?_eq_some_iff {name : String} :
    Format.ofName? name = some format ↔
      ∃ entry ∈ formatTable.toList, format.IsOfRow entry ∧ entry.name = name := by
  constructor
  · intro h
    obtain ⟨entry, hfound, hformat⟩ := Option.bind_eq_some_iff.1 h
    obtain ⟨hmem, hname⟩ := mem_of_searchTable hfound
    exact ⟨entry, hmem, FormatEntry.isOfRow_of_format? hformat, hname⟩
  · rintro ⟨entry, hmem, hrow, rfl⟩
    obtain ⟨i, hi⟩ := List.getElem?_of_mem hmem
    rw [Array.getElem?_toList] at hi
    have hfound := ascending_formatTable.searchTable_eq hi (Nat.zero_le i)
      (Array.getElem?_eq_some_iff.1 hi).1 (Nat.le_refl _)
    obtain ⟨found, hformat⟩ := exists_format_of_mem_formatTable entry hmem
    rw [Format.ofName?, hfound, Option.bind_some, hformat,
      (FormatEntry.isOfRow_of_format? hformat).unique hrow]

theorem isWord_of_bounds {text : List Char} (hne : text ≠ [])
    (h : (text.all fun c => decide (32 < c.toNat ∧ c.toNat < 128)) = true) : IsWord text :=
  ⟨hne, fun c hc => isBlank_of_bounds (of_decide_eq_true (List.all_eq_true.1 h c hc))⟩

theorem isWord_of_mem_formatTable : ∀ entry ∈ formatTable.toList, IsWord entry.name.toList := by
  have hbounds : ∀ entry ∈ formatTable.toList, entry.name.toList ≠ [] ∧
      (entry.name.toList.all fun c => decide (32 < c.toNat ∧ c.toNat < 128)) = true := by
    decide +kernel
  exact fun entry hentry => isWord_of_bounds (hbounds entry hentry).1 (hbounds entry hentry).2

theorem readFormatName_eq_ok_iff {text : List Char} (hends : EndsWord text)
    (hlast : ∀ c ∈ text.getLast?, isBlank c = false) :
    readFormatName text = .ok format ↔ NamesFormat text format := by
  constructor
  · intro h
    unfold readFormatName at h
    split at h
    · cases h
    · next c more htrim =>
      split at h <;> cases h
      next hfound =>
      obtain ⟨entry, hmem, hrow, hname⟩ := Format.ofName?_eq_some_iff.1 hfound
      obtain ⟨⟨blanks, back, rfl, hblanks, hback⟩, hfirst, -⟩ := trim_eq_iff.1 htrim
      rw [← List.append_assoc] at hlast
      obtain rfl := eq_nil_of_getLast? hlast hback
      refine ⟨entry, hmem, hrow, blanks, ?_, ?_, hblanks⟩
      · rw [hname, String.toList_ofList, List.append_nil]
      · rintro rfl
        have hblank := hends c rfl
        rw [hfirst c rfl] at hblank
        cases hblank
  · rintro ⟨entry, hmem, hrow, blanks, rfl, -, hblanks⟩
    have hword := isWord_of_mem_formatTable entry hmem
    have hnothing : AllBlank [] := List.forall_mem_nil _
    have htrim := trim_eq_iff.2 (hword.isTrimOf hblanks hnothing)
    rw [List.append_nil] at htrim
    obtain ⟨c, more, hcons⟩ := List.exists_cons_of_ne_nil hword.1
    have hfound := Format.ofName?_eq_some_iff.2 ⟨entry, hmem, hrow, rfl⟩
    rw [← String.ofList_toList (s := entry.name), hcons] at hfound
    rw [readFormatName, htrim, hcons]
    simp only [hfound]

end Formats

section Numbers

variable {text : List Char} (hlast : ∀ c ∈ text.getLast?, isBlank c = false)

include hlast

theorem StartsWithNumber.tail_eq_nil {n : Nat} {tail : List Char} (h : StartsWithNumber text n tail)
    (htail : trim tail = []) : tail = [] := by
  obtain ⟨front, rfl⟩ := h.exists_append
  obtain ⟨⟨before, behind, rfl, hbefore, hbehind⟩, -, -⟩ := trim_eq_iff.1 htail
  refine eq_nil_of_getLast? hlast fun c hc => ?_
  rw [List.nil_append] at hc
  exact (List.mem_append.1 hc).elim (hbefore c) (hbehind c)

theorem readTimeout?_eq_some_iff {timeout : Nat} :
    readTimeout? text = some timeout ↔ StartsWithNumber text timeout [] := by
  constructor
  · intro h
    unfold readTimeout? at h
    split at h
    · cases h
    · next n tail hread =>
      split at h <;> cases h
      next htail =>
      have hstarts := readUnsigned_eq_ok_iff_startsWithNumber.1 hread
      rwa [hstarts.tail_eq_nil hlast htail] at hstarts
  · intro h
    rw [readTimeout?, readUnsigned_eq_ok_iff_startsWithNumber.2 h]
    rfl

theorem readFramebufferSize?_eq_some_iff {width height : Nat} :
    readFramebufferSize? text = some (width, height) ↔
      ∃ tail, StartsWithNumber text width tail ∧ StartsWithNumber tail height [] := by
  constructor
  · intro h
    unfold readFramebufferSize? at h
    split at h
    · cases h
    · next n rest hfirst =>
      split at h
      · cases h
      · next m tail hsecond =>
        split at h <;> cases h
        next htail =>
        have hwidth := readUnsigned_eq_ok_iff_startsWithNumber.1 hfirst
        have hheight := readUnsigned_eq_ok_iff_startsWithNumber.1 hsecond
        obtain ⟨front, rfl⟩ := hwidth.exists_append
        rw [hheight.tail_eq_nil (getLast?_of_append hlast) htail] at hheight
        exact ⟨rest, hwidth, hheight⟩
  · rintro ⟨tail, hwidth, hheight⟩
    rw [readFramebufferSize?, readUnsigned_eq_ok_iff_startsWithNumber.2 hwidth]
    dsimp only
    rw [readUnsigned_eq_ok_iff_startsWithNumber.2 hheight]
    rfl

end Numbers

section Requirements

variable {text word rest : List Char} {asked : RequireLine}

theorem isBlank_of_isExtensionChar {c : Char} (h : isExtensionChar c = true) :
    isBlank c = false := by
  rw [isExtensionChar, Bool.or_eq_true, beq_iff_eq] at h
  rcases h with h | rfl
  · refine isBlank_of_bounds ?_
    change ((decide ('A'.val ≤ c.val ∧ c.val ≤ 'Z'.val) ||
      (decide ('a'.val ≤ c.val) && decide (c.val ≤ 'z'.val))) ||
        (decide ('0'.val ≤ c.val) && decide (c.val ≤ '9'.val))) = true at h
    simp only [Bool.or_eq_true, Bool.and_eq_true, decide_eq_true_eq, UInt32.le_iff_toNat_le] at h
    change (65 ≤ c.toNat ∧ c.toNat ≤ 90 ∨ 97 ≤ c.toNat ∧ c.toNat ≤ 122) ∨
      48 ≤ c.toNat ∧ c.toNat ≤ 57 at h
    omega
  · decide

theorem isWord_of_ofName? {name : String} {kind : RequirementKind}
    (h : RequirementKind.ofName? name = some kind) : IsWord name.toList := by
  have hbounds : ∀ name ∈ featureNames ++ instanceExtensionNames, name.toList ≠ [] ∧
      (name.toList.all fun c => decide (32 < c.toNat ∧ c.toNat < 128)) = true := by decide +kernel
  have hknown : ∀ name ∈ featureNames ++ instanceExtensionNames, IsWord name.toList :=
    fun name hname => isWord_of_bounds (hbounds name hname).1 (hbounds name hname).2
  unfold RequirementKind.ofName? at h
  split at h
  · next hfeature => exact hknown name (List.mem_append_left _ (List.contains_iff_mem.1 hfeature))
  · split at h
    · next hinstance =>
      exact hknown name (List.mem_append_right _ (List.contains_iff_mem.1 hinstance))
    · split at h
      · next hdevice =>
        unfold isExtensionName at hdevice
        split at hdevice
        · next c more hname =>
          rw [hname]
          refine ⟨List.cons_ne_nil _ _, ?_⟩
          have hchars : ∀ d ∈ c :: more, isBlank d = false := fun d hd =>
            isBlank_of_isExtensionChar (List.all_eq_true.1 hdevice d hd)
          simp only [List.forall_mem_cons] at hchars ⊢
          exact ⟨by decide, by decide, by decide, hchars⟩
        · cases hdevice
      · cases h

theorem readRequirement_of_nextWord? (h : nextWord? text = some (word, rest)) :
    readRequirement text =
      if word = "framebuffer".toList then (readFormatName rest).map .framebuffer
      else if word = "depthstencil".toList then (readFormatName rest).map .depthStencil
      else if word = "fbsize".toList then
        (readFramebufferSize? rest).elim (.error .invalidFramebufferSize) fun size =>
          .ok (.framebufferSize size.1 size.2)
      else if word = "fence_timeout".toList then
        (readTimeout? rest).elim (.error .invalidFenceTimeout) fun timeout =>
          .ok (.fenceTimeout timeout)
      else
        (RequirementKind.ofName? (String.ofList text)).elim
          (.error (.unknownRequirement ⟨String.ofList text⟩)) fun kind =>
            .ok (.requirement kind (String.ofList text)) := by
  have hwords : IsWord "framebuffer".toList ∧ IsWord "depthstencil".toList ∧
      IsWord "fbsize".toList ∧ IsWord "fence_timeout".toList := by decide
  simp only [readRequirement, afterWord?_eq hwords.1, afterWord?_eq hwords.2.1,
    afterWord?_eq hwords.2.2.1, afterWord?_eq hwords.2.2.2, h, Option.bind_some]
  by_cases hframebuffer : word = "framebuffer".toList
  · rw [if_pos hframebuffer, if_pos hframebuffer]
  rw [if_neg hframebuffer, if_neg hframebuffer]
  by_cases hdepth : word = "depthstencil".toList
  · rw [if_pos hdepth, if_pos hdepth]
  rw [if_neg hdepth, if_neg hdepth]
  by_cases hsize : word = "fbsize".toList
  · rw [if_pos hsize, if_pos hsize]
    dsimp only
    cases readFramebufferSize? rest <;> rfl
  rw [if_neg hsize, if_neg hsize]
  by_cases htimeout : word = "fence_timeout".toList
  · rw [if_pos htimeout, if_pos htimeout]
    dsimp only
    cases readTimeout? rest <;> rfl
  · rw [if_neg htimeout, if_neg htimeout]
    dsimp only
    cases RequirementKind.ofName? (String.ofList text) <;> rfl

theorem exists_nextWord? (hfirst : ∀ c ∈ text.head?, isBlank c = false) (hne : text ≠ []) :
    ∃ word rest, text = word ++ rest ∧ EndsWord rest ∧ nextWord? text = some (word, rest) := by
  obtain ⟨c, more, rfl⟩ := List.exists_cons_of_ne_nil hne
  refine ⟨leadingWord (c :: more), afterLeadingWord (c :: more),
    List.takeWhile_append_dropWhile.symm, fun d hd => ?_, ?_⟩
  · simpa using not_of_head?_dropWhile hd
  · simp [nextWord?, trimStart, hfirst c rfl]

theorem nextWord?_append (hword : IsWord word) (hrest : EndsWord rest) :
    nextWord? (word ++ rest) = some (word, rest) :=
  nextWord?_eq_some_iff.2 ⟨[], rfl, List.forall_mem_nil _, hword, hrest⟩

theorem IsWord.nextWord?_eq (h : IsWord word) : nextWord? word = some (word, []) := by
  have hends : EndsWord [] := by
    rintro c ⟨⟩
  have hnext := nextWord?_append h hends
  rwa [List.append_nil] at hnext

theorem NamesFormat.endsWord {format : Format} (h : NamesFormat rest format) : EndsWord rest := by
  obtain ⟨entry, -, -, blanks, rfl, hne, hblanks⟩ := h
  obtain ⟨c, more, rfl⟩ := List.exists_cons_of_ne_nil hne
  rintro d ⟨⟩
  exact hblanks c (List.mem_cons_self ..)

theorem toList_ne_keyword {name : String} {kind : RequirementKind}
    (h : RequirementKind.ofName? name = some kind) :
    ∀ key ∈ ["framebuffer", "depthstencil", "fbsize", "fence_timeout"],
      name.toList ≠ key.toList := by
  have hnone : ∀ key ∈ ["framebuffer", "depthstencil", "fbsize", "fence_timeout"],
      RequirementKind.ofName? key = none := by decide +kernel
  intro key hkey heq
  rw [String.toList_injective heq, hnone key hkey] at h
  cases h

theorem saidBy_of_readRequirement (hfirst : ∀ c ∈ text.head?, isBlank c = false)
    (hlast : ∀ c ∈ text.getLast?, isBlank c = false) (hne : text ≠ [])
    (h : readRequirement text = .ok asked) : asked.SaidBy text := by
  obtain ⟨word, rest, htext, hends, hnext⟩ := exists_nextWord? hfirst hne
  rw [htext] at hlast
  have hrest := getLast?_of_append hlast
  rw [readRequirement_of_nextWord? hnext] at h
  split at h
  · next hword =>
    obtain ⟨format, hformat, rfl⟩ := exists_of_map_eq_ok h
    exact .framebuffer (hword ▸ htext) ((readFormatName_eq_ok_iff hends hrest).1 hformat)
  · split at h
    · next hword =>
      obtain ⟨format, hformat, rfl⟩ := exists_of_map_eq_ok h
      exact .depthStencil (hword ▸ htext) ((readFormatName_eq_ok_iff hends hrest).1 hformat)
    · split at h
      · next hword =>
        cases hsize : readFramebufferSize? rest with
        | none =>
          rw [hsize] at h
          cases h
        | some size =>
          rw [hsize] at h
          cases h
          obtain ⟨tail, hwidth, hheight⟩ := (readFramebufferSize?_eq_some_iff hrest).1 hsize
          exact .framebufferSize (hword ▸ htext) hends hwidth hheight
      · split at h
        · next hword =>
          cases htimeout : readTimeout? rest with
          | none =>
            rw [htimeout] at h
            cases h
          | some timeout =>
            rw [htimeout] at h
            cases h
            exact .fenceTimeout (hword ▸ htext) hends ((readTimeout?_eq_some_iff hrest).1 htimeout)
        · cases hkind : RequirementKind.ofName? (String.ofList text) with
          | none =>
            rw [hkind] at h
            cases h
          | some kind =>
            rw [hkind] at h
            cases h
            exact .requirement String.toList_ofList.symm hkind

theorem RequireLine.SaidBy.readRequirement_eq (h : asked.SaidBy text)
    (hlast : ∀ c ∈ text.getLast?, isBlank c = false) : readRequirement text = .ok asked := by
  cases h with
  | @framebuffer _ rest format htext hformat =>
    have hends := hformat.endsWord
    rw [htext] at hlast
    have hread := (readFormatName_eq_ok_iff hends (getLast?_of_append hlast)).2 hformat
    rw [htext, readRequirement_of_nextWord? (nextWord?_append (by decide) hends), if_pos rfl, hread]
    rfl
  | @depthStencil _ rest format htext hformat =>
    have hends := hformat.endsWord
    rw [htext] at hlast
    have hread := (readFormatName_eq_ok_iff hends (getLast?_of_append hlast)).2 hformat
    rw [htext, readRequirement_of_nextWord? (nextWord?_append (by decide) hends),
      if_neg (by decide), if_pos rfl, hread]
    rfl
  | @framebufferSize _ rest tail width height htext hends hwidth hheight =>
    rw [htext] at hlast
    have hread := (readFramebufferSize?_eq_some_iff (getLast?_of_append hlast)).2
      ⟨tail, hwidth, hheight⟩
    rw [htext, readRequirement_of_nextWord? (nextWord?_append (by decide) hends),
      if_neg (by decide), if_neg (by decide), if_pos rfl, hread]
    rfl
  | @fenceTimeout _ rest timeout htext hends htimeout =>
    rw [htext] at hlast
    have hread := (readTimeout?_eq_some_iff (getLast?_of_append hlast)).2 htimeout
    rw [htext, readRequirement_of_nextWord? (nextWord?_append (by decide) hends),
      if_neg (by decide), if_neg (by decide), if_neg (by decide), if_pos rfl, hread]
    rfl
  | @requirement _ kind name htext hkind =>
    have hkeys := toList_ne_keyword hkind
    have hnext := (isWord_of_ofName? hkind).nextWord?_eq
    rw [htext, readRequirement_of_nextWord? hnext, if_neg (hkeys _ (by decide)),
      if_neg (hkeys _ (by decide)), if_neg (hkeys _ (by decide)), if_neg (hkeys _ (by decide)),
      String.ofList_toList, hkind]
    rfl

end Requirements

section Lines

variable {line : List Char} {asked : RequireLine}

theorem IsContent.head?_ne_bracket (h : IsContent [] line) : line.head? ≠ some '[' := by
  intro hhead
  obtain ⟨text, rfl⟩ := List.head?_eq_some_iff.1 hhead
  have hwords := words_trim (('[' :: text).takeWhile (· ≠ '#'))
  rw [trim_eq_iff.2 h, words_nil, eq_comm, words_eq_nil_iff] at hwords
  exact Bool.noConfusion (hwords '[' (List.mem_cons_self ..))

theorem words_of_isWord {word : List Char} (h : IsWord word) : words word = [word] := by
  rw [words_of_nextWord? h.nextWord?_eq, words_nil]

theorem readSectionName_require {name : List Char} (h : IsTrimOf "require".toList name) :
    readSectionName name = .ok .require := by
  have htrim := trim_eq_iff.2 h
  have hwords : words name = ["require".toList] := by
    rw [← words_trim, htrim, words_of_isWord (by decide)]
  have hnone : shaderHeaders.lookup ["require".toList] = none := by decide +kernel
  rw [readSectionName, shaderOfHeader?_eq_lookup, hwords, hnone, htrim]
  rfl

theorem exists_readHeader_require (h : IsRequireHeader line) :
    ∃ text, line = '[' :: text ∧ readHeader text = .ok .require := by
  obtain ⟨name, behind, rfl, hname, hbehind⟩ := h
  have hinside : ∀ c ∈ name, decide (c ≠ ']') = true := by
    obtain ⟨⟨front, back, rfl, hfront, hback⟩, -, -⟩ := hname
    have hblank : ∀ {text : List Char}, AllBlank text → ∀ c ∈ text, c ≠ ']' := by
      rintro text htext c hc rfl
      exact Bool.noConfusion (htext _ hc)
    intro c hc
    rw [decide_eq_true_eq]
    rcases List.mem_append.1 hc with hc | hc
    · exact hblank hfront c hc
    · rcases List.mem_append.1 hc with hc | hc
      · rintro rfl
        exact absurd hc (by decide)
      · exact hblank hback c hc
  have hend : ∀ c ∈ (']' :: behind).head?, decide (c ≠ ']') = false := by simp
  obtain ⟨htake, hdrop⟩ := span_append hinside hend
  have htrimmed : trimEnd behind = [] := trimEnd_eq_nil_iff.2 (words_eq_nil_iff.2 hbehind)
  refine ⟨_, rfl, ?_⟩
  rw [readHeader, hdrop]
  dsimp only
  rw [if_pos htrimmed, htake, readSectionName_require hname]

theorem RequireLine.SaidBy.ne_nil {text : List Char} (h : asked.SaidBy text) : text ≠ [] := by
  cases h with
  | framebuffer htext | depthStencil htext | framebufferSize htext | fenceTimeout htext =>
    rw [htext]
    exact List.append_ne_nil_of_left_ne_nil (by decide) _
  | requirement htext hkind =>
    rw [htext]
    exact (isWord_of_ofName? hkind).1

theorem readRequireLine_eq_none_iff : readRequireLine line = .ok none ↔ IsContent [] line := by
  rw [← content?_eq_none_iff]
  unfold readRequireLine
  constructor
  · intro h
    split at h
    · assumption
    · obtain ⟨asked, -, hasked⟩ := exists_of_map_eq_ok h
      cases hasked
  · intro h
    rw [h]

/-- A line is read as asking for something exactly if its content says so. -/
theorem readRequireLine_eq_some_iff :
    readRequireLine line = .ok (some asked) ↔ ∃ text, IsContent text line ∧ asked.SaidBy text := by
  constructor
  · intro h
    unfold readRequireLine at h
    split at h
    · cases h
    · next text htext =>
      obtain ⟨read, hread, hsame⟩ := exists_of_map_eq_ok h
      obtain rfl := Option.some.inj hsame
      obtain ⟨hcontent, hne⟩ := content?_eq_some_iff.1 htext
      exact ⟨text, hcontent, saidBy_of_readRequirement hcontent.first hcontent.last hne hread⟩
  · rintro ⟨text, hcontent, hsaid⟩
    rw [readRequireLine, content?_eq_some_iff.2 ⟨hcontent, hsaid.ne_nil⟩]
    dsimp only
    rw [hsaid.readRequirement_eq hcontent.last]
    rfl

theorem Asks.of_read {rest : List (List Char)} {more : List RequireLine}
    {asked? : Option RequireLine} (hrest : Asks rest more)
    (h : readRequireLine line = .ok asked?) : Asks (line :: rest) (asked?.toList ++ more) := by
  cases asked? with
  | none => exact .blank (readRequireLine_eq_none_iff.1 h) hrest
  | some first =>
    obtain ⟨text, hline, hfirst⟩ := readRequireLine_eq_some_iff.1 h
    exact .cons hline hfirst hrest

theorem asks_of_forall₂ {lines : List (List Char)} {asked : List (Option RequireLine)}
    (h : List.Forall₂ (fun line asked? => readRequireLine line = .ok asked?) lines asked) :
    Asks lines (asked.flatMap Option.toList) := by
  induction h with
  | nil => exact .nil
  | cons hline _ ih =>
    rw [List.flatMap_cons]
    exact ih.of_read hline

end Lines

end GpuScript
