import GpuScript.Proofs.JoinedLines
import GpuScript.Proofs.TrimmedWords
import GpuScript.SectionHeader

/-!
# Carriage returns

A text without carriage returns has the same lines if one is put before each line feed: a join is
one with it, and a line that ends with both has the content and is the header that it is without.
-/

namespace GpuScript

/-- A text with a carriage return before each line feed. -/
def withReturns (text : List Char) : List Char :=
  text.flatMap fun c => if c = '\n' then ['\r', '\n'] else [c]

def NumberedLine.withReturns (line : NumberedLine) : NumberedLine :=
  { line with text := GpuScript.withReturns line.text }

@[simp] theorem withReturns_nil : withReturns [] = [] := rfl

@[simp] theorem withReturns_append (s t : List Char) :
    withReturns (s ++ t) = withReturns s ++ withReturns t :=
  List.flatMap_append

@[simp] theorem withReturns_feed : withReturns ['\n'] = ['\r', '\n'] := rfl

theorem withReturns_cons_of_ne {c : Char} (h : c ≠ '\n') (text : List Char) :
    withReturns (c :: text) = c :: withReturns text := by
  rw [withReturns, List.flatMap_cons, if_neg h]
  rfl

theorem withReturns_of_not_mem {text : List Char} (h : '\n' ∉ text) : withReturns text = text := by
  induction text with
  | nil => rfl
  | cons c rest ih =>
    rw [withReturns_cons_of_ne (List.ne_of_not_mem_cons h).symm,
      ih (List.not_mem_of_not_mem_cons h)]

theorem withReturns_cases {line : List Char} (h : '\n' ∉ line.dropLast) :
    withReturns line = line ∨
      ∃ body, line = body ++ ['\n'] ∧ withReturns line = body ++ ['\r'] ++ ['\n'] := by
  rcases List.eq_nil_or_concat line with rfl | ⟨body, c, rfl⟩
  · exact .inl rfl
  · rw [List.concat_eq_append, List.dropLast_concat] at h
    rw [List.concat_eq_append, withReturns_append, withReturns_of_not_mem h]
    by_cases hc : c = '\n'
    · subst hc
      exact .inr ⟨body, rfl, by simp⟩
    · exact .inl (by rw [withReturns_cons_of_ne hc, withReturns_nil])

theorem physicalLines_withReturns (text : List Char) :
    physicalLines (withReturns text) = (physicalLines text).map withReturns := by
  induction text with
  | nil => rfl
  | cons c rest ih =>
    by_cases hc : c = '\n'
    · subst hc
      have htext : withReturns ('\n' :: rest) = '\r' :: '\n' :: withReturns rest := rfl
      rw [htext, physicalLines, if_neg (by decide), physicalLines, if_pos rfl, physicalLines,
        if_pos rfl, ih]
      rfl
    · rw [withReturns_cons_of_ne hc, physicalLines, if_neg hc, ih, physicalLines, if_neg hc]
      cases physicalLines rest with
      | nil => exact congrArg (fun line => [line]) (withReturns_cons_of_ne hc []).symm
      | cons line more =>
        exact congrArg (· :: more.map withReturns) (withReturns_cons_of_ne hc line).symm

/-- A line ends with a join exactly if it does so with a carriage return before its line feed. -/
theorem continued?_return {body : List Char} (h : '\r' ∉ body) :
    continued? (body ++ ['\r', '\n']) = continued? (body ++ ['\n']) := by
  refine Option.ext fun head => ?_
  have hreturn : body ++ ['\r', '\n'] = body ++ ['\r'] ++ ['\n'] := by simp
  have hstem : head ++ "\\\r".toList = head ++ "\\".toList ++ ['\r'] := by simp
  rw [continued?_eq_some_iff, continued?_eq_some_iff, hreturn]
  constructor
  · rintro ⟨stem, hmem, heq⟩
    have hbody := List.append_cancel_right heq
    simp only [joinStems, List.mem_cons, List.not_mem_nil, or_false] at hmem
    rcases hmem with rfl | rfl
    · have hlast := congrArg List.getLast? hbody
      simp at hlast
    · rw [hstem] at hbody
      rw [List.append_cancel_right hbody]
      exact ⟨_, .head _, rfl⟩
  · rintro ⟨stem, hmem, heq⟩
    have hbody := List.append_cancel_right heq
    simp only [joinStems, List.mem_cons, List.not_mem_nil, or_false] at hmem
    rcases hmem with rfl | rfl
    · exact ⟨_, .tail _ (.head _), by rw [hstem, hbody]⟩
    · rw [hbody] at h
      exact (h (by simp)).elim

theorem joinLines_withReturns {lines : List (List Char)} (hlines : ArePhysical lines)
    (h : ∀ line ∈ lines, '\r' ∉ line) (number : Nat) :
    joinLines number (lines.map withReturns) =
      (joinLines number lines).map NumberedLine.withReturns := by
  induction hlines generalizing number with
  | nil => rfl
  | last hne hline =>
    rw [List.map_singleton, withReturns_of_not_mem hline, joinLines, continued?_of_not_mem hline]
    exact congrArg (fun text => [NumberedLine.mk number text]) (withReturns_of_not_mem hline).symm
  | @cons line hline rest hrest ih =>
    obtain ⟨hfirst, hothers⟩ := List.forall_mem_cons.1 h
    have hreturn : '\r' ∉ line := fun hmem => hfirst (List.mem_append_left _ hmem)
    have htext : withReturns (line ++ ['\n']) = line ++ ['\r', '\n'] := by
      rw [withReturns_append, withReturns_of_not_mem hline, withReturns_feed]
    have ih := ih hothers (number + 1)
    rw [List.map_cons, htext, joinLines, joinLines, continued?_return hreturn, ih]
    cases hcontinued : continued? (line ++ ['\n']) with
    | none =>
      exact congrArg (fun text => NumberedLine.mk number text :: _) htext.symm
    | some head =>
      obtain ⟨stem, -, heq⟩ := continued?_eq_some_iff.1 hcontinued
      obtain rfl : line = head ++ stem := List.append_cancel_right heq
      have hhead : withReturns head = head :=
        withReturns_of_not_mem fun hmem => hline (List.mem_append_left _ hmem)
      cases joinLines (number + 1) rest with
      | nil => exact congrArg (fun text => [NumberedLine.mk number text]) hhead.symm
      | cons next more =>
        refine congrArg (fun text => NumberedLine.mk number text :: _) ?_
        rw [withReturns_append, hhead]
        rfl

theorem logicalLines_withReturns {source : List Char} (h : '\r' ∉ source) :
    logicalLines (withReturns source) = (logicalLines source).map NumberedLine.withReturns := by
  rw [logicalLines, physicalLines_withReturns]
  refine joinLines_withReturns (arePhysical_physicalLines source) (fun line hline hmem => h ?_) 1
  rw [← flatten_physicalLines source]
  exact List.mem_flatten_of_mem hline hmem

theorem eq_of_withReturns {line : List Char} {α : Type} {read : List Char → α}
    (h : '\n' ∉ line.dropLast)
    (hread : ∀ (text : List Char) (c : Char), isBlank c = true → c ≠ ']' →
      read (text ++ [c]) = read text) :
    read (withReturns line) = read line := by
  rcases withReturns_cases h with heq | ⟨body, rfl, heq⟩
  · rw [heq]
  · rw [heq, hread _ '\n' (by decide) (by decide), hread _ '\r' (by decide) (by decide),
      hread _ '\n' (by decide) (by decide)]

theorem content?_withReturns {line : List Char} (h : '\n' ∉ line.dropLast) :
    content? (withReturns line) = content? line :=
  eq_of_withReturns h fun text _ hc _ => content?_append_blank hc text

theorem readHeader_append_blank {c : Char} (hc : isBlank c = true) (hbracket : c ≠ ']')
    (text : List Char) : readHeader (text ++ [c]) = readHeader text := by
  have hsplit := List.takeWhile_append_dropWhile (p := (· ≠ ']')) (l := text)
  have hmore := List.takeWhile_append_dropWhile (p := (· ≠ ']')) (l := text ++ [c])
  cases hdrop : text.dropWhile (· ≠ ']') with
  | nil =>
    have hbehind : (text ++ [c]).dropWhile (· ≠ ']') = [] := by
      rw [List.dropWhile_append, hdrop]
      simp [hbracket]
    rw [readHeader, readHeader, hdrop, hbehind]
  | cons b tail =>
    have hbehind : (text ++ [c]).dropWhile (· ≠ ']') = b :: (tail ++ [c]) := by
      rw [List.dropWhile_append, hdrop]
      rfl
    have hname : (text ++ [c]).takeWhile (· ≠ ']') = text.takeWhile (· ≠ ']') := by
      rw [hdrop] at hsplit
      rw [hbehind] at hmore
      refine List.append_cancel_right (hmore.trans ?_)
      rw [← List.cons_append, ← List.append_assoc, hsplit]
    rw [readHeader, readHeader, hdrop, hbehind, hname]
    simp only [trimEnd_append_blank hc]

theorem readHeader_withReturns {line : List Char} (h : '\n' ∉ line.dropLast) :
    readHeader (withReturns line) = readHeader line :=
  eq_of_withReturns h fun text _ hc hbracket => readHeader_append_blank hc hbracket text

end GpuScript
