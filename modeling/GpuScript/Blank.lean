/-!
# Blanks and words

The characters that separate words are those with the Unicode property White_Space. A word is a
maximal run of other characters. Comments run from a number sign to the end of the line.
-/

namespace GpuScript

/-- The ranges of characters with the property White_Space, ends included. -/
def blankRanges : List (Nat × Nat) :=
  [(0x9, 0xd), (0x20, 0x20), (0x85, 0x85), (0xa0, 0xa0), (0x1680, 0x1680), (0x2000, 0x200a),
   (0x2028, 0x2029), (0x202f, 0x202f), (0x205f, 0x205f), (0x3000, 0x3000)]

def isBlank (c : Char) : Bool :=
  blankRanges.any fun range => range.1 ≤ c.toNat && c.toNat ≤ range.2

/-- What follows the longest run of characters of a kind starts with another character. -/
theorem not_of_head?_dropWhile {p : Char → Bool} {text : List Char} {c : Char}
    (h : (text.dropWhile p).head? = some c) : p c = false := by
  have hhead := List.head?_dropWhile_not p text
  rw [h] at hhead
  simpa using hhead

def trimStart (text : List Char) : List Char := text.dropWhile isBlank

def trimEnd (text : List Char) : List Char := (text.reverse.dropWhile isBlank).reverse

def trim (text : List Char) : List Char := trimEnd (trimStart text)

def leadingWord (text : List Char) : List Char := text.takeWhile fun c => !isBlank c

/-- What follows the longest start of a text without a blank. -/
def afterLeadingWord (text : List Char) : List Char := text.dropWhile fun c => !isBlank c

/-- The first word of a text with all that follows it. -/
def nextWord? (text : List Char) : Option (List Char × List Char) :=
  match trimStart text with
  | [] => none
  | c :: rest => some (leadingWord (c :: rest), afterLeadingWord (c :: rest))

theorem length_lt_of_nextWord? {text word rest : List Char}
    (h : nextWord? text = some (word, rest)) : rest.length < text.length := by
  unfold nextWord? at h
  split at h
  · contradiction
  · next c tail heq =>
    obtain ⟨rfl, rfl⟩ := Prod.mk.inj (Option.some.inj h)
    have hc : isBlank c = false := not_of_head?_dropWhile (congrArg List.head? heq)
    have htail := (List.dropWhile_suffix (l := tail) fun c => !isBlank c).length_le
    have hle := (List.dropWhile_suffix (l := text) isBlank).length_le
    rw [show text.dropWhile isBlank = c :: tail from heq, List.length_cons] at hle
    simp only [afterLeadingWord, List.dropWhile_cons, hc, Bool.not_false, ite_true]
    omega

def words (text : List Char) : List (List Char) :=
  match _h : nextWord? text with
  | none => []
  | some (word, rest) => word :: words rest
termination_by text.length
decreasing_by exact length_lt_of_nextWord? _h

/-- What follows a given first word, which a blank or the end of the text must close. -/
def afterWord? (word text : List Char) : Option (List Char) :=
  match word.isPrefixOf? (trimStart text) with
  | some [] => some []
  | some (c :: rest) => if isBlank c then some (c :: rest) else none
  | none => none

def afterWords? : List (List Char) → List Char → Option (List Char)
  | [], text => some text
  | word :: more, text => (afterWord? word text).bind (afterWords? more)

/-- A line without its comment and outer blanks, unless nothing is left. -/
def content? (line : List Char) : Option (List Char) :=
  match trim (line.takeWhile (· ≠ '#')) with
  | [] => none
  | c :: rest => some (c :: rest)

end GpuScript
