/-!
# Logical lines

A physical line ends with a line feed or with the text. One that ends with a backslash before its
line feed goes on in the next one, without the backslash and the line feed. A logical line keeps
its own line feed and is numbered by the physical line on which it starts.
-/

namespace GpuScript

/-- A line with the number of the physical line on which it starts. -/
structure NumberedLine where
  number : Nat
  text : List Char
  deriving DecidableEq

def physicalLines : List Char → List (List Char)
  | [] => []
  | c :: rest =>
    if c = '\n' then ['\n'] :: physicalLines rest
    else
      match physicalLines rest with
      | [] => [[c]]
      | line :: more => (c :: line) :: more

@[simp] theorem flatten_physicalLines (text : List Char) :
    (physicalLines text).flatten = text := by
  induction text with
  | nil => rfl
  | cons c rest ih =>
    unfold physicalLines
    split
    · simp [*]
    · split <;> simp_all

/-- What a physical line that goes on in the next one has before its backslash. -/
def continued? (line : List Char) : Option (List Char) :=
  match line.reverse with
  | '\n' :: '\\' :: rest => some rest.reverse
  | '\n' :: '\r' :: '\\' :: rest => some rest.reverse
  | _ => none

/-- The logical lines of some physical lines, the first of which has a number. -/
def joinLines : Nat → List (List Char) → List NumberedLine
  | _, [] => []
  | number, line :: rest =>
    let more := joinLines (number + 1) rest
    match continued? line with
    | none => ⟨number, line⟩ :: more
    | some head =>
      match more with
      | [] => [⟨number, head⟩]
      | next :: others => ⟨number, head ++ next.text⟩ :: others

def logicalLines (text : List Char) : List NumberedLine := joinLines 1 (physicalLines text)

end GpuScript
