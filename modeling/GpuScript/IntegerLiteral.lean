import GpuScript.Powers

/-!
# Integer literals

A literal is an optional run of spaces and tabs, a sign, a mark of base sixteen, and a run of digits
of the base; what follows the digits is left to the caller. It is decimal without the mark, and a
leading zero changes nothing. A literal that does not fit in its width is refused, never wrapped.
-/

namespace GpuScript

/-- Why a text does not start with a number of a kind. -/
inductive LiteralError
  | negated
  /-- The digits fit in the width but the signed number does not. -/
  | signedRange
  | noDigits
  | tooLarge
  | noFloat
  | invalidFloat
  deriving DecidableEq

namespace LiteralError

/-- Whether the text is a well-formed number that does not fit. -/
def isOverflow : LiteralError → Bool
  | .signedRange | .tooLarge => true
  | _ => false

def message : LiteralError → String
  | .negated => "Number can’t be negated"
  | .signedRange => "Number out of range for type"
  | .noDigits => "cannot parse integer from empty string"
  | .tooLarge => "number too large to fit in target type"
  | .noFloat => "cannot parse float from empty string"
  | .invalidFloat => "invalid float literal"

end LiteralError

def digitValue? (base : Nat) (c : Char) : Option Nat :=
  let value :=
    if '0' ≤ c ∧ c ≤ '9' then c.toNat - '0'.toNat
    else if 'a' ≤ c ∧ c ≤ 'f' then c.toNat - 'a'.toNat + 10
    else if 'A' ≤ c ∧ c ≤ 'F' then c.toNat - 'A'.toNat + 10
    else base
  if value < base then some value else none

def isDigit (base : Nat) (c : Char) : Bool := (digitValue? base c).isSome

theorem toNat_bounds_of_isDigit {base : Nat} {c : Char} (h : isDigit base c = true) :
    32 < c.toNat ∧ c.toNat < 128 := by
  have hbounds : ∀ {low high : Char}, 32 < low.toNat → high.toNat < 128 → low ≤ c → c ≤ high →
      32 < c.toNat ∧ c.toNat < 128 := fun hlow hhigh hle hge =>
    ⟨Nat.lt_of_lt_of_le hlow (UInt32.le_iff_toNat_le.1 hle),
      Nat.lt_of_le_of_lt (UInt32.le_iff_toNat_le.1 hge) hhigh⟩
  unfold isDigit digitValue? at h
  by_cases hdecimal : '0' ≤ c ∧ c ≤ '9'
  · exact hbounds (by decide) (by decide) hdecimal.1 hdecimal.2
  · by_cases hlower : 'a' ≤ c ∧ c ≤ 'f'
    · exact hbounds (by decide) (by decide) hlower.1 hlower.2
    · by_cases hupper : 'A' ≤ c ∧ c ≤ 'F'
      · exact hbounds (by decide) (by decide) hupper.1 hupper.2
      · simp [hdecimal, hlower, hupper] at h

/-- The natural that a run of digits of a base stands for. -/
def digitsValue (base : Nat) (digits : List Char) : Nat :=
  digits.foldl (fun n c => n * base + (digitValue? base c).getD 0) 0

def skipSpaces (text : List Char) : List Char := text.dropWhile fun c => c = ' ' || c = '\t'

def splitSign : List Char → Bool × List Char
  | '-' :: rest => (true, rest)
  | '+' :: rest => (false, rest)
  | text => (false, text)

/-- The base of an unsigned literal, and the text after a mark of base sixteen. -/
def splitBase : List Char → Nat × List Char
  | '0' :: 'x' :: rest | '0' :: 'X' :: rest => (16, rest)
  | text => (10, text)

/-- The pieces of an integer literal and the text behind it. -/
structure IntegerLiteral where
  negative : Bool
  base : Nat
  digits : List Char
  tail : List Char
  deriving DecidableEq

namespace IntegerLiteral

def ofText (text : List Char) : IntegerLiteral :=
  let (negative, unsigned) := splitSign (skipSpaces text)
  let (base, digits) := splitBase unsigned
  ⟨negative, base, digits.takeWhile (isDigit base), digits.dropWhile (isDigit base)⟩

def magnitude (literal : IntegerLiteral) : Nat := digitsValue literal.base literal.digits

/-- The natural that the digits stand for, if there are digits and it fits in a width. -/
def magnitudeWithin (literal : IntegerLiteral) (width : Nat) : Except LiteralError Nat :=
  if literal.digits = [] then .error .noDigits
  else if literal.magnitude < twoPow width then .ok literal.magnitude
  else .error .tooLarge

end IntegerLiteral

def isHexLiteral (text : List Char) : Bool :=
  (splitBase (splitSign (skipSpaces text)).2).1 == 16

def readUnsigned (width : Nat) (text : List Char) : Except LiteralError (Nat × List Char) := do
  let literal := IntegerLiteral.ofText text
  let magnitude ← literal.magnitudeWithin width
  if literal.negative then .error .negated else .ok (magnitude, literal.tail)

/-- The signed number of a width at the start of a text, and the text behind it. -/
def readSigned (width : Nat) (text : List Char) : Except LiteralError (Int × List Char) := do
  let literal := IntegerLiteral.ofText text
  let magnitude ← literal.magnitudeWithin width
  if literal.negative then
    if twoPow (width - 1) < magnitude then .error .signedRange else .ok (-magnitude, literal.tail)
  else if twoPow (width - 1) ≤ magnitude then .error .signedRange
  else .ok (magnitude, literal.tail)

/-- A whole text as a natural below a power of two: digits of a base after at most one plus sign,
and nothing else. -/
def wholeNatural? (base width : Nat) (text : List Char) : Option Nat :=
  let digits := match text with
    | '+' :: rest => rest
    | _ => text
  if digits = [] ∨ !digits.all (isDigit base) then none
  else
    let value := digitsValue base digits
    if value < twoPow width then some value else none

end GpuScript
