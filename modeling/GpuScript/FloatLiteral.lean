import GpuScript.FloatText
import GpuScript.IntegerLiteral

/-!
# Floating-point literals

After spaces and tabs, a literal is a sign, then the name of a special number or digits with an
optional point, then an exponent if it is complete. Taking a literal off a text and reading its
value are separate steps: the first finds the longest literal, the second rounds it once.
-/

namespace GpuScript

/-- The names of the numbers that are not finite, longer ones before their own starts. -/
def specialNames : List (List Char) := ["infinity".toList, "inf".toList, "nan".toList]

def isDecimalDigit (c : Char) : Bool := isDigit 10 c

def specialName? (text : List Char) : Option (List Char) :=
  specialNames.find? fun name => (text.take name.length).map Char.toLower == name

/-- The length of the digits and the optional point that a text starts with, if there is a digit
on either side of the point. -/
def numberLength? (text : List Char) : Option Nat :=
  let whole := text.takeWhile isDecimalDigit
  match text.drop whole.length with
  | '.' :: rest =>
    let fraction := rest.takeWhile isDecimalDigit
    if whole.length + fraction.length = 0 then none
    else some (whole.length + 1 + fraction.length)
  | _ => if whole.length = 0 then none else some whole.length

def signLength : List Char → Nat
  | '+' :: _ | '-' :: _ => 1
  | _ => 0

/-- The length of the exponent that a text starts with, zero if it lacks a digit. -/
def exponentLength : List Char → Nat
  | 'e' :: rest | 'E' :: rest =>
    let sign := signLength rest
    let digits := ((rest.drop sign).takeWhile isDecimalDigit).length
    if digits = 0 then 0 else 1 + sign + digits
  | _ => 0

def unsignedFloatLength (text : List Char) : Nat :=
  match specialName? text with
  | some name => name.length
  | none =>
    match numberLength? text with
    | some length => length + exponentLength (text.drop length)
    | none => 0

/-- A text without its leading spaces and tabs, split behind the literal at its start. -/
def splitFloat (text : List Char) : List Char × List Char :=
  let text := skipSpaces text
  let sign := signLength text
  text.splitAt (sign + unsignedFloatLength (text.drop sign))

/-- A decimal numeral: an unsigned significand at a power of ten. -/
structure DecimalNumeral where
  significand : Nat
  exponent : Int
  deriving DecidableEq

def exponentValue : List Char → Int
  | _ :: rest =>
    let (negative, digits) := splitSign rest
    if negative then -(digitsValue 10 digits : Int) else digitsValue 10 digits
  | [] => 0

/-- The numeral of a literal that is neither signed nor special. -/
def DecimalNumeral.ofText (text : List Char) : DecimalNumeral :=
  let whole := text.takeWhile isDecimalDigit
  let fraction := match text.drop whole.length with
    | '.' :: rest => rest.takeWhile isDecimalDigit
    | _ => []
  let point := if (text.drop whole.length).head? = some '.' then 1 else 0
  let exponent := exponentValue (text.drop (whole.length + point + fraction.length))
  ⟨digitsValue 10 (whole ++ fraction), exponent - fraction.length⟩

/-- The number that a whole literal with an optional sign stands for. -/
def FloatFormat.ofLiteral (f : FloatFormat) (text : List Char) :
    Except LiteralError (BitVec f.width) :=
  let (negative, unsigned) := splitSign text
  if text = [] then .error .noFloat
  else if unsigned = [] ∨ unsignedFloatLength unsigned ≠ unsigned.length then
    .error .invalidFloat
  else
    match specialName? unsigned with
    | some name =>
      let quiet := if name = "nan".toList then f.quietBit else 0
      .ok (f.withSign negative (f.infinity + quiet))
    | none =>
      let numeral := DecimalNumeral.ofText unsigned
      .ok (f.ofDecimal negative numeral.significand numeral.exponent)

/-- The number of a format at the start of a text, and the text behind it. -/
def readFloat (f : FloatFormat) (text : List Char) :
    Except LiteralError (BitVec f.width × List Char) :=
  let (literal, tail) := splitFloat text
  (f.ofLiteral literal).map fun b => (b, tail)

end GpuScript
