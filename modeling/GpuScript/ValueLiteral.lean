import GpuScript.FloatLiteral
import GpuScript.Value

/-!
# Value literals

A token is the literal of a value of some kind when nothing follows the number. A half float is
given as a single-precision number that can be stored as one.
-/

namespace GpuScript

/-- What a reader finds in a token that it uses up. -/
def wholeToken? {α : Type} (read : List Char → Except LiteralError (α × List Char))
    (token : List Char) : Option α :=
  match read token with
  | .ok (a, []) => some a
  | _ => none

namespace Value

/-- The value of a kind at the start of a text, and the text behind it. For a half float it is a
single-precision number. -/
def readLiteral (s : Scalar) (text : List Char) : Except LiteralError (Value × List Char) :=
  match s with
  | .float16 | .float32 => (readFloat .single text).map fun p => (.ofSingle p.1, p.2)
  | .float64 => (readFloat .double text).map fun p => (.ofDouble p.1, p.2)
  | s =>
    if s.isSigned then (readSigned s.bits text).map fun p => (.ofInt s p.1, p.2)
    else (readUnsigned s.bits text).map fun p => (.ofInt s p.1, p.2)

def fits (s : Scalar) (v : Value) : Bool := s != .float16 || Half.fits v.toSingle

def ofToken? (s : Scalar) (token : List Char) : Option Value :=
  (wholeToken? (readLiteral s) token).filter (fits s)

end Value

end GpuScript
