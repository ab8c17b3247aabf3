import GpuScript.Blank
import GpuScript.NamedFormat
import GpuScript.LineError
import GpuScript.ValueLiteral

/-!
# Vertex data

A table of vertex attributes. Its header gives each column a location and a format, which is named
outright or by a pair of types; each row then gives the values of one element for every column. A
row is read in full before any of it is used.
-/

namespace GpuScript

/-- The types of stored data, with the mode and the bit count that they stand for. -/
def glTypes : List (List Char × Mode × Nat) := [
  ("byte".toList, .sint, 8), ("ubyte".toList, .uint, 8), ("short".toList, .sint, 16),
  ("ushort".toList, .uint, 16), ("int".toList, .sint, 32), ("uint".toList, .uint, 32),
  ("half".toList, .sfloat, 16), ("float".toList, .sfloat, 32), ("double".toList, .sfloat, 64)]

def plainAttributeTypes : List (List Char) :=
  ["int".toList, "uint".toList, "float".toList, "double".toList]

def vectorPart : List Char → List Char
  | 'i' :: rest | 'u' :: rest | 'd' :: rest => rest
  | name => name

def attributeComponents (name : List Char) : Except LineError Nat :=
  if name ∈ plainAttributeTypes then .ok 1
  else
    match "vec".toList.isPrefixOf? (vectorPart name) with
    | none => .error (.unknownGlslType name)
    | some size =>
      match wholeNatural? 10 64 size with
      | some n => if 2 ≤ n ∧ n ≤ 4 then .ok n else .error (.invalidVectorSize name)
      | none => .error (.invalidVectorSize name)

/-- The format of an attribute from the types of its data and of the variable it is bound to. -/
def attributeFormat (glType glslType : List Char) : Except LineError Format :=
  match glTypes.lookup glType with
  | none => .error (.unknownGlType glType)
  | some (mode, bits) => do
    match Format.ofDetails? bits mode (← attributeComponents glslType) with
    | some format => .ok format
    | none => .error (.invalidTypePair glType glslType)

def slashPieces : List Char → List (List Char)
  | [] => [[]]
  | c :: rest =>
    if c = '/' then [] :: slashPieces rest
    else
      match slashPieces rest with
      | [] => [[c]]
      | piece :: more => (c :: piece) :: more

/-- The format that the pieces of a column header after its location name. -/
def readColumnFormat (header : List Char) : List (List Char) → Except LineError Format
  | [] => .error (.headerWithoutFormat header)
  | [name] =>
    match Format.ofName? (String.ofList name) with
    | some format => .ok format
    | none => .error (.unknownFormat name)
  | [glType, glslType] => attributeFormat glType glslType
  | _ => .error (.overlongHeader header)

def readColumn (header : List Char) : Except LineError (Nat × Format) :=
  match slashPieces header with
  | [] => .error (.invalidLocation header)
  | location :: rest =>
    match wholeNatural? 10 32 location with
    | none => .error (.invalidLocation header)
    | some location => (readColumnFormat header rest).map fun format => (location, format)

def readColumns (line : List Char) : Except LineError (List (Nat × Format)) :=
  (words line).mapM readColumn

/-- The value of one component in a cell. Base sixteen is for packed words only. -/
def readCell (packed : Bool) (scalar : Scalar) (token : List Char) : Except LineError Value :=
  if !packed && isHexLiteral token then .error (.invalidCell token)
  else
    match Value.ofToken? scalar token with
    | some value => .ok value
    | none => .error (.invalidCell token)

/-- The values of some components, and the tokens behind them. -/
def readCells (packed : Bool) :
    List Scalar → List (List Char) → Except LineError (List Value × List (List Char))
  | [], tokens => .ok ([], tokens)
  | _ :: _, [] => .error .tooFewCells
  | scalar :: scalars, token :: tokens => do
    let value ← readCell packed scalar token
    let (values, rest) ← readCells packed scalars tokens
    return (value :: values, rest)

/-- The values of a row for columns of some formats. -/
def readRow : List Format → List (List Char) → Except LineError (List (List Value))
  | [], [] => .ok []
  | [], _ :: _ => .error .tooManyCells
  | format :: formats, tokens => do
    let (values, rest) ← readCells format.isPacked format.scalars tokens
    return values :: (← readRow formats rest)

end GpuScript
