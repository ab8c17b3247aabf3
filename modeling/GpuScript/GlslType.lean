import GpuScript.Format

/-!
# Shader variable types

The names of the scalar, vector and matrix types of shader variables, and the format of one array
element of such a type under a layout rule. Matrices are stored column by column. A column of three
rows takes the room of four, and one rule further aligns every column to sixteen bytes.
-/

namespace GpuScript

/-- A rule that places shader variables in a buffer. -/
inductive LayoutRule | std140 | std430
  deriving DecidableEq

/-- The scalar of a shader type with its numbers of columns and rows. -/
structure GlslShape where
  scalar : Scalar
  columns : Nat
  rows : Nat
  deriving DecidableEq

namespace GlslShape

def scalarNames : List (List Char × Scalar) := [
  ("double".toList, .float64), ("float".toList, .float32), ("float16_t".toList, .float16),
  ("int".toList, .int32), ("int16_t".toList, .int16), ("int64_t".toList, .int64),
  ("int8_t".toList, .int8), ("uint".toList, .uint32), ("uint16_t".toList, .uint16),
  ("uint64_t".toList, .uint64), ("uint8_t".toList, .uint8)]

def vectorNames : List (List Char × Scalar) := [
  ("dvec".toList, .float64), ("f16vec".toList, .float16), ("i16vec".toList, .int16),
  ("i64vec".toList, .int64), ("i8vec".toList, .int8), ("ivec".toList, .int32),
  ("u16vec".toList, .uint16), ("u64vec".toList, .uint64), ("u8vec".toList, .uint8),
  ("uvec".toList, .uint32), ("vec".toList, .float32)]

def matrixNames : List (List Char × Scalar) :=
  [("dmat".toList, .float64), ("mat".toList, .float32)]

def dimension? : List Char → Option Nat
  | ['2'] => some 2
  | ['3'] => some 3
  | ['4'] => some 4
  | _ => none

/-- The first of some names that a text starts with, and the rest of the text. -/
def stem? (names : List (List Char × Scalar)) (text : List Char) :
    Option (Scalar × List Char) :=
  names.findSome? fun p => (p.1.isPrefixOf? text).map fun rest => (p.2, rest)

/-- The dimensions of a matrix: the columns and rows about an x, or one number for both. -/
def dimensions? (text : List Char) : Option (Nat × Nat) :=
  match text.span (· ≠ 'x') with
  | (columns, _ :: rows) =>
    match dimension? columns, dimension? rows with
    | some c, some r => some (c, r)
    | _, _ => none
  | (both, []) => (dimension? both).map fun n => (n, n)

/-- The shape of a named type. The first name that fits decides. -/
def ofName? (name : List Char) : Option GlslShape :=
  match scalarNames.lookup name with
  | some scalar => some ⟨scalar, 1, 1⟩
  | none =>
    match stem? vectorNames name with
    | some (scalar, rest) => (dimension? rest).map fun rows => ⟨scalar, 1, rows⟩
    | none =>
      match stem? matrixNames name with
      | some (scalar, rest) => (dimensions? rest).map fun d => ⟨scalar, d.1, d.2⟩
      | none => none

/-- The bytes of a column before the layout rule aligns it. -/
def baseStride (shape : GlslShape) : Nat :=
  shape.scalar.size * (if shape.rows = 3 then 4 else shape.rows)

/-- The bytes from one column to the next. -/
def columnStride (shape : GlslShape) : LayoutRule → Nat
  | .std140 => (shape.baseStride + 15) / 16 * 16
  | .std430 => shape.baseStride

/-- The segments of a column: its scalars and the padding up to the next column. -/
def columnSegments (shape : GlslShape) (rule : LayoutRule) : List Segment :=
  let padding := shape.columnStride rule - shape.scalar.size * shape.rows
  List.replicate shape.rows (.component shape.scalar.naturalMode shape.scalar) ++
    (if padding = 0 then [] else [.padding padding])

def segments (shape : GlslShape) (rule : LayoutRule) : List Segment :=
  (List.replicate shape.columns (shape.columnSegments rule)).flatten

def parts (shape : GlslShape) : List Part :=
  (Component.rgba.take shape.rows).map fun c =>
    ⟨c, shape.scalar.bits, shape.scalar.naturalMode⟩

end GlslShape

def Format.ofGlslType? (name : List Char) (rule : LayoutRule) : Option Format :=
  (GlslShape.ofName? name).bind fun shape =>
    Format.ofSegments? none none shape.parts (shape.segments rule)

end GpuScript
