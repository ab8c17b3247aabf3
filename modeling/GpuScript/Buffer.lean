import GpuScript.ByteCoding
import GpuScript.FloatArithmetic
import GpuScript.Format

/-!
# Buffers

A buffer is a run of elements of one format. Values are written component by component, and raw
bytes can be copied in as well. Every operation keeps the bytes as long as the element count times
the element size; growing fills with zeros, and only an explicit resizing shrinks.

Sizes, offsets and counts are natural numbers. They are taken to fit in memory, so that a sum or a
product of them is itself: a write that would end past the last address is not part of the theory.
-/

namespace GpuScript

inductive BufferKind | color | depth | index | vertex | storage | uniform
  deriving DecidableEq

/-- The descriptor set and the binding number of a buffer. -/
structure Binding where
  set : Nat
  number : Nat
  deriving DecidableEq

/-- Why buffers cannot be written, copied or taken as equal. -/
inductive BufferError
  | differentFormat
  | differentSize
  | differentWidth
  | differentHeight
  | differentValueCount
  /-- Some bytes differ, the first of them at an index. -/
  | valuesDiffer (count index : Nat) (left right : UInt8)
  /-- The root mean square of the differences is above a tolerance. -/
  | rmseExceeded (rmse : BitVec 64) (tolerance : BitVec 32)
  /-- Trailing values do not fill an element and do not fit. -/
  | mismatchedItems
  deriving DecidableEq

def BufferError.message : BufferError → String
  | .differentFormat => "Buffers have a different format"
  | .differentSize => "Buffers have a different size"
  | .differentWidth => "Buffers have a different width"
  | .differentHeight => "Buffers have a different height"
  | .differentValueCount => "Buffers have a different number of values"
  | .valuesDiffer count index left right =>
    "Buffers have different values. " ++ toString count ++
      " values differed, first difference at byte " ++ toString index ++ " values " ++
      toString left.toNat ++ " != " ++ toString right.toNat
  | .rmseExceeded rmse tolerance =>
    "Root Mean Square Error of " ++ String.ofList (FloatFormat.double.fixedText 6 rmse) ++
      " is greater than tolerance of " ++
      String.ofList (FloatFormat.single.fixedText 6 tolerance)
  | .mismatchedItems => "Mismatched number of items in buffer"

def resizeBytes (length : Nat) (bytes : List UInt8) : List UInt8 :=
  bytes.take length ++ List.replicate (length - bytes.length) 0

def clearBytes (low high : Nat) (bytes : List UInt8) : List UInt8 :=
  bytes.take low ++ List.replicate (min high bytes.length - low) 0 ++ bytes.drop (max low high)

@[simp] theorem length_resizeBytes (length : Nat) (bytes : List UInt8) :
    (resizeBytes length bytes).length = length := by
  simp only [resizeBytes, List.length_append, List.length_take, List.length_replicate]
  omega

@[simp] theorem length_clearBytes (low high : Nat) (bytes : List UInt8) :
    (clearBytes low high bytes).length = bytes.length := by
  simp only [clearBytes, List.length_append, List.length_take, List.length_replicate,
    List.length_drop]
  omega

def writePlaced : List ((Scalar × Nat) × Value) → List UInt8 → Except Fault (List UInt8)
  | [], bytes => .ok bytes
  | ((scalar, offset), value) :: rest, bytes => do
    writePlaced rest (← value.writeAt scalar offset bytes)

/-- A run of elements of one format. -/
structure Buffer where
  kind : BufferKind
  format : Format
  /-- Whether the format stands in for one that a later command gives. -/
  formatIsDefault : Bool := false
  bytes : List UInt8 := []
  elementCount : Nat := 0
  width : Nat := 1
  height : Nat := 1
  /-- The greatest size recorded, zero if there is none. -/
  recordedMax : Nat := 0
  location : Option Nat := none
  binding : Option Binding := none
  deriving DecidableEq

namespace Buffer

def ofFormat (kind : BufferKind) (format : Format) : Buffer := { kind := kind, format := format }

variable (b : Buffer)

def valueCount : Nat := b.elementCount * b.format.valuesPerElement

def size : Nat := b.elementCount * b.format.size

/-- The greatest size recorded, or the present one if there is none. -/
def maxSize : Nat := if b.recordedMax = 0 then b.size else b.recordedMax

def setElementCount (count : Nat) : Buffer :=
  { b with elementCount := count, bytes := resizeBytes (count * b.format.size) b.bytes }

def setValueCount (count : Nat) : Buffer := b.setElementCount (count / b.format.valuesPerElement)

/-- The buffer with another size, which must be a whole number of elements. -/
def setSize (size : Nat) : Except Fault Buffer :=
  if size % b.format.size = 0 then .ok (b.setElementCount (size / b.format.size))
  else .error (.raggedSize size b.format.size)

def setFormat (format : Format) : Buffer :=
  { b with format := format }.setElementCount (format.elementsIn b.bytes.length)

/-- The end of the last component that a count of values takes from an offset on. -/
def dataEnd (values offset : Nat) : Nat :=
  let places := (b.format.components offset (b.format.elementsOf values)).take values
  (places.map fun place => place.2 + place.1.size).max?.getD offset

/-- The number of values that fill whole elements. -/
def wholeValues (values : Nat) : Nat :=
  values / b.format.valuesPerElement * b.format.valuesPerElement

/-- The number of elements that whole elements of values need when they start at an offset. -/
def elementsForData (values offset : Nat) : Nat :=
  if b.wholeValues values = 0 then 0
  else b.format.elementsIn (b.dataEnd (b.wholeValues values) offset)

/-- The buffer with its greatest size raised to hold values at an offset. -/
def recordData (values : List Value) (offset : Nat) : Buffer :=
  let needed := b.elementsForData values.length offset * b.format.size
  if b.maxSize < needed then { b with recordedMax := needed } else b

/-- The buffer with values written from an offset on. It grows to hold their whole elements, the
bytes of which are cleared first. A trailing part of an element must fit, or nothing changes. -/
def setData (values : List Value) (offset : Nat) : Except (Failure BufferError) Buffer :=
  let count := max b.elementCount (b.elementsForData values.length offset)
  if count * b.format.size < b.dataEnd values.length offset then refuse .mismatchedItems
  else
    let grown := b.setElementCount count
    let room := values.length / b.format.valuesPerElement * b.format.size
    let cleared := clearBytes offset (offset + room) grown.bytes
    let places := b.format.components offset (b.format.elementsOf values.length)
    (orFault (writePlaced (places.zip values) cleared)).map fun bytes =>
      { grown with bytes := bytes }

/-- The buffer with the bytes of another one copied to an offset. It grows to hold them, and a last
element that they only start is completed with zeros. -/
def setBytes (source : Buffer) (offset : Nat) : Buffer :=
  let last := offset + source.bytes.length
  let grown := resizeBytes (max b.bytes.length last) b.bytes
  let bytes := grown.take offset ++ source.bytes ++ grown.drop last
  { b with bytes := bytes }.setElementCount (b.format.elementsIn bytes.length)

/-- Another buffer of the same format and dimensions with the bytes of this one. -/
def copyTo (target : Buffer) : Except BufferError Buffer :=
  if !target.format.sameLayout b.format then .error .differentFormat
  else if target.width ≠ b.width then .error .differentWidth
  else if target.height ≠ b.height then .error .differentHeight
  else if target.elementCount ≠ b.elementCount then .error .differentSize
  else .ok { target with bytes := b.bytes }

def values : Except Fault (List Value) :=
  (b.format.components 0 b.elementCount).mapM fun place =>
    Value.read place.1 (b.bytes.drop place.2)

end Buffer

end GpuScript
