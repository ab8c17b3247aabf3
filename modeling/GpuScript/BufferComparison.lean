import GpuScript.Buffer

/-!
# Comparing buffers

Two buffers of one shape are compared byte by byte, or by the root mean square of the differences
of their components. Differences of integers wrap to their width before they become floats.
-/

namespace GpuScript

def Scalar.difference : (s : Scalar) → BitVec s.bits → BitVec s.bits → BitVec 64
  | .float16, a, b =>
    FloatFormat.single.convert .double
      (FloatFormat.single.sub (Half.widen a) (Half.widen b))
  | .float32, a, b => FloatFormat.single.convert .double (FloatFormat.single.sub a b)
  | .float64, a, b => FloatFormat.double.sub a b
  | s, a, b => FloatFormat.double.ofInt (Value.toInt ⟨s, a - b⟩)

/-- The index and the members of each differing pair of two lists, from an index on. -/
def differingBytes : Nat → List UInt8 → List UInt8 → List (Nat × UInt8 × UInt8)
  | index, a :: as, b :: bs =>
    let rest := differingBytes (index + 1) as bs
    if a = b then rest else (index, a, b) :: rest
  | _, _, _ => []

def rootMeanSquare (numbers : List (BitVec 64)) : BitVec 64 :=
  let sum := numbers.foldl
    (fun sum d => FloatFormat.double.add sum (FloatFormat.double.mul d d))
    (FloatFormat.double.withSign false 0)
  FloatFormat.double.sqrt (FloatFormat.double.div sum (FloatFormat.double.ofInt numbers.length))

namespace Buffer

def checkShape (a b : Buffer) : Except BufferError Unit :=
  if !a.format.sameLayout b.format then .error .differentFormat
  else if a.elementCount ≠ b.elementCount then .error .differentSize
  else if a.width ≠ b.width then .error .differentWidth
  else if a.height ≠ b.height then .error .differentHeight
  else .ok ()

/-- Whether two buffers have one shape and the same bytes. The error tells how many bytes differ and
where the first of them is. -/
def checkEqual (a b : Buffer) : Except BufferError Unit := do
  a.checkShape b
  if a.bytes.length ≠ b.bytes.length then .error .differentValueCount
  else
    match differingBytes 0 a.bytes b.bytes with
    | [] => .ok ()
    | (index, left, right) :: rest => .error (.valuesDiffer (rest.length + 1) index left right)

/-- The difference of each component of two buffers, which must have one layout. -/
def differences (a b : Buffer) : Except Fault (List (BitVec 64)) :=
  if a.format.sameLayout b.format ∧ a.bytes.length = b.bytes.length then
    (a.format.components 0 a.elementCount).mapM fun (scalar, offset) => do
      let left ← scalar.read (a.bytes.drop offset)
      let right ← scalar.read (b.bytes.drop offset)
      return scalar.difference left right
  else .error .layoutMismatch

/-- Whether the root mean square of the differences of two buffers is not above a tolerance. -/
def checkTolerance (a b : Buffer) (tolerance : BitVec 32) :
    Except (Failure BufferError) Unit := do
  match a.checkShape b with
  | .error cause => refuse cause
  | .ok () =>
    if a.valueCount ≠ b.valueCount then refuse .differentValueCount
    else
      let differences ← orFault (a.differences b)
      if differences = [] then .ok ()
      else
        let rmse := rootMeanSquare differences
        if FloatFormat.double.lt (FloatFormat.single.convert .double tolerance) rmse then
          refuse (.rmseExceeded rmse tolerance)
        else .ok ()

end Buffer

end GpuScript
