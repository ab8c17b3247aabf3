import GpuScript.Half
import GpuScript.Scalar

/-!
# Tagged scalars

A value is a kind of scalar with a bit pattern of its width. Conversions between kinds follow one
set of rules: integers wrap to a width, floats become integers by truncation held within range, and
everything that becomes a float is rounded to nearest even.
-/

namespace GpuScript

/-- A scalar that is passed between the readers of numbers and the encoder of bytes. -/
structure Value where
  scalar : Scalar
  bits : BitVec scalar.bits
  deriving DecidableEq

namespace Value

def ofSingle (b : BitVec 32) : Value := ⟨.float32, b⟩

def ofDouble (b : BitVec 64) : Value := ⟨.float64, b⟩

/-- An integer wrapped to the width of a kind. -/
def ofInt (s : Scalar) (i : Int) : Value := ⟨s, BitVec.ofInt s.bits i⟩

def toInt (v : Value) : Int := if v.scalar.isSigned then v.bits.toInt else v.bits.toNat

def datum? : Value → Option Datum
  | ⟨.float16, b⟩ => some (FloatFormat.half.decode b)
  | ⟨.float32, b⟩ => some (FloatFormat.single.decode b)
  | ⟨.float64, b⟩ => some (FloatFormat.double.decode b)
  | _ => none

def minInt (signed : Bool) (width : Nat) : Int :=
  if signed then -(twoPow (width - 1) : Int) else 0

def maxInt (signed : Bool) (width : Nat) : Int :=
  if signed then (twoPow (width - 1) : Int) - 1 else (twoPow width : Int) - 1

def toInteger (v : Value) (signed : Bool) (width : Nat) : BitVec width :=
  match v.datum? with
  | some datum => BitVec.ofInt width (datum.toIntWithin (minInt signed width) (maxInt signed width))
  | none => BitVec.ofInt width v.toInt

def toSingle : Value → BitVec 32
  | ⟨.float16, b⟩ => Half.widen b
  | ⟨.float32, b⟩ => b
  | ⟨.float64, b⟩ => FloatFormat.double.convert .single b
  | v => FloatFormat.single.ofInt v.toInt

def toDouble : Value → BitVec 64
  | ⟨.float16, b⟩ => FloatFormat.single.convert .double (Half.widen b)
  | ⟨.float32, b⟩ => FloatFormat.single.convert .double b
  | ⟨.float64, b⟩ => b
  | v => FloatFormat.double.ofInt v.toInt

def bitsAs (v : Value) : (s : Scalar) → Except Fault (BitVec s.bits)
  | .float16 => Half.truncate v.toSingle
  | .float32 => .ok v.toSingle
  | .float64 => .ok v.toDouble
  | s => .ok (v.toInteger s.isSigned s.bits)

def isNaN (v : Value) : Bool :=
  match v.datum? with
  | some (.nan ..) => true
  | _ => false

end Value

end GpuScript
