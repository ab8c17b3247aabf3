import GpuScript.Fault

/-!
# Half floats by truncation

A single-precision number becomes a half float by rebiasing its exponent and dropping the low bits
of its fraction, without rounding. Numbers whose rebiased exponent does not fit in five bits cannot
be stored; zeros and subnormal numbers become a zero of the same sign.
-/

namespace GpuScript.Half

/-- The difference between the exponent biases of the two formats. -/
def rebias : Nat := FloatFormat.single.bias - FloatFormat.half.bias

/-- The exponent field that a single-precision number gets as a half float. -/
def exponent? (value : BitVec 32) : Option Nat :=
  let exponent := FloatFormat.single.exponentField value
  if exponent = 0 then some 0
  else if rebias ≤ exponent ∧ exponent - rebias < twoPow FloatFormat.half.exponentBits then
    some (exponent - rebias)
  else none

def fits (value : BitVec 32) : Bool := (exponent? value).isSome

def fraction (value : BitVec 32) : Nat :=
  if FloatFormat.single.exponentField value = 0 then 0
  else FloatFormat.single.fractionField value /
    twoPow (FloatFormat.single.fractionBits - FloatFormat.half.fractionBits)

/-- The half float that a single-precision number is stored as. -/
def truncate (value : BitVec 32) : Except Fault (BitVec 16) :=
  match exponent? value with
  | some exponent =>
    .ok (FloatFormat.half.withSign (FloatFormat.single.negative value)
      (exponent * twoPow FloatFormat.half.fractionBits + fraction value))
  | none => .error (.halfExponent value)

def widen (value : BitVec 16) : BitVec 32 := FloatFormat.half.convert .single value

end GpuScript.Half
