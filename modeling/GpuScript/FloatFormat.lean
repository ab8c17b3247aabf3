import GpuScript.Powers

/-!
# Binary floating-point formats

A format is given by the widths of its exponent and fraction fields. `decode` says what a bit
pattern stands for, `ofRatio` rounds an exact quotient of naturals to the nearest pattern with ties
to even, and every other way of making a number goes through it. A NaN keeps its sign and the top
of its payload when it moves between formats, and is quiet afterwards.
-/

namespace GpuScript

/-- The quotient of two naturals rounded to the nearest one; a tie goes to the even neighbour. -/
def roundDiv (n d : Nat) : Nat :=
  let quotient := n / d
  let twice := 2 * (n % d)
  if twice < d ∨ (twice = d ∧ quotient % 2 = 0) then quotient else quotient + 1

/-- The greatest `e` with `2 ^ e ≤ n / d`, for positive `n` and `d`. -/
def ratioLog2 (n d : Nat) : Int :=
  let e : Int := (n.log2 : Int) - (d.log2 : Int)
  if d * twoPow e.toNat ≤ n * twoPow (-e).toNat then e else e - 1

/-- What a pattern of a binary format stands for; a finite one is
`± significand * 2 ^ exponent`. -/
inductive Datum
  | nan (negative : Bool) (payload : Nat)
  | infinite (negative : Bool)
  | finite (negative : Bool) (significand : Nat) (exponent : Int)
  deriving DecidableEq

/-- A binary interchange format with an implicit leading bit. -/
structure FloatFormat where
  exponentBits : Nat
  fractionBits : Nat
  deriving DecidableEq

namespace FloatFormat

def half : FloatFormat := ⟨5, 10⟩

def single : FloatFormat := ⟨8, 23⟩

def double : FloatFormat := ⟨11, 52⟩

def width (f : FloatFormat) : Nat := f.exponentBits + f.fractionBits + 1

/-- What is added to the exponent of a normal number to give its exponent field. -/
def bias (f : FloatFormat) : Nat := twoPow (f.exponentBits - 1) - 1

def topExponent (f : FloatFormat) : Nat := twoPow f.exponentBits - 1

/-- The exponent of the least positive number. -/
def leastExponent (f : FloatFormat) : Int := 1 - (f.bias : Int) - f.fractionBits

/-- The pattern of positive infinity, which is above that of every finite magnitude. -/
def infinity (f : FloatFormat) : Nat := f.topExponent * twoPow f.fractionBits

/-- The fraction bit that a quiet NaN has set. -/
def quietBit (f : FloatFormat) : Nat := twoPow (f.fractionBits - 1)

variable (f : FloatFormat)

def withSign (negative : Bool) (magnitude : Nat) : BitVec f.width :=
  let sign := if negative then twoPow (f.exponentBits + f.fractionBits) else 0
  BitVec.ofNat f.width (sign + magnitude)

def negative (b : BitVec f.width) : Bool :=
  b.toNat / twoPow (f.exponentBits + f.fractionBits) % 2 = 1

def exponentField (b : BitVec f.width) : Nat :=
  b.toNat / twoPow f.fractionBits % twoPow f.exponentBits

def fractionField (b : BitVec f.width) : Nat := b.toNat % twoPow f.fractionBits

def decode (b : BitVec f.width) : Datum :=
  let sign := f.negative b
  let exponent := f.exponentField b
  let fraction := f.fractionField b
  if exponent = f.topExponent then
    if fraction = 0 then .infinite sign else .nan sign fraction
  else if exponent = 0 then .finite sign fraction f.leastExponent
  else .finite sign (fraction + twoPow f.fractionBits) (f.leastExponent + exponent - 1)

def isNaN (b : BitVec f.width) : Bool :=
  f.exponentField b = f.topExponent ∧ f.fractionField b ≠ 0

def defaultNaN : BitVec f.width := f.withSign false (f.infinity + f.quietBit)

/-- The pattern nearest to `± n / d`, where a tie goes to the even pattern and a magnitude beyond
the greatest finite one by half a step or more becomes infinite. -/
def ofRatio (negative : Bool) (n d : Nat) : BitVec f.width :=
  if n = 0 then f.withSign negative 0
  else
    let exponent := max (ratioLog2 n d - f.fractionBits) f.leastExponent
    let significand := roundDiv (n * twoPow (-exponent).toNat) (d * twoPow exponent.toNat)
    let magnitude := (exponent - f.leastExponent).toNat * twoPow f.fractionBits + significand
    f.withSign negative (min magnitude f.infinity)

def ofScaled (negative : Bool) (significand : Nat) (exponent : Int) : BitVec f.width :=
  f.ofRatio negative (significand * twoPow exponent.toNat) (twoPow (-exponent).toNat)

def ofInt (i : Int) : BitVec f.width := f.ofRatio (i < 0) i.natAbs 1

def convert (g : FloatFormat) (b : BitVec f.width) : BitVec g.width :=
  match f.decode b with
  | .nan sign payload =>
    let aligned := payload * twoPow (g.fractionBits - f.fractionBits) /
      twoPow (f.fractionBits - g.fractionBits)
    g.withSign sign (g.infinity + (aligned ||| g.quietBit))
  | .infinite sign => g.withSign sign g.infinity
  | .finite sign significand exponent => g.ofScaled sign significand exponent

end FloatFormat

/-- The integer nearest to a datum toward zero, held between two bounds; a NaN counts as zero. -/
def Datum.toIntWithin (lo hi : Int) : Datum → Int
  | .nan .. => 0
  | .infinite sign => if sign then lo else hi
  | .finite sign significand exponent =>
    let magnitude := significand * twoPow exponent.toNat / twoPow (-exponent).toNat
    max lo (min hi (if sign then -(magnitude : Int) else magnitude))

end GpuScript
