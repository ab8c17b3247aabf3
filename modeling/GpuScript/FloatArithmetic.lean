import GpuScript.FloatFormat

/-!
# Floating-point arithmetic

Sum, difference, product, quotient, square root and order over the patterns of one format. Each
operation computes its exact result and rounds it once. A NaN operand makes every result a NaN and
every comparison false.
-/

namespace GpuScript

/-- The greatest natural whose square is at most `n`, sought downward from bit `k`. -/
def sqrtFrom (n : Nat) : Nat → Nat → Nat
  | 0, root => root
  | k + 1, root =>
    let next := root + twoPow k
    sqrtFrom n k (if next * next ≤ n then next else root)

def sqrtFloor (n : Nat) : Nat := sqrtFrom n (n.log2 / 2 + 1) 0

namespace FloatFormat

def signedSignificand (negative : Bool) (significand : Nat) : Int :=
  if negative then -(significand : Int) else significand

/-- Two scaled numbers brought to their lesser exponent. -/
def align (s t : Int) (e g : Int) : Int × Int × Int :=
  let low := min e g
  (s * twoPow (e - low).toNat, t * twoPow (g - low).toNat, low)

variable (f : FloatFormat)

def neg (b : BitVec f.width) : BitVec f.width :=
  f.withSign (!f.negative b) (b.toNat % twoPow (f.exponentBits + f.fractionBits))

/-- The sum. An exact zero is negative only if both operands are. -/
def add (a b : BitVec f.width) : BitVec f.width :=
  match f.decode a, f.decode b with
  | .nan .., _ | _, .nan .. => f.defaultNaN
  | .infinite s, .infinite t => if s = t then f.withSign s f.infinity else f.defaultNaN
  | .infinite s, .finite .. => f.withSign s f.infinity
  | .finite .., .infinite t => f.withSign t f.infinity
  | .finite s m e, .finite t n g =>
    let (x, y, low) := align (signedSignificand s m) (signedSignificand t n) e g
    let sum := x + y
    f.ofScaled (if sum = 0 then s && t else sum < 0) sum.natAbs low

def sub (a b : BitVec f.width) : BitVec f.width := f.add a (f.neg b)

def mul (a b : BitVec f.width) : BitVec f.width :=
  match f.decode a, f.decode b with
  | .nan .., _ | _, .nan .. => f.defaultNaN
  | .infinite s, .infinite t => f.withSign (s != t) f.infinity
  | .infinite s, .finite t n _ => if n = 0 then f.defaultNaN else f.withSign (s != t) f.infinity
  | .finite s m _, .infinite t => if m = 0 then f.defaultNaN else f.withSign (s != t) f.infinity
  | .finite s m e, .finite t n g => f.ofScaled (s != t) (m * n) (e + g)

def div (a b : BitVec f.width) : BitVec f.width :=
  match f.decode a, f.decode b with
  | .nan .., _ | _, .nan .. => f.defaultNaN
  | .infinite _, .infinite _ => f.defaultNaN
  | .infinite s, .finite t _ _ => f.withSign (s != t) f.infinity
  | .finite s _ _, .infinite t => f.withSign (s != t) 0
  | .finite s m e, .finite t n g =>
    if n = 0 then
      if m = 0 then f.defaultNaN else f.withSign (s != t) f.infinity
    else f.ofRatio (s != t) (m * twoPow (e - g).toNat) (n * twoPow (g - e).toNat)

/-- The square root of a positive scaled number. The significand is first extended until its root
has more bits than the format; one further bit then records whether the root is inexact, which is
all that rounding to nearest needs. -/
def sqrtScaled (significand : Nat) (exponent : Int) : BitVec f.width :=
  let shift := 2 * (f.fractionBits + 3) + (exponent % 2).toNat
  let extended := significand * twoPow shift
  let root := sqrtFloor extended
  let sticky := if root * root = extended then 0 else 1
  f.ofScaled false (2 * root + sticky) ((exponent - shift) / 2 - 1)

def sqrt (b : BitVec f.width) : BitVec f.width :=
  match f.decode b with
  | .nan .. => f.defaultNaN
  | .infinite s => if s then f.defaultNaN else f.withSign false f.infinity
  | .finite s m e =>
    if m = 0 then f.withSign s 0 else if s then f.defaultNaN else f.sqrtScaled m e

def lt (a b : BitVec f.width) : Bool :=
  match f.decode a, f.decode b with
  | .nan .., _ | _, .nan .. => false
  | .infinite s, .infinite t => s && !t
  | .infinite s, .finite .. => s
  | .finite .., .infinite t => !t
  | .finite s m e, .finite t n g =>
    let (x, y, _) := align (signedSignificand s m) (signedSignificand t n) e g
    x < y

end FloatFormat

end GpuScript
