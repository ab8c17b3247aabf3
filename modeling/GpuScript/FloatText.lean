import GpuScript.FloatFormat

/-!
# Decimal text of floating-point numbers

Reading a decimal numeral rounds it once, whatever its length. Two written forms exist: the fewest
digits that read back as the same number, always positional, and a fixed count of decimal places
rounded from the exact value with ties to even.
-/

namespace GpuScript

def decimalDigits (n : Nat) : List Char := Nat.toDigits 10 n

namespace FloatFormat

variable (f : FloatFormat)

/-- A power of ten above every finite number of the format, and so far that its inverse is below
half of every positive one. -/
def decimalReach : Nat := twoPow f.exponentBits + f.fractionBits

/-- The pattern nearest to `± significand * 10 ^ exponent`. A magnitude beyond the decimal reach
has its rounding settled without its digits being written out. -/
def ofDecimal (negative : Bool) (significand : Nat) (exponent : Int) : BitVec f.width :=
  let digits := (decimalDigits significand).length
  if significand = 0 ∨ exponent + digits < -(f.decimalReach : Int) then f.withSign negative 0
  else if (f.decimalReach : Int) < exponent + digits then f.withSign negative f.infinity
  else f.ofRatio negative (significand * tenPow exponent.toNat) (tenPow (-exponent).toNat)

/-- The decimal significands just below and above `n / d` at the place `10 ^ place` that read back
as a given pattern, nearer one first; of two at one distance the upper comes first. -/
def decimalNeighbours (b : BitVec f.width) (negative : Bool) (n d : Nat) (place : Int) :
    List Nat :=
  let num := n * tenPow (-place).toNat
  let den := d * tenPow place.toNat
  let lower := num / den
  let ordered :=
    if 2 * (num % den) < den then [lower, lower + 1] else [lower + 1, lower]
  ordered.filter fun m => f.ofDecimal negative m place == b

/-- The shortest decimal significand that reads back as a pattern, with the exponent of its last
digit. The places are tried downward from the one above the leading digit of `n / d`, which rounding
up may reach: so a carry to a power of ten is found there as `1`, before it could be found below as
`10`. -/
def shortestDecimal (b : BitVec f.width) (negative : Bool) (n d : Nat) : Nat × Int :=
  let scale := f.decimalReach
  let leading : Int := ((decimalDigits (n * tenPow scale / d)).length : Int) - 1 - scale
  let found := (List.range f.width).findSome? fun i : Nat =>
    let place := leading + 1 - (i : Int)
    (f.decimalNeighbours b negative n d place).head?.map fun m => (m, place)
  found.getD (n * tenPow scale / d, -(scale : Int))

/-- A decimal significand with its decimal point put in place, without an exponent. -/
def positional (significand : Nat) (place : Int) : List Char :=
  let digits := decimalDigits significand
  if 0 ≤ place then digits ++ List.replicate place.toNat '0'
  else
    let places := (-place).toNat
    let padded := List.replicate (places + 1 - digits.length) '0' ++ digits
    padded.take (padded.length - places) ++ '.' :: padded.drop (padded.length - places)

def signText (negative : Bool) : List Char := if negative then ['-'] else []

/-- The fewest digits that read back as the pattern, never with an exponent. -/
def shortestText (b : BitVec f.width) : List Char :=
  match f.decode b with
  | .nan .. => "NaN".toList
  | .infinite s => signText s ++ "inf".toList
  | .finite s m e =>
    if m = 0 then signText s ++ ['0']
    else
      let (digits, place) := f.shortestDecimal b s (m * twoPow e.toNat) (twoPow (-e).toNat)
      signText s ++ positional digits place

def fixedText (places : Nat) (b : BitVec f.width) : List Char :=
  match f.decode b with
  | .nan .. => "NaN".toList
  | .infinite s => signText s ++ "inf".toList
  | .finite s m e =>
    let scaled := roundDiv (m * twoPow e.toNat * tenPow places) (twoPow (-e).toNat)
    signText s ++ positional scaled (-(places : Int))

end FloatFormat

end GpuScript
