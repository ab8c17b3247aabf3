/-!
# Scalars and numeric modes

The kinds of number that one component of a buffer can hold, and the numeric mode that a format
gives to a component. A mode together with a bit count determines at most one kind; the counts that
occur only inside packed words determine none.
-/

namespace GpuScript

/-- How the bits of a component are to be interpreted. -/
inductive Mode | unorm | snorm | uscaled | sscaled | uint | sint | ufloat | sfloat | srgb
  deriving DecidableEq, Inhabited

/-- The machine representation of a component. -/
inductive Scalar
  | int8 | int16 | int32 | int64
  | uint8 | uint16 | uint32 | uint64
  | float16 | float32 | float64
  deriving DecidableEq, Inhabited

namespace Scalar

def all : List Scalar :=
  [.int8, .int16, .int32, .int64, .uint8, .uint16, .uint32, .uint64, .float16, .float32, .float64]

def size : Scalar → Nat
  | .int8 | .uint8 => 1
  | .int16 | .uint16 | .float16 => 2
  | .int32 | .uint32 | .float32 => 4
  | .int64 | .uint64 | .float64 => 8

def bits (s : Scalar) : Nat := s.size * 8

def isFloat : Scalar → Bool
  | .float16 | .float32 | .float64 => true
  | _ => false

def isSigned : Scalar → Bool
  | .uint8 | .uint16 | .uint32 | .uint64 => false
  | _ => true

def signedOfBits? : Nat → Option Scalar
  | 8 => some .int8
  | 16 => some .int16
  | 32 => some .int32
  | 64 => some .int64
  | _ => none

def unsignedOfBits? : Nat → Option Scalar
  | 8 => some .uint8
  | 16 => some .uint16
  | 32 => some .uint32
  | 64 => some .uint64
  | _ => none

def floatOfBits? : Nat → Option Scalar
  | 16 => some .float16
  | 32 => some .float32
  | 64 => some .float64
  | _ => none

/-- The kind of a component with a mode and a bit count. Unsigned floats occur only inside packed
words and have no kind of their own. -/
def ofMode? : Mode → Nat → Option Scalar
  | .sfloat, bits => floatOfBits? bits
  | .snorm, bits | .sscaled, bits | .sint, bits => signedOfBits? bits
  | .unorm, bits | .uscaled, bits | .uint, bits | .srgb, bits => unsignedOfBits? bits
  | .ufloat, _ => none

def naturalMode (s : Scalar) : Mode :=
  if s.isFloat then .sfloat else if s.isSigned then .sint else .uint

theorem size_pos (s : Scalar) : 0 < s.size := by cases s <;> decide

end Scalar

end GpuScript
