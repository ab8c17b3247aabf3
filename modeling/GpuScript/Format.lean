import GpuScript.Scalar

/-!
# Element formats

A format describes the bytes of one element of a buffer as a list of segments, each a component
that holds one scalar or some bytes of padding. It always has a component, so that an element has a
positive size and takes at least one value. A packed format has a single component, the word that
its parts share.

Offsets and counts of elements are natural numbers, taken to be those of bytes in memory. The end of
a run of elements is never past the last address.
-/

namespace GpuScript

/-- The role of a part of a format. -/
inductive Component | r | g | b | a | d | s | x
  deriving DecidableEq

namespace Component

def rgba : List Component := [.r, .g, .b, .a]

end Component

structure Part where
  component : Component
  bits : Nat
  mode : Mode
  deriving DecidableEq

/-- A piece of an element: bytes that are skipped, or one scalar. -/
inductive Segment
  | padding (bytes : Nat)
  | component (mode : Mode) (scalar : Scalar)
  deriving DecidableEq

namespace Segment

def size : Segment → Nat
  | .padding bytes => bytes
  | .component _ scalar => scalar.size

def scalar? : Segment → Option Scalar
  | .padding _ => none
  | .component _ scalar => some scalar

end Segment

def scalarsOf (segments : List Segment) : List Scalar := segments.filterMap Segment.scalar?

/-- The scalars of a list of segments that starts at an offset, each with its own offset. Padding
advances the offset and gives no scalar. -/
def placeSegments : List Segment → Nat → List (Scalar × Nat)
  | [], _ => []
  | .padding bytes :: rest, offset => placeSegments rest (offset + bytes)
  | .component _ scalar :: rest, offset =>
    (scalar, offset) :: placeSegments rest (offset + scalar.size)

@[simp] theorem length_placeSegments (segments : List Segment) (offset : Nat) :
    (placeSegments segments offset).length = (scalarsOf segments).length := by
  induction segments generalizing offset with
  | nil => rfl
  | cons segment rest ih =>
    cases segment <;> simp [placeSegments, scalarsOf, Segment.scalar?, List.filterMap_cons, ih]

def segmentsSize : List Segment → Nat
  | [] => 0
  | segment :: rest => segment.size + segmentsSize rest

theorem segmentsSize_pos {segments : List Segment} (h : scalarsOf segments ≠ []) :
    0 < segmentsSize segments := by
  induction segments with
  | nil => exact absurd rfl h
  | cons segment rest ih =>
    cases segment with
    | padding bytes =>
      have := ih (by simpa [scalarsOf, Segment.scalar?] using h)
      simp only [segmentsSize]
      omega
    | component mode scalar =>
      have := scalar.size_pos
      simp only [segmentsSize, Segment.size]
      omega

/-- The layout of one element of a buffer. -/
structure Format where
  /-- The name under which the format is known, unless it comes from a shader type. -/
  name : Option String
  /-- The bit count of the word that the parts share in a packed format. -/
  packedSize : Option Nat
  parts : List Part
  segments : List Segment
  scalarsOf_ne_nil : scalarsOf segments ≠ []
  deriving DecidableEq

namespace Format

def ofSegments? (name : Option String) (packedSize : Option Nat) (parts : List Part)
    (segments : List Segment) : Option Format :=
  if h : scalarsOf segments ≠ [] then some ⟨name, packedSize, parts, segments, h⟩ else none

variable (f : Format)

def isPacked : Bool := f.packedSize.isSome

def size : Nat := segmentsSize f.segments

def scalars : List Scalar := scalarsOf f.segments

/-- The number of values that fill an element. A packed format takes one value for its word. -/
def valuesPerElement : Nat := f.scalars.length

theorem valuesPerElement_pos : 0 < f.valuesPerElement :=
  List.length_pos_iff.2 f.scalarsOf_ne_nil

def scalarAt (index : Nat) : Scalar :=
  f.scalars.get ⟨index % f.valuesPerElement, Nat.mod_lt _ f.valuesPerElement_pos⟩

/-- Whether two formats lay out their elements alike. Packed formats must also share their word
among the same parts. -/
def sameLayout (g : Format) : Bool :=
  f.segments == g.segments && f.packedSize == g.packedSize && (!f.isPacked || f.parts == g.parts)

/-- The components of a run of elements that starts at a byte offset, each with its own offset. -/
def components (start : Nat) : Nat → List (Scalar × Nat)
  | 0 => []
  | n + 1 => placeSegments f.segments start ++ components (start + f.size) n

@[simp] theorem length_components (start n : Nat) :
    (f.components start n).length = n * f.valuesPerElement := by
  induction n generalizing start with
  | zero => simp [components]
  | succ n ih =>
    simp only [components, List.length_append, length_placeSegments, ih, valuesPerElement, scalars,
      Nat.succ_mul]
    omega

/-- The number of elements that a count of values fills, a started one included. -/
def elementsOf (values : Nat) : Nat :=
  (values + f.valuesPerElement - 1) / f.valuesPerElement

/-- The number of elements that a count of bytes takes, a started one included. -/
def elementsIn (bytes : Nat) : Nat := (bytes + f.size - 1) / f.size

theorem size_pos : 0 < f.size := segmentsSize_pos f.scalarsOf_ne_nil

end Format

end GpuScript
