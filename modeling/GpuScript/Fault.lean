import GpuScript.FloatText

/-!
# Broken invariants

A fault marks a call that its caller was bound not to make, such as writing past the end of some
bytes. It is kept apart from the errors that a caller is expected to handle.
-/

namespace GpuScript

/-- What a caller had promised and did not keep. -/
inductive Fault
  | outOfBytes
  /-- The exponent of a single-precision number does not fit in a half float. -/
  | halfExponent (value : BitVec 32)
  | raggedSize (bytes elementSize : Nat)
  /-- Two buffers that are subtracted do not have the same layout. -/
  | layoutMismatch
  | missingFormat (name : String)
  | missingBuffer (index : Nat)
  /-- A line of a shader section has no shader that it can be added to. -/
  | missingShader
  deriving DecidableEq

def Fault.message? : Fault → Option String
  | .halfExponent value =>
    some ("exponent of " ++ String.ofList (FloatFormat.single.shortestText value) ++
      " overflows a half float")
  | .raggedSize bytes elementSize =>
    some (toString bytes ++ " bytes is not a multiple of the element size " ++
      toString elementSize)
  | .layoutMismatch => some "diffing buffers with a different layout"
  | .outOfBytes | .missingFormat _ | .missingBuffer _ | .missingShader => none

/-- Why an operation gave no result: an error for the caller to handle, or a fault. -/
inductive Failure (ε : Type)
  | error (cause : ε)
  | fault (fault : Fault)
  deriving DecidableEq

def refuse {ε α : Type} (cause : ε) : Except (Failure ε) α := .error (.error cause)

def orFault {ε α : Type} : Except Fault α → Except (Failure ε) α
  | .ok a => .ok a
  | .error fault => .error (.fault fault)

end GpuScript
