import GpuScript.IntegerLiteral
import GpuScript.LineError

/-!
# Index data

A list of unsigned decimal numbers of sixteen bits, each a word of its own.
-/

namespace GpuScript

/-- The index that a token gives. Only a number that is otherwise well-formed can be too large. -/
def readIndex (token : List Char) : Except LineError Nat :=
  if isHexLiteral token || token.head? = some '-' then .error (.invalidIndex token)
  else
    match readUnsigned 16 token with
    | .ok (index, []) => .ok index
    | .ok _ => .error (.invalidIndex token)
    | .error cause =>
      if cause.isOverflow then .error (.indexTooLarge token) else .error (.invalidIndex token)

def readIndices (line : List (List Char)) : Except LineError (List Value) :=
  line.mapM fun token => (readIndex token).map fun index => Value.ofInt .uint16 index

end GpuScript
