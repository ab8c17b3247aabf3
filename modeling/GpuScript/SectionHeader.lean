import GpuScript.LineError
import GpuScript.Shader

/-!
# Section headers

A line that starts with a bracket opens a section. Its name stands before the closing bracket, and
only blanks may follow.
-/

namespace GpuScript

inductive Header
  | comment
  | require
  | test
  | indices
  | vertexData
  | shader (stage : Stage) (shader : Shader)
  deriving DecidableEq

def headerNames : List (List Char × Header) := [
  ("comment".toList, .comment), ("require".toList, .require), ("test".toList, .test),
  ("indices".toList, .indices), ("vertex data".toList, .vertexData)]

def readSectionName (name : List Char) : Except LineError Header :=
  match shaderOfHeader? name with
  | some (stage, shader) => .ok (.shader stage shader)
  | none =>
    match headerNames.lookup (trim name) with
    | some header => .ok header
    | none => .error (.unknownSection (trim name))

/-- What a header announces, from the text behind its opening bracket. -/
def readHeader (text : List Char) : Except LineError Header :=
  match text.dropWhile (· ≠ ']') with
  | [] => .error .missingBracket
  | _ :: tail =>
    if trimEnd tail = [] then readSectionName (text.takeWhile (· ≠ ']'))
    else .error .trailingHeader

end GpuScript
