import GpuScript.Blank
import GpuScript.GlslType
import GpuScript.LineError
import GpuScript.ValueLiteral

/-!
# Test commands

A line of a test section clears the framebuffer, writes data to a bound buffer or asks for its
size. Reading a line needs nothing but the line: the buffers come in only when the command that was
read is carried out.
-/

namespace GpuScript

/-- What a command does when the script is run. -/
inductive Operation
  | clearColor (r g b a : BitVec 32)
  | clearDepth (value : BitVec 32)
  | clearStencil (value : Nat)
  | clear
  | setBufferData (buffer offset : Nat) (values : List Value)
  deriving DecidableEq

structure Command where
  line : Nat
  operation : Operation
  deriving DecidableEq

/-- What a line of a test section asks for. -/
inductive TestLine
  | clear (operation : Operation)
  /-- To write values at an offset of a bound buffer. -/
  | subdata (kind : BufferKind) (binding : Binding) (format : Format) (offset : Nat)
    (values : List Value)
  /-- To have at least a number of bytes in a bound buffer. -/
  | size (kind : BufferKind) (binding : Binding) (bytes : Nat)
  deriving DecidableEq

def takeClearValue {α : Type} (target : ClearTarget) (ofWord? : List Char → Option α) :
    List (List Char) → Except LineError (α × List (List Char))
  | [] => .error (.missingClearValue target)
  | word :: rest =>
    match ofWord? word with
    | some a => .ok (a, rest)
    | none => .error (.invalidClearValue target word)

def endClearValues (target : ClearTarget) : List (List Char) → Except LineError Unit
  | [] => .ok ()
  | word :: _ => .error (.extraClearValue target word)

def singleOfWord? : List Char → Option (BitVec 32) := wholeToken? (readFloat .single)

def wordNatural? : List Char → Option Nat := wholeToken? (readUnsigned 32)

def readClear (arguments : List Char) : Except LineError Operation :=
  match afterWord? "color".toList arguments with
  | some rest => do
    let (r, more) ← takeClearValue .color singleOfWord? (words rest)
    let (g, more) ← takeClearValue .color singleOfWord? more
    let (b, more) ← takeClearValue .color singleOfWord? more
    let (a, more) ← takeClearValue .color singleOfWord? more
    endClearValues .color more
    return .clearColor r g b a
  | none =>
    match afterWord? "depth".toList arguments with
    | some rest => do
      let (value, more) ← takeClearValue .depth singleOfWord? (words rest)
      endClearValues .depth more
      return .clearDepth value
    | none =>
      match afterWord? "stencil".toList arguments with
      | some rest => do
        let (value, more) ← takeClearValue .stencil wordNatural? (words rest)
        endClearValues .stencil more
        return .clearStencil value
      | none =>
        match nextWord? arguments with
        | some (word, _) => .error (.extraClearWord word)
        | none => .ok .clear

/-- A binding with or without its set, and the text behind it. -/
def readBindingNumbers (text : List Char) : Except LiteralError (Binding × List Char) := do
  let (first, rest) ← readUnsigned 32 text
  match rest with
  | ':' :: more =>
    let (second, rest) ← readUnsigned 32 more
    return (⟨first, second⟩, rest)
  | _ => return (⟨0, first⟩, rest)

/-- A binding that a blank or the end of the text closes, and the text behind it. -/
def readBinding (text : List Char) : Except LineError (Binding × List Char) :=
  match readBindingNumbers text with
  | .error _ => .error .invalidBinding
  | .ok (binding, []) => .ok (binding, [])
  | .ok (binding, c :: rest) =>
    if isBlank c then .ok (binding, c :: rest) else .error .invalidBinding

/-- Words as values for the components of a format in turn, the first at an index. -/
def readCycled (format : Format) : Nat → List (List Char) → Except LineError (List Value)
  | _, [] => .ok []
  | index, word :: rest =>
    match Value.ofToken? (format.scalarAt index) word with
    | none => .error (.invalidDatum word)
    | some value => (readCycled format (index + 1) rest).map (value :: ·)

/-- The values of a text, which fill whole elements of a format and at least one. -/
def readData (format : Format) (text : List Char) : Except LineError (List Value) := do
  let values ← readCycled format 0 (words text)
  if values = [] then .error .missingData
  else if values.length % format.valuesPerElement ≠ 0 then
    .error (.raggedData format.valuesPerElement)
  else .ok values

/-- A write of data from a type, an offset and values. The offset can be inside an element but not
inside a component. -/
def readSubdata (kind : BufferKind) (binding : Binding) (rule : LayoutRule)
    (text : List Char) : Except LineError TestLine :=
  match nextWord? text with
  | none => .error .missingTypeName
  | some (name, rest) =>
    match Format.ofGlslType? name rule with
    | none => .error (.unknownTypeName name)
    | some format =>
      match readUnsigned 32 rest with
      | .error _ => .error .invalidOffset
      | .ok (offset, rest) =>
        let unit := (format.scalarAt 0).size
        if offset % unit ≠ 0 then .error (.misalignedOffset offset unit)
        else (readData format rest).map (.subdata kind binding format offset)

def readBufferCommand (kind : BufferKind) (rule : LayoutRule) (text : List Char) :
    Except LineError TestLine := do
  let (binding, rest) ← readBinding text
  match afterWord? "subdata".toList rest with
  | some rest => readSubdata kind binding rule rest
  | none =>
    match readUnsigned 32 rest with
    | .ok (bytes, tail) =>
      if trim tail = [] then .ok (.size kind binding bytes) else .error .invalidBufferCommand
    | .error _ => .error .invalidBufferCommand

/-- What a line of a test section asks for, unless it is blank. -/
def readTestLine (line : List Char) : Except LineError (Option TestLine) :=
  match content? line with
  | none => .ok none
  | some text =>
    match afterWord? "clear".toList text with
    | some rest => (readClear rest).map fun operation => some (.clear operation)
    | none =>
      match afterWord? "ssbo".toList text with
      | some rest => (readBufferCommand .storage .std430 rest).map some
      | none =>
        match afterWord? "ubo".toList text with
        | some rest => (readBufferCommand .uniform .std140 rest).map some
        | none => .error (.unknownCommand (leadingWord text))

end GpuScript
