import GpuScript.TestLine
import GpuScript.Settings
import GpuScript.IndexData
import GpuScript.RequireLine
import GpuScript.VertexData

/-!
# The buffers of a script

A script keeps its buffers in a list, the colour buffer of the framebuffer first, and refers to them
by index. Lines only ever change a buffer in place or add one at the end.
-/

namespace GpuScript

def bufferAt (buffers : List Buffer) (index : Nat) : LineResult Buffer :=
  match buffers[index]? with
  | some buffer => .ok buffer
  | none => .error (.fault (.missingBuffer index))

def updateAt (buffers : List Buffer) (index : Nat)
    (change : Buffer → Except (Failure BufferError) Buffer) : LineResult (List Buffer) := do
  let buffer ← bufferAt buffers index
  return buffers.set index (← onBuffer (change buffer))

def indexOfKind? (buffers : List Buffer) (kind : BufferKind) : Option Nat :=
  buffers.findIdx? fun buffer => buffer.kind = kind

def indexOfBinding? (buffers : List Buffer) (binding : Binding) : Option Nat :=
  buffers.findIdx? fun buffer => buffer.binding = some binding

/-- The buffers with a format given to the depth buffer, which is added if there is none. -/
def setDepthFormat (buffers : List Buffer) (format : Format) : LineResult (List Buffer) := do
  match indexOfKind? buffers .depth with
  | some index => updateAt buffers index fun buffer => .ok (buffer.setFormat format)
  | none =>
    let color ← bufferAt buffers 0
    let depth := Buffer.ofFormat .depth format
    return buffers ++ [{ depth with width := color.width, height := color.height }]

def setFramebufferSize (buffers : List Buffer) (width height : Nat) : List Buffer :=
  buffers.map fun buffer =>
    if buffer.kind = .color ∨ buffer.kind = .depth then
      { buffer with width := width, height := height }
    else buffer

/-- The buffers with values at the end of the one at an index. -/
def appendAt (buffers : List Buffer) (index : Nat) (values : List Value) :
    LineResult (List Buffer) :=
  updateAt buffers index fun buffer => buffer.setData values buffer.size

/-- The buffers with values at the end of the index buffer, which is added if there is none. -/
def appendIndices (buffers : List Buffer) (values : List Value) : LineResult (List Buffer) := do
  match indexOfKind? buffers .index with
  | some index => appendAt buffers index values
  | none =>
    let format ← orFault (Format.named "R16_UINT")
    appendAt (buffers ++ [Buffer.ofFormat .index format]) buffers.length values

def columnBuffer (column : Nat × Format) : Buffer :=
  { Buffer.ofFormat .vertex column.2 with location := some column.1 }

def formatsAt (buffers : List Buffer) (columns : List Nat) : LineResult (List Format) :=
  columns.mapM fun index => (bufferAt buffers index).map Buffer.format

def appendRow : List (Nat × List Value) → List Buffer → LineResult (List Buffer)
  | [], buffers => .ok buffers
  | (index, values) :: rest, buffers => do appendRow rest (← appendAt buffers index values)

/-- The format of a bound buffer whose data has not been described yet. -/
def placeholderFormat : Except Fault Format := Format.named "R8_UINT"

/-- A new buffer at a binding, of a placeholder format if none is given. -/
def boundBuffer (kind : BufferKind) (binding : Binding) (format? : Option Format) :
    Except Fault Buffer :=
  match format? with
  | some format => .ok { Buffer.ofFormat kind format with binding := some binding }
  | none => placeholderFormat.map fun format =>
    { Buffer.ofFormat kind format with binding := some binding, formatIsDefault := true }

/-- A bound buffer taken for a kind and perhaps a format, which replaces a placeholder. -/
def matchBound (kind : BufferKind) (binding : Binding) (format? : Option Format)
    (buffer : Buffer) : Except LineError Buffer :=
  if buffer.kind ≠ kind then .error (.bindingOfOtherKind binding)
  else
    match format? with
    | none => .ok buffer
    | some format =>
      if buffer.formatIsDefault then
        .ok { buffer.setFormat format with formatIsDefault := false }
      else if buffer.format.sameLayout format then .ok buffer
      else .error (.bindingOfOtherFormat binding)

/-- The index of the buffer at a binding, and the buffers with it made ready for a kind and perhaps
a format. A buffer is added if the binding has none. -/
def bindBuffer (kind : BufferKind) (binding : Binding) (format? : Option Format)
    (buffers : List Buffer) : LineResult (Nat × List Buffer) := do
  match indexOfBinding? buffers binding with
  | some index =>
    let buffer ← bufferAt buffers index
    return (index, buffers.set index (← orInvalid (matchBound kind binding format? buffer)))
  | none =>
    let buffer ← orFault (boundBuffer kind binding format?)
    return (buffers.length, buffers ++ [buffer])

/-- A buffer with at least a number of bytes, rounded up to whole elements. -/
def Buffer.ensureSize (buffer : Buffer) (bytes : Nat) : Except Fault Buffer :=
  let size := buffer.format.elementsIn bytes * buffer.format.size
  if buffer.size < size then buffer.setSize size else .ok buffer

/-- The buffers after a line of a test section, with the operation that the line stands for. A line
that only asks for a size stands for none. -/
def runTestLine (line : TestLine) (buffers : List Buffer) :
    LineResult (List Buffer × Option Operation) :=
  match line with
  | .clear operation => .ok (buffers, some operation)
  | .subdata kind binding format offset values => do
    let (index, bound) ← bindBuffer kind binding (some format) buffers
    let written ← updateAt bound index fun buffer =>
      (buffer.recordData values offset).setData values offset
    return (written, some (.setBufferData index offset values))
  | .size kind binding bytes => do
    let (index, bound) ← bindBuffer kind binding none buffers
    let sized ← updateAt bound index fun buffer => orFault (buffer.ensureSize bytes)
    return (sized, none)

end GpuScript
