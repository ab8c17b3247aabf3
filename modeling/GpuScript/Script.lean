import GpuScript.BufferTable
import GpuScript.LogicalLine
import GpuScript.SectionHeader

/-!
# Loading a script

A script is loaded line by line in one pass. The state of the pass is the script so far and the
section that the next line belongs to; a shader section carries the body that it has read, which is
added to the script when the section ends. An error is reported for the line it is found on, except
that inside a block of data it is reported for the line before.
-/

namespace GpuScript

/-- What a text describes. The first buffer is the colour buffer of the framebuffer. -/
structure Script where
  buffers : List Buffer
  requirements : Requirements := {}
  commands : List Command := []
  shaders : List (Stage × Shader) := []
  /-- The time in milliseconds to wait for a fence. -/
  fenceTimeout : Option Nat := none
  deriving DecidableEq

namespace Script

def shadersOf (script : Script) (stage : Stage) : List Shader :=
  (script.shaders.filter fun p => p.1 = stage).map Prod.snd

def depthIndex? (script : Script) : Option Nat := indexOfKind? script.buffers .depth

def indexIndex? (script : Script) : Option Nat := indexOfKind? script.buffers .index

def addShader (script : Script) (stage : Stage) (shader : Shader) : Script :=
  { script with shaders := script.shaders ++ [(stage, shader)] }

/-- Whether a shader can be linked with the last one of its stage. -/
def canLink (script : Script) (stage : Stage) (shader : Shader) : Bool :=
  match (script.shadersOf stage).getLast? with
  | some other => !other.isSpirv && !shader.isSpirv
  | none => true

end Script

/-- The section that a line belongs to. -/
inductive Section
  | outside
  | comment
  | require
  | shader (stage : Stage) (body : ShaderBody)
  | vertexData
  | indices
  | test
  deriving DecidableEq

/-- Whether errors inside the section are reported for the line before. -/
def Section.isDataBlock : Section → Bool
  | .require | .vertexData | .indices => true
  | _ => false

/-- How far the vertex data has been read: there is none, its header is awaited, or its rows go to
the buffers at some indices. -/
inductive VertexProgress
  | absent
  | header
  | rows (columns : List Nat)
  deriving DecidableEq

/-- The state of the pass over the lines of a script. -/
structure Loading where
  script : Script
  current : Section := .outside
  /-- Whether a section other than a comment has begun. -/
  begun : Bool := false
  vertexData : VertexProgress := .absent
  deriving DecidableEq

def readHexWords (line : List Char) : Except LineError (List UInt32) :=
  match content? line with
  | none => .ok []
  | some text => (words text).mapM fun word =>
    match wholeNatural? 16 32 word with
    | some n => .ok (UInt32.ofNat n)
    | none => .error (.invalidHexWord word)

def ShaderBody.addLine (line : List Char) : ShaderBody → Except LineError ShaderBody
  | .glsl text => .ok (.glsl (text ++ line))
  | .spirv text => .ok (.spirv (text ++ line))
  | .binary words => (readHexWords line).map fun more => .binary (words ++ more)

namespace Loading

/-- The state before the first line: an empty colour buffer. -/
def start (settings : Settings) : Except Fault Loading :=
  settings.framebufferFormat.map fun format =>
    let color := Buffer.ofFormat .color format
    { script := { buffers := [{ color with width := settings.width, height := settings.height }] } }

def endSection (state : Loading) : Loading :=
  match state.current with
  | .shader stage body =>
    { state with script := state.script.addShader stage (.body body), current := .outside }
  | _ => { state with current := .outside }

def beginSection (state : Loading) (entered : Section) : Loading :=
  { state with current := entered, begun := true }

/-- The state after a header, once the section before it has ended. -/
def enter (state : Loading) : Header → Except LineError Loading
  | .comment => .ok { state with current := .comment }
  | .require =>
    if state.begun then .error .requireNotFirst else .ok (state.beginSection .require)
  | .test => .ok (state.beginSection .test)
  | .indices => .ok (state.beginSection .indices)
  | .vertexData =>
    if state.vertexData ≠ .absent then .error .duplicateVertexData
    else .ok { state.beginSection .vertexData with vertexData := .header }
  | .shader stage shader =>
    if !state.script.canLink stage shader then .error .linkedSpirv
    else
      match shader with
      | .body body => .ok (state.beginSection (.shader stage body))
      | .passthrough =>
        .ok { state.beginSection .outside with script := state.script.addShader stage shader }

def takeHeader (state : Loading) (text : List Char) : LineResult Loading := do
  orInvalid (state.endSection.enter (← orInvalid (readHeader text)))

def setBuffers (state : Loading) (buffers : List Buffer) : Loading :=
  { state with script := { state.script with buffers := buffers } }

def runRequireLine (state : Loading) : RequireLine → LineResult Loading
  | .framebuffer format => do
    let buffers ← updateAt state.script.buffers 0 fun buffer => .ok (buffer.setFormat format)
    return state.setBuffers buffers
  | .depthStencil format => do
    return state.setBuffers (← setDepthFormat state.script.buffers format)
  | .framebufferSize width height =>
    .ok (state.setBuffers (setFramebufferSize state.script.buffers width height))
  | .fenceTimeout timeout =>
    .ok { state with script := { state.script with fenceTimeout := some timeout } }
  | .requirement kind name =>
    let requirements := state.script.requirements.insert kind name
    .ok { state with script := { state.script with requirements := requirements } }

def takeRequireLine (state : Loading) (line : List Char) : LineResult Loading := do
  match ← orInvalid (readRequireLine line) with
  | none => return state
  | some asked => state.runRequireLine asked

def takeShaderLine (state : Loading) (stage : Stage) (body : ShaderBody) (line : List Char) :
    LineResult Loading := do
  return { state with current := .shader stage (← orInvalid (body.addLine line)) }

def takeColumns (state : Loading) (text : List Char) : LineResult Loading := do
  let columns ← orInvalid (readColumns text)
  let first := state.script.buffers.length
  let state := state.setBuffers (state.script.buffers ++ columns.map columnBuffer)
  return { state with vertexData := .rows ((List.range columns.length).map (first + ·)) }

def takeRow (state : Loading) (columns : List Nat) (text : List Char) : LineResult Loading := do
  let formats ← formatsAt state.script.buffers columns
  let row ← orInvalid (readRow formats (words text))
  return state.setBuffers (← appendRow (columns.zip row) state.script.buffers)

def takeVertexLine (state : Loading) (line : List Char) : LineResult Loading :=
  match content? line, state.vertexData with
  | none, _ => .ok state
  | some text, .rows columns => state.takeRow columns text
  | some text, _ => state.takeColumns text

def takeIndexLine (state : Loading) (line : List Char) : LineResult Loading :=
  match content? line with
  | none => .ok state
  | some text => do
    let values ← orInvalid (readIndices (words text))
    return state.setBuffers (← appendIndices state.script.buffers values)

def takeTestLine (state : Loading) (number : Nat) (line : List Char) : LineResult Loading := do
  match ← orInvalid (readTestLine line) with
  | none => return state
  | some asked =>
    let (buffers, operation?) ← runTestLine asked state.script.buffers
    let added := (operation?.map fun operation => Command.mk number operation).toList
    let commands := state.script.commands ++ added
    return { state with script := { state.script with buffers := buffers, commands := commands } }

def takeBodyLine (state : Loading) (number : Nat) (line : List Char) : LineResult Loading :=
  match state.current with
  | .outside =>
    match content? line with
    | none => .ok state
    | some _ => reject .expectedBlank
  | .comment => .ok state
  | .require => state.takeRequireLine line
  | .shader stage body => state.takeShaderLine stage body line
  | .vertexData => state.takeVertexLine line
  | .indices => state.takeIndexLine line
  | .test => state.takeTestLine number line

def takeLine (state : Loading) (number : Nat) (line : List Char) : LineResult Loading :=
  match line with
  | '[' :: text => state.takeHeader text
  | line => state.takeBodyLine number line

/-- The line that an error on a line with a number is reported for. -/
def reportedLine (state : Loading) (number : Nat) (line : List Char) : Nat :=
  if line.head? = some '[' then number
  else if state.current.isDataBlock then number - 1
  else number

def report {α : Type} (number : Nat) : LineResult α → Except (Failure LoadError) α
  | .ok a => .ok a
  | .error (.error cause) => refuse ⟨number, cause⟩
  | .error (.fault fault) => .error (.fault fault)

/-- The state after a logical line, the tokens of which are replaced first. -/
def step (settings : Settings) (state : Loading) (line : NumberedLine) :
    Except (Failure LoadError) Loading :=
  match replaceTokens settings.rules replacementLimit line.text with
  | none => refuse ⟨line.number, .replacementLoop⟩
  | some text => report (state.reportedLine line.number text) (state.takeLine line.number text)

def run (settings : Settings) : Loading → List NumberedLine → Except (Failure LoadError) Loading
  | state, [] => .ok state
  | state, line :: rest => do run settings (← step settings state line) rest

end Loading

/-- The script that a text describes under some settings. -/
def Script.load (settings : Settings) (source : List Char) : Except (Failure LoadError) Script := do
  let state ← orFault (Loading.start settings)
  return (← state.run settings (logicalLines source)).endSection.script

end GpuScript
