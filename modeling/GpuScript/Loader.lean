import GpuScript.Script

/-!
# The fields of the loader

The pass over the lines of a script, with its state kept in fields that change one by one: the kind
of the section that a line belongs to, the shader that is being read, if there is one, and its stage.
That a shader section has a shader is not part of the types. A line of a shader section that has none
to be added to is a fault.
-/

namespace GpuScript

/-- What the lines of a section are read as. -/
inductive SectionKind
  | outside
  | comment
  | require
  | shader
  | vertexData
  | indices
  | test
  deriving DecidableEq

def SectionKind.isDataBlock : SectionKind → Bool
  | .require | .vertexData | .indices => true
  | _ => false

/-- The state of the pass with a field of its own for the shader that is being read. -/
structure Loader where
  script : Script
  kind : SectionKind := .outside
  /-- A shader that has begun and is added to the script once its section ends. -/
  shader? : Option Shader := none
  /-- The stage of the shader that began last. -/
  stage : Stage := .vertex
  begun : Bool := false
  vertexData : VertexProgress := .absent
  deriving DecidableEq

namespace Loader

def start (settings : Settings) : Except Fault Loader :=
  settings.framebufferFormat.map fun format =>
    let color := Buffer.ofFormat .color format
    { script := { buffers := [{ color with width := settings.width, height := settings.height }] } }

def endSection (loader : Loader) : Loader :=
  match loader.shader? with
  | some shader =>
    { loader with
      script := loader.script.addShader loader.stage shader, shader? := none, kind := .outside }
  | none => { loader with kind := .outside }

def beginSection (loader : Loader) (kind : SectionKind) : Loader :=
  { loader with kind := kind, begun := true }

/-- The state after a header. A shader that passes vertices through has no lines of its own. -/
def enter (loader : Loader) : Header → Except LineError Loader
  | .comment => .ok { loader with kind := .comment }
  | .require =>
    if loader.begun then .error .requireNotFirst else .ok (loader.beginSection .require)
  | .test => .ok (loader.beginSection .test)
  | .indices => .ok (loader.beginSection .indices)
  | .vertexData =>
    if loader.vertexData ≠ .absent then .error .duplicateVertexData
    else .ok { loader.beginSection .vertexData with vertexData := .header }
  | .shader stage shader =>
    if !loader.script.canLink stage shader then .error .linkedSpirv
    else if shader = .passthrough then
      .ok { loader.beginSection .outside with script := loader.script.addShader stage shader }
    else .ok { loader.beginSection .shader with shader? := some shader, stage := stage }

def takeHeader (loader : Loader) (text : List Char) : LineResult Loader := do
  orInvalid (loader.endSection.enter (← orInvalid (readHeader text)))

/-- A line is added to the shader that is being read, which must be one with a body. -/
def takeShaderLine (loader : Loader) (line : List Char) : LineResult Loader :=
  match loader.shader? with
  | some (.body body) => do
    return { loader with shader? := some (.body (← orInvalid (body.addLine line))) }
  | some .passthrough | none => .error (.fault .missingShader)

/-- What the lines of the other sections read and change. -/
def parts (loader : Loader) : Loading :=
  { script := loader.script, begun := loader.begun, vertexData := loader.vertexData }

def withParts (loader : Loader) (parts : Loading) : Loader :=
  { loader with script := parts.script, begun := parts.begun, vertexData := parts.vertexData }

def takeBodyLine (loader : Loader) (number : Nat) (line : List Char) : LineResult Loader :=
  match loader.kind with
  | .outside =>
    match content? line with
    | none => .ok loader
    | some _ => reject .expectedBlank
  | .comment => .ok loader
  | .require => (loader.parts.takeRequireLine line).map loader.withParts
  | .shader => loader.takeShaderLine line
  | .vertexData => (loader.parts.takeVertexLine line).map loader.withParts
  | .indices => (loader.parts.takeIndexLine line).map loader.withParts
  | .test => (loader.parts.takeTestLine number line).map loader.withParts

def takeLine (loader : Loader) (number : Nat) (line : List Char) : LineResult Loader :=
  match line with
  | '[' :: text => loader.takeHeader text
  | line => loader.takeBodyLine number line

def reportedLine (loader : Loader) (number : Nat) (line : List Char) : Nat :=
  if line.head? = some '[' then number
  else if loader.kind.isDataBlock then number - 1
  else number

def step (settings : Settings) (loader : Loader) (line : NumberedLine) :
    Except (Failure LoadError) Loader :=
  match replaceTokens settings.rules replacementLimit line.text with
  | none => refuse ⟨line.number, .replacementLoop⟩
  | some text =>
    Loading.report (loader.reportedLine line.number text) (loader.takeLine line.number text)

def run (settings : Settings) : Loader → List NumberedLine → Except (Failure LoadError) Loader
  | loader, [] => .ok loader
  | loader, line :: rest => do run settings (← step settings loader line) rest

def load (settings : Settings) (source : List Char) : Except (Failure LoadError) Script := do
  let loader ← orFault (start settings)
  return (← loader.run settings (logicalLines source)).endSection.script

end Loader

end GpuScript
