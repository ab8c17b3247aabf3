import GpuScript.Blank

/-!
# Shaders

The stages of a pipeline and the shaders that a script gives for them. A shader has a body of text
or words that its section adds to line by line, or is the built-in vertex shader that passes its
input through.
-/

namespace GpuScript

inductive Stage | vertex | tessControl | tessEvaluation | geometry | fragment | compute
  deriving DecidableEq

namespace Stage

def all : List Stage := [.vertex, .tessControl, .tessEvaluation, .geometry, .fragment, .compute]

def nameWords : Stage → List String
  | .vertex => ["vertex"]
  | .tessControl => ["tessellation", "control"]
  | .tessEvaluation => ["tessellation", "evaluation"]
  | .geometry => ["geometry"]
  | .fragment => ["fragment"]
  | .compute => ["compute"]

def name (stage : Stage) : String := " ".intercalate stage.nameWords

end Stage

/-- The body of a shader: source text, assembly text or machine words. -/
inductive ShaderBody
  | glsl (text : List Char)
  | spirv (text : List Char)
  | binary (words : List UInt32)
  deriving DecidableEq

/-- A shader with a body, or the one that passes vertices through. -/
inductive Shader
  | body (body : ShaderBody)
  | passthrough
  deriving DecidableEq

namespace Shader

/-- Whether a shader cannot be linked with another one of its stage. -/
def isSpirv : Shader → Bool
  | .body (.glsl _) => false
  | _ => true

end Shader

/-- A shader of a stage without its body, from what follows the word for shaders in a header, and
the rest of the header. -/
def emptyShader (stage : Stage) (text : List Char) : Shader × List Char :=
  match afterWord? "spirv".toList text with
  | some rest => (.body (.spirv []), rest)
  | none =>
    match afterWord? "binary".toList text with
    | some rest => (.body (.binary []), rest)
    | none =>
      match afterWord? "passthrough".toList text with
      | some rest => if stage = .vertex then (.passthrough, rest) else (.body (.glsl []), text)
      | none => (.body (.glsl []), text)

def stageOfHeader? (header : List Char) : Option (Stage × List Char) :=
  Stage.all.findSome? fun stage =>
    (afterWords? ((stage.nameWords ++ ["shader"]).map String.toList) header).map fun rest =>
      (stage, rest)

def shaderOfHeader? (header : List Char) : Option (Stage × Shader) :=
  (stageOfHeader? header).bind fun (stage, rest) =>
    let (shader, rest) := emptyShader stage rest
    if trimEnd rest = [] then some (stage, shader) else none

end GpuScript
