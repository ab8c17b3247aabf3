import GpuScript.Buffer
import GpuScript.Requirements

/-!
# Errors of a script

What can be wrong with a line of a script, and the error of loading one: a cause with the number of
the line that it is reported for. The wording of every message is here.
-/

namespace GpuScript

/-- A part of the framebuffer that can be cleared to a value. -/
inductive ClearTarget | color | depth | stencil
  deriving DecidableEq

def ClearTarget.name : ClearTarget → String
  | .color => "color"
  | .depth => "depth"
  | .stencil => "stencil"

inductive LineError
  | expectedBlank
  | missingBracket
  | trailingHeader
  | requireNotFirst
  | duplicateVertexData
  | unknownSection (name : List Char)
  | linkedSpirv
  | missingFormatName
  | unknownFormat (name : List Char)
  | invalidFramebufferSize
  | invalidFenceTimeout
  | unknownRequirement (error : UnknownRequirement)
  | invalidHexWord (word : List Char)
  | invalidIndex (token : List Char)
  | indexTooLarge (token : List Char)
  | invalidLocation (header : List Char)
  | headerWithoutFormat (header : List Char)
  | overlongHeader (header : List Char)
  | unknownGlType (name : List Char)
  | unknownGlslType (name : List Char)
  | invalidVectorSize (name : List Char)
  | invalidTypePair (glType glslType : List Char)
  | tooFewCells
  | tooManyCells
  | invalidCell (token : List Char)
  | missingClearValue (target : ClearTarget)
  | invalidClearValue (target : ClearTarget) (word : List Char)
  | extraClearValue (target : ClearTarget) (word : List Char)
  | extraClearWord (word : List Char)
  | invalidBinding
  | bindingOfOtherKind (binding : Binding)
  | bindingOfOtherFormat (binding : Binding)
  | missingTypeName
  | unknownTypeName (name : List Char)
  | invalidOffset
  | misalignedOffset (offset size : Nat)
  | invalidDatum (word : List Char)
  | missingData
  | raggedData (count : Nat)
  | invalidBufferCommand
  | unknownCommand (word : List Char)
  deriving DecidableEq

/-- A fixed text with a piece of the line behind it. -/
def quoting (text : String) (piece : List Char) : String := text ++ String.ofList piece

def Binding.text (binding : Binding) : String :=
  toString binding.set ++ ":" ++ toString binding.number

def LineError.message : LineError → String
  | .expectedBlank => "expected empty line"
  | .missingBracket => "Missing ‘]’"
  | .trailingHeader => "Trailing data after ‘]’"
  | .requireNotFirst => "[require] must be the first section"
  | .duplicateVertexData => "Duplicate vertex data section"
  | .unknownSection name => quoting "Unknown section “" name ++ "”"
  | .linkedSpirv => "SPIR-V source can not be linked with other shaders in the same stage"
  | .missingFormatName => "Missing format name"
  | .unknownFormat name => quoting "Unknown format: " name
  | .invalidFramebufferSize => "Invalid fbsize"
  | .invalidFenceTimeout => "Invalid fence_timeout"
  | .unknownRequirement error => error.message
  | .invalidHexWord word => quoting "Invalid hex value: " word
  | .invalidIndex token => quoting "Invalid value in indices block: " token
  | .indexTooLarge token => quoting "Value too large in indices block: " token
  | .invalidLocation header => quoting "Invalid attrib location in " header
  | .headerWithoutFormat header =>
    quoting "Column headers must be in the form location/format. Got: " header
  | .overlongHeader header => quoting "Extra data at end of column header: " header
  | .unknownGlType name => quoting "Unknown GL type: " name
  | .unknownGlslType name => quoting "Unknown GLSL type: " name
  | .invalidVectorSize name => quoting "Invalid vec size: " name
  | .invalidTypePair glType glslType =>
    quoting (quoting "Invalid type combo: " glType ++ "/") glslType
  | .tooFewCells => "Too few cells in given vertex data row"
  | .tooManyCells => "Too many cells in given vertex data row"
  | .invalidCell token => quoting "Invalid vertex data value: " token
  | .missingClearValue .color => "Missing values for clear color command"
  | .missingClearValue target => "Missing value for clear " ++ target.name ++ " command"
  | .invalidClearValue target word =>
    quoting ("Invalid value for clear " ++ target.name ++ " command: ") word
  | .extraClearValue target word =>
    quoting ("Extra parameter to clear " ++ target.name ++ " command: ") word
  | .extraClearWord word => quoting "Extra parameter to clear command: " word
  | .invalidBinding => "Invalid buffer binding"
  | .bindingOfOtherKind binding =>
    "Buffer binding point " ++ binding.text ++ " used with different type"
  | .bindingOfOtherFormat binding =>
    "Buffer binding point " ++ binding.text ++ " used with different format"
  | .missingTypeName => "Expected GLSL type name"
  | .unknownTypeName name => quoting "Invalid GLSL type name: " name
  | .invalidOffset => "Invalid buffer offset"
  | .misalignedOffset offset size =>
    "Offset " ++ toString offset ++ " is not a multiple of the component size " ++ toString size
  | .invalidDatum word => quoting "Invalid buffer data value: " word
  | .missingData => "Missing buffer data"
  | .raggedData count =>
    "Buffer data must contain a multiple of " ++ toString count ++ " values"
  | .invalidBufferCommand => "Invalid buffer command"
  | .unknownCommand word => quoting "Unknown command: " word

inductive LoadCause
  | invalid (error : LineError)
  | buffer (error : BufferError)
  | replacementLoop
  deriving DecidableEq

def LoadCause.message : LoadCause → String
  | .invalid error => error.message
  | .buffer error => error.message
  | .replacementLoop => "The token replacements cause an infinite loop"

/-- Why a script cannot be loaded, and the line that this is reported for. -/
structure LoadError where
  line : Nat
  cause : LoadCause
  deriving DecidableEq

def LoadError.message (error : LoadError) : String :=
  toString error.line ++ ": " ++ error.cause.message

abbrev LineResult (α : Type) := Except (Failure LoadCause) α

def reject {α : Type} (error : LineError) : LineResult α := refuse (.invalid error)

/-- Runs a reader that can only fail by an error of the line. -/
def orInvalid {α : Type} : Except LineError α → LineResult α
  | .ok a => .ok a
  | .error error => reject error

def onBuffer {α : Type} : Except (Failure BufferError) α → LineResult α
  | .ok a => .ok a
  | .error (.error error) => refuse (.buffer error)
  | .error (.fault fault) => .error (.fault fault)

end GpuScript
