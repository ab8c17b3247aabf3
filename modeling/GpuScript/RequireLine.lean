import GpuScript.Blank
import GpuScript.NamedFormat
import GpuScript.IntegerLiteral
import GpuScript.LineError

/-!
# Lines of a require section

A line gives the format or the size of the framebuffer, the format of its depth and stencil values,
the time to wait for a fence, or the name of a feature or an extension.
-/

namespace GpuScript

/-- What a line of a require section asks for. -/
inductive RequireLine
  | framebuffer (format : Format)
  | depthStencil (format : Format)
  | framebufferSize (width height : Nat)
  | fenceTimeout (milliseconds : Nat)
  | requirement (kind : RequirementKind) (name : String)
  deriving DecidableEq

def readFormatName (text : List Char) : Except LineError Format :=
  match trim text with
  | [] => .error .missingFormatName
  | c :: rest =>
    match Format.ofName? (String.ofList (c :: rest)) with
    | some format => .ok format
    | none => .error (.unknownFormat (c :: rest))

def readFramebufferSize? (text : List Char) : Option (Nat × Nat) :=
  match readUnsigned 32 text with
  | .error _ => none
  | .ok (width, rest) =>
    match readUnsigned 32 rest with
    | .error _ => none
    | .ok (height, tail) => if trim tail = [] then some (width, height) else none

def readTimeout? (text : List Char) : Option Nat :=
  match readUnsigned 32 text with
  | .error _ => none
  | .ok (timeout, tail) => if trim tail = [] then some timeout else none

def readRequirement (text : List Char) : Except LineError RequireLine :=
  match afterWord? "framebuffer".toList text with
  | some rest => (readFormatName rest).map .framebuffer
  | none =>
    match afterWord? "depthstencil".toList text with
    | some rest => (readFormatName rest).map .depthStencil
    | none =>
      match afterWord? "fbsize".toList text with
      | some rest =>
        match readFramebufferSize? rest with
        | some (width, height) => .ok (.framebufferSize width height)
        | none => .error .invalidFramebufferSize
      | none =>
        match afterWord? "fence_timeout".toList text with
        | some rest =>
          match readTimeout? rest with
          | some timeout => .ok (.fenceTimeout timeout)
          | none => .error .invalidFenceTimeout
        | none =>
          let name := String.ofList text
          match RequirementKind.ofName? name with
          | some kind => .ok (.requirement kind name)
          | none => .error (.unknownRequirement ⟨name⟩)

/-- What a line of a require section asks for, unless it is blank. -/
def readRequireLine (line : List Char) : Except LineError (Option RequireLine) :=
  match content? line with
  | none => .ok none
  | some text => (readRequirement text).map some

end GpuScript
