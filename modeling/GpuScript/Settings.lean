import GpuScript.Fault
import GpuScript.NamedFormat
import GpuScript.TokenReplacement

/-!
# Settings for loading a script

The token replacements that apply to every line, and the format and the size of the framebuffer
that a script starts with.
-/

namespace GpuScript

/-- A format that the library itself relies on. -/
def Format.named (name : String) : Except Fault Format :=
  match Format.ofName? name with
  | some format => .ok format
  | none => .error (.missingFormat name)

/-- What a script is loaded with. -/
structure Settings where
  rules : List TokenReplacement := []
  /-- The format of the framebuffer unless it is the usual one. -/
  format? : Option Format := none
  width : Nat := 250
  height : Nat := 250
  deriving DecidableEq

def Settings.framebufferFormat (settings : Settings) : Except Fault Format :=
  match settings.format? with
  | some format => .ok format
  | none => Format.named "B8G8R8A8_UNORM"

end GpuScript
