import GpuScript.Format

/-!
# The table of named formats

The named formats in ascending order of their names. A name is found by binary search; a bit count,
mode and number of colour components stand for the first unpacked entry that has just those parts.
-/

namespace GpuScript

/-- A row of the table: a name, the bit count of a shared word, and the parts. -/
structure FormatEntry where
  name : String
  packedSize : Option Nat
  parts : List Part
  deriving DecidableEq

namespace FormatEntry

/-- A row whose parts are scalars of one width and mode. -/
def plain (name : String) (bits : Nat) (mode : Mode) (components : List Component) : FormatEntry :=
  ⟨name, none, components.map fun c => ⟨c, bits, mode⟩⟩

def packed (name : String) (wordBits : Nat) (mode : Mode) (fields : List (Component × Nat)) :
    FormatEntry :=
  ⟨name, some wordBits, fields.map fun p => ⟨p.1, p.2, mode⟩⟩

def partSegment? (part : Part) : Option Segment :=
  (Scalar.ofMode? part.mode part.bits).map fun s => .component part.mode s

def segments? (entry : FormatEntry) : Option (List Segment) :=
  match entry.packedSize with
  | some bits => (Scalar.ofMode? .uint bits).map fun s => [.component .uint s]
  | none => entry.parts.mapM partSegment?

def format? (entry : FormatEntry) : Option Format :=
  entry.segments?.bind (Format.ofSegments? (some entry.name) entry.packedSize entry.parts)

/-- Whether a row is unpacked and has a number of colour components of one width and mode. -/
def hasDetails (entry : FormatEntry) (bits : Nat) (mode : Mode) (count : Nat) : Bool :=
  entry.packedSize.isNone && entry.parts.length == count &&
    (entry.parts.zip Component.rgba).all fun p => p.1 == ⟨p.2, bits, mode⟩

end FormatEntry

open FormatEntry in
/-- The named formats in ascending order of their names. -/
def formatTable : Array FormatEntry := #[
  packed "A1R5G5B5_UNORM_PACK16" 16 .unorm [(.a, 1), (.r, 5), (.g, 5), (.b, 5)],
  packed "A2B10G10R10_SINT_PACK32" 32 .sint [(.a, 2), (.b, 10), (.g, 10), (.r, 10)],
  packed "A2B10G10R10_SNORM_PACK32" 32 .snorm [(.a, 2), (.b, 10), (.g, 10), (.r, 10)],
  packed "A2B10G10R10_SSCALED_PACK32" 32 .sscaled [(.a, 2), (.b, 10), (.g, 10), (.r, 10)],
  packed "A2B10G10R10_UINT_PACK32" 32 .uint [(.a, 2), (.b, 10), (.g, 10), (.r, 10)],
  packed "A2B10G10R10_UNORM_PACK32" 32 .unorm [(.a, 2), (.b, 10), (.g, 10), (.r, 10)],
  packed "A2B10G10R10_USCALED_PACK32" 32 .uscaled [(.a, 2), (.b, 10), (.g, 10), (.r, 10)],
  packed "A2R10G10B10_SINT_PACK32" 32 .sint [(.a, 2), (.r, 10), (.g, 10), (.b, 10)],
  packed "A2R10G10B10_SNORM_PACK32" 32 .snorm [(.a, 2), (.r, 10), (.g, 10), (.b, 10)],
  packed "A2R10G10B10_SSCALED_PACK32" 32 .sscaled [(.a, 2), (.r, 10), (.g, 10), (.b, 10)],
  packed "A2R10G10B10_UINT_PACK32" 32 .uint [(.a, 2), (.r, 10), (.g, 10), (.b, 10)],
  packed "A2R10G10B10_UNORM_PACK32" 32 .unorm [(.a, 2), (.r, 10), (.g, 10), (.b, 10)],
  packed "A2R10G10B10_USCALED_PACK32" 32 .uscaled [(.a, 2), (.r, 10), (.g, 10), (.b, 10)],
  packed "A8B8G8R8_SINT_PACK32" 32 .sint [(.a, 8), (.b, 8), (.g, 8), (.r, 8)],
  packed "A8B8G8R8_SNORM_PACK32" 32 .snorm [(.a, 8), (.b, 8), (.g, 8), (.r, 8)],
  packed "A8B8G8R8_SRGB_PACK32" 32 .srgb [(.a, 8), (.b, 8), (.g, 8), (.r, 8)],
  packed "A8B8G8R8_SSCALED_PACK32" 32 .sscaled [(.a, 8), (.b, 8), (.g, 8), (.r, 8)],
  packed "A8B8G8R8_UINT_PACK32" 32 .uint [(.a, 8), (.b, 8), (.g, 8), (.r, 8)],
  packed "A8B8G8R8_UNORM_PACK32" 32 .unorm [(.a, 8), (.b, 8), (.g, 8), (.r, 8)],
  packed "A8B8G8R8_USCALED_PACK32" 32 .uscaled [(.a, 8), (.b, 8), (.g, 8), (.r, 8)],
  packed "B10G11R11_UFLOAT_PACK32" 32 .ufloat [(.b, 10), (.g, 11), (.r, 11)],
  packed "B4G4R4A4_UNORM_PACK16" 16 .unorm [(.b, 4), (.g, 4), (.r, 4), (.a, 4)],
  packed "B5G5R5A1_UNORM_PACK16" 16 .unorm [(.b, 5), (.g, 5), (.r, 5), (.a, 1)],
  packed "B5G6R5_UNORM_PACK16" 16 .unorm [(.b, 5), (.g, 6), (.r, 5)],
  plain "B8G8R8A8_SINT" 8 .sint [.b, .g, .r, .a],
  plain "B8G8R8A8_SNORM" 8 .snorm [.b, .g, .r, .a],
  plain "B8G8R8A8_SRGB" 8 .srgb [.b, .g, .r, .a],
  plain "B8G8R8A8_SSCALED" 8 .sscaled [.b, .g, .r, .a],
  plain "B8G8R8A8_UINT" 8 .uint [.b, .g, .r, .a],
  plain "B8G8R8A8_UNORM" 8 .unorm [.b, .g, .r, .a],
  plain "B8G8R8A8_USCALED" 8 .uscaled [.b, .g, .r, .a],
  plain "B8G8R8_SINT" 8 .sint [.b, .g, .r],
  plain "B8G8R8_SNORM" 8 .snorm [.b, .g, .r],
  plain "B8G8R8_SRGB" 8 .srgb [.b, .g, .r],
  plain "B8G8R8_SSCALED" 8 .sscaled [.b, .g, .r],
  plain "B8G8R8_UINT" 8 .uint [.b, .g, .r],
  plain "B8G8R8_UNORM" 8 .unorm [.b, .g, .r],
  plain "B8G8R8_USCALED" 8 .uscaled [.b, .g, .r],
  plain "D16_UNORM" 16 .unorm [.d],
  ⟨"D16_UNORM_S8_UINT", none, [⟨.d, 16, .unorm⟩, ⟨.s, 8, .uint⟩]⟩,
  ⟨"D24_UNORM_S8_UINT", some 32, [⟨.d, 24, .unorm⟩, ⟨.s, 8, .uint⟩]⟩,
  plain "D32_SFLOAT" 32 .sfloat [.d],
  ⟨"D32_SFLOAT_S8_UINT", none, [⟨.d, 32, .sfloat⟩, ⟨.s, 8, .uint⟩]⟩,
  plain "R16G16B16A16_SFLOAT" 16 .sfloat [.r, .g, .b, .a],
  plain "R16G16B16A16_SINT" 16 .sint [.r, .g, .b, .a],
  plain "R16G16B16A16_SNORM" 16 .snorm [.r, .g, .b, .a],
  plain "R16G16B16A16_SSCALED" 16 .sscaled [.r, .g, .b, .a],
  plain "R16G16B16A16_UINT" 16 .uint [.r, .g, .b, .a],
  plain "R16G16B16A16_UNORM" 16 .unorm [.r, .g, .b, .a],
  plain "R16G16B16A16_USCALED" 16 .uscaled [.r, .g, .b, .a],
  plain "R16G16B16_SFLOAT" 16 .sfloat [.r, .g, .b],
  plain "R16G16B16_SINT" 16 .sint [.r, .g, .b],
  plain "R16G16B16_SNORM" 16 .snorm [.r, .g, .b],
  plain "R16G16B16_SSCALED" 16 .sscaled [.r, .g, .b],
  plain "R16G16B16_UINT" 16 .uint [.r, .g, .b],
  plain "R16G16B16_UNORM" 16 .unorm [.r, .g, .b],
  plain "R16G16B16_USCALED" 16 .uscaled [.r, .g, .b],
  plain "R16G16_SFLOAT" 16 .sfloat [.r, .g],
  plain "R16G16_SINT" 16 .sint [.r, .g],
  plain "R16G16_SNORM" 16 .snorm [.r, .g],
  plain "R16G16_SSCALED" 16 .sscaled [.r, .g],
  plain "R16G16_UINT" 16 .uint [.r, .g],
  plain "R16G16_UNORM" 16 .unorm [.r, .g],
  plain "R16G16_USCALED" 16 .uscaled [.r, .g],
  plain "R16_SFLOAT" 16 .sfloat [.r],
  plain "R16_SINT" 16 .sint [.r],
  plain "R16_SNORM" 16 .snorm [.r],
  plain "R16_SSCALED" 16 .sscaled [.r],
  plain "R16_UINT" 16 .uint [.r],
  plain "R16_UNORM" 16 .unorm [.r],
  plain "R16_USCALED" 16 .uscaled [.r],
  plain "R32G32B32A32_SFLOAT" 32 .sfloat [.r, .g, .b, .a],
  plain "R32G32B32A32_SINT" 32 .sint [.r, .g, .b, .a],
  plain "R32G32B32A32_UINT" 32 .uint [.r, .g, .b, .a],
  plain "R32G32B32_SFLOAT" 32 .sfloat [.r, .g, .b],
  plain "R32G32B32_SINT" 32 .sint [.r, .g, .b],
  plain "R32G32B32_UINT" 32 .uint [.r, .g, .b],
  plain "R32G32_SFLOAT" 32 .sfloat [.r, .g],
  plain "R32G32_SINT" 32 .sint [.r, .g],
  plain "R32G32_UINT" 32 .uint [.r, .g],
  plain "R32_SFLOAT" 32 .sfloat [.r],
  plain "R32_SINT" 32 .sint [.r],
  plain "R32_UINT" 32 .uint [.r],
  packed "R4G4B4A4_UNORM_PACK16" 16 .unorm [(.r, 4), (.g, 4), (.b, 4), (.a, 4)],
  packed "R4G4_UNORM_PACK8" 8 .unorm [(.r, 4), (.g, 4)],
  packed "R5G5B5A1_UNORM_PACK16" 16 .unorm [(.r, 5), (.g, 5), (.b, 5), (.a, 1)],
  packed "R5G6B5_UNORM_PACK16" 16 .unorm [(.r, 5), (.g, 6), (.b, 5)],
  plain "R64G64B64A64_SFLOAT" 64 .sfloat [.r, .g, .b, .a],
  plain "R64G64B64A64_SINT" 64 .sint [.r, .g, .b, .a],
  plain "R64G64B64A64_UINT" 64 .uint [.r, .g, .b, .a],
  plain "R64G64B64_SFLOAT" 64 .sfloat [.r, .g, .b],
  plain "R64G64B64_SINT" 64 .sint [.r, .g, .b],
  plain "R64G64B64_UINT" 64 .uint [.r, .g, .b],
  plain "R64G64_SFLOAT" 64 .sfloat [.r, .g],
  plain "R64G64_SINT" 64 .sint [.r, .g],
  plain "R64G64_UINT" 64 .uint [.r, .g],
  plain "R64_SFLOAT" 64 .sfloat [.r],
  plain "R64_SINT" 64 .sint [.r],
  plain "R64_UINT" 64 .uint [.r],
  plain "R8G8B8A8_SINT" 8 .sint [.r, .g, .b, .a],
  plain "R8G8B8A8_SNORM" 8 .snorm [.r, .g, .b, .a],
  plain "R8G8B8A8_SRGB" 8 .srgb [.r, .g, .b, .a],
  plain "R8G8B8A8_SSCALED" 8 .sscaled [.r, .g, .b, .a],
  plain "R8G8B8A8_UINT" 8 .uint [.r, .g, .b, .a],
  plain "R8G8B8A8_UNORM" 8 .unorm [.r, .g, .b, .a],
  plain "R8G8B8A8_USCALED" 8 .uscaled [.r, .g, .b, .a],
  plain "R8G8B8_SINT" 8 .sint [.r, .g, .b],
  plain "R8G8B8_SNORM" 8 .snorm [.r, .g, .b],
  plain "R8G8B8_SRGB" 8 .srgb [.r, .g, .b],
  plain "R8G8B8_SSCALED" 8 .sscaled [.r, .g, .b],
  plain "R8G8B8_UINT" 8 .uint [.r, .g, .b],
  plain "R8G8B8_UNORM" 8 .unorm [.r, .g, .b],
  plain "R8G8B8_USCALED" 8 .uscaled [.r, .g, .b],
  plain "R8G8_SINT" 8 .sint [.r, .g],
  plain "R8G8_SNORM" 8 .snorm [.r, .g],
  plain "R8G8_SRGB" 8 .srgb [.r, .g],
  plain "R8G8_SSCALED" 8 .sscaled [.r, .g],
  plain "R8G8_UINT" 8 .uint [.r, .g],
  plain "R8G8_UNORM" 8 .unorm [.r, .g],
  plain "R8G8_USCALED" 8 .uscaled [.r, .g],
  plain "R8_SINT" 8 .sint [.r],
  plain "R8_SNORM" 8 .snorm [.r],
  plain "R8_SRGB" 8 .srgb [.r],
  plain "R8_SSCALED" 8 .sscaled [.r],
  plain "R8_UINT" 8 .uint [.r],
  plain "R8_UNORM" 8 .unorm [.r],
  plain "R8_USCALED" 8 .uscaled [.r],
  plain "S8_UINT" 8 .uint [.s],
  packed "X8_D24_UNORM_PACK32" 32 .unorm [(.x, 8), (.d, 24)]]

/-- The row with a name between two positions of a table in ascending order. -/
def searchTable (table : Array FormatEntry) (name : String) (low high : Nat) :
    Option FormatEntry :=
  if low < high then
    let middle := low + (high - low) / 2
    match table[middle]? with
    | none => none
    | some entry =>
      if entry.name = name then some entry
      else if entry.name < name then searchTable table name (middle + 1) high
      else searchTable table name low middle
  else none
termination_by high - low

namespace Format

def ofName? (name : String) : Option Format :=
  (searchTable formatTable name 0 formatTable.size).bind FormatEntry.format?

/-- The first unpacked format with a number of colour components of one width and mode. -/
def ofDetails? (bits : Nat) (mode : Mode) (count : Nat) : Option Format :=
  (formatTable.toList.find? fun entry => entry.hasDetails bits mode count).bind
    FormatEntry.format?

end Format

end GpuScript
