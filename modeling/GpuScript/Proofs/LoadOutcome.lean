import GpuScript.Proofs.KnownFormats
import GpuScript.Proofs.LoadingRun
import GpuScript.Proofs.SectionFields
import GpuScript.Proofs.TextCuts

/-!
# The outcome of loading

Loading a text gives a script, or refuses a line, or refuses endless replacements. It never ends with
an error about a buffer or with a fault. What the model states by its types holds of the formats and
the texts themselves: every format that can be named exists, takes up room and takes values, and every
cut of a text is where a character ends.
-/

namespace GpuScript

/-- Whether a shape has a format under a rule, with names for its rows and room for them. -/
structure GlslShape.HasFormat (shape : GlslShape) (name : List Char) (rule : LayoutRule) :
    Prop where
  rows : shape.rows ≤ Component.rgba.length
  padding : shape.scalar.size * shape.rows ≤ shape.columnStride rule
  format : ∃ format, Format.ofGlslType? name rule = some format

/-- Every text is loaded, refused for what is wrong with a line, or refused for endless
replacements, and nothing on the way is cut, divided or looked up in vain. The loader with a field
for the shader that it reads loads the same, and has that shader whenever its section wants one. -/
theorem Script.load_cases (settings : Settings) (source : List Char) :
    ((∃ script, load settings source = .ok script) ∨
      (∃ line error, load settings source = .error (.error ⟨line, .invalid error⟩)) ∨
      ∃ line, load settings source = .error (.error ⟨line, .replacementLoop⟩)) ∧
    Loader.load settings source = load settings source ∧
    (∀ start lines loader, Loader.start settings = .ok start →
      start.run settings lines = .ok loader → loader.HoldsShader) ∧
    (∀ text, CutsInside settings.rules text) ∧
    (∀ entry ∈ formatTable.toList, ∃ format, entry.format? = some format) ∧
    (∀ name shape rule, GlslShape.ofName? name = some shape → shape.HasFormat name rule) ∧
    ∀ format : Format, 0 < format.size ∧ 0 < format.valuesPerElement := by
  refine ⟨?_, Loader.load_eq_load settings source, ?_, cutsInside settings.rules,
    exists_format_of_mem_formatTable, ?_, ?_⟩
  · rcases (ensures_load settings source).cases with ⟨script, hload, -⟩ | ⟨error, hload, hcause⟩
    · exact .inl ⟨script, hload⟩
    · obtain ⟨line, cause⟩ := error
      rcases hcause with ⟨invalid, rfl⟩ | rfl
      · exact .inr (.inl ⟨line, invalid, hload⟩)
      · exact .inr (.inr ⟨line, hload⟩)
  · intro start lines loader hstart hrun
    exact Loader.holdsShader_of_run hstart hrun
  · intro name shape rule h
    exact ⟨(GlslShape.bounds_of_ofName? h).2.2, shape.rows_le_columnStride rule,
      Format.exists_ofGlslType? h rule⟩
  · intro format
    exact ⟨format.size_pos, format.valuesPerElement_pos⟩

end GpuScript
