import GpuScript.GlslType
import GpuScript.NamedFormat

/-!
# Known formats

Every row of the table of formats and every named shader type under either rule gives a format. The
rows of a shader type have names, and they fit before the next column.
-/

namespace GpuScript

theorem exists_format_of_mem_formatTable :
    ∀ entry ∈ formatTable.toList, ∃ format, entry.format? = some format := by
  have h : ∀ entry ∈ formatTable.toList, entry.format?.isSome = true := by decide +kernel
  intro entry hentry
  exact Option.isSome_iff_exists.1 (h entry hentry)

namespace GlslShape

variable {name : List Char} {shape : GlslShape}

theorem bounds_of_dimension? {text : List Char} {n : Nat} (h : dimension? text = some n) :
    0 < n ∧ n ≤ 4 := by
  unfold dimension? at h
  split at h <;> cases h <;> decide

theorem bounds_of_dimensions? {text : List Char} {d : Nat × Nat}
    (h : dimensions? text = some d) : 0 < d.1 ∧ 0 < d.2 ∧ d.2 ≤ 4 := by
  unfold dimensions? at h
  split at h
  · split at h
    · next hcolumns hrows =>
      cases h
      exact ⟨(bounds_of_dimension? hcolumns).1, bounds_of_dimension? hrows⟩
    · cases h
  · obtain ⟨n, hn, rfl⟩ := Option.map_eq_some_iff.1 h
    have hbounds := bounds_of_dimension? hn
    exact ⟨hbounds.1, hbounds⟩

/-- A named shape has a column, and from one to four rows. -/
theorem bounds_of_ofName? (h : ofName? name = some shape) :
    0 < shape.columns ∧ 0 < shape.rows ∧ shape.rows ≤ Component.rgba.length := by
  unfold ofName? at h
  split at h
  · cases h
    exact ⟨Nat.zero_lt_one, Nat.zero_lt_one, (by decide : 1 ≤ Component.rgba.length)⟩
  · split at h
    · obtain ⟨rows, hrows, rfl⟩ := Option.map_eq_some_iff.1 h
      exact ⟨Nat.zero_lt_one, bounds_of_dimension? hrows⟩
    · split at h
      · obtain ⟨d, hd, rfl⟩ := Option.map_eq_some_iff.1 h
        exact bounds_of_dimensions? hd
      · cases h

theorem rows_le_columnStride (shape : GlslShape) (rule : LayoutRule) :
    shape.scalar.size * shape.rows ≤ shape.columnStride rule := by
  have hbase : shape.scalar.size * shape.rows ≤ shape.baseStride := by
    apply Nat.mul_le_mul_left
    split <;> omega
  cases rule with
  | std140 =>
    simp only [columnStride]
    omega
  | std430 => exact hbase

theorem scalarsOf_segments_ne_nil (hcolumns : 0 < shape.columns) (hrows : 0 < shape.rows)
    (rule : LayoutRule) : scalarsOf (shape.segments rule) ≠ [] := by
  obtain ⟨columns, hcolumns⟩ := Nat.exists_eq_succ_of_ne_zero (Nat.ne_of_gt hcolumns)
  obtain ⟨rows, hrows⟩ := Nat.exists_eq_succ_of_ne_zero (Nat.ne_of_gt hrows)
  simp [segments, columnSegments, hcolumns, hrows, List.replicate_succ, scalarsOf,
    Segment.scalar?]

end GlslShape

theorem Format.exists_ofGlslType? {name : List Char} {shape : GlslShape}
    (h : GlslShape.ofName? name = some shape) (rule : LayoutRule) :
    ∃ format, Format.ofGlslType? name rule = some format := by
  obtain ⟨hcolumns, hrows, -⟩ := GlslShape.bounds_of_ofName? h
  have hne := GlslShape.scalarsOf_segments_ne_nil hcolumns hrows rule
  rw [ofGlslType?, h, Option.bind_some, ofSegments?, dif_pos hne]
  exact ⟨_, rfl⟩

end GpuScript
