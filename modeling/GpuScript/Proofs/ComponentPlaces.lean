import GpuScript.Format

/-!
# Places of components

Where the components of a run of elements stand. A run gives the scalars of its format in turn,
each component lies inside the run and ends before the next one starts, and two runs one behind the
other are one run. Formats of one layout have the same places.
-/

namespace GpuScript

theorem map_fst_placeSegments (segments : List Segment) (offset : Nat) :
    (placeSegments segments offset).map Prod.fst = scalarsOf segments := by
  induction segments generalizing offset with
  | nil => rfl
  | cons segment rest ih =>
    cases segment with
    | padding bytes =>
      simpa [placeSegments, scalarsOf, Segment.scalar?, List.filterMap_cons] using ih _
    | component mode scalar =>
      simpa [placeSegments, scalarsOf, Segment.scalar?, List.filterMap_cons] using ih _

theorem placeSegments_inside {segments : List Segment} {offset : Nat} {place : Scalar × Nat}
    (h : place ∈ placeSegments segments offset) :
    offset ≤ place.2 ∧ place.2 + place.1.size ≤ offset + segmentsSize segments := by
  induction segments generalizing offset with
  | nil => simp [placeSegments] at h
  | cons segment rest ih =>
    cases segment with
    | padding bytes =>
      have := ih h
      simp only [segmentsSize, Segment.size]
      omega
    | component mode scalar =>
      simp only [segmentsSize, Segment.size]
      rcases List.mem_cons.1 h with rfl | h
      · simp
      · have := ih h
        omega

/-- Whether a component ends where another one starts, or before. -/
def EndsBefore (p q : Scalar × Nat) : Prop := p.2 + p.1.size ≤ q.2

theorem pairwise_placeSegments (segments : List Segment) (offset : Nat) :
    (placeSegments segments offset).Pairwise EndsBefore := by
  induction segments generalizing offset with
  | nil => exact .nil
  | cons segment rest ih =>
    cases segment with
    | padding bytes => exact ih _
    | component mode scalar => exact .cons (fun q hq => (placeSegments_inside hq).1) (ih _)

theorem placeSegments_add (segments : List Segment) (offset shift : Nat) :
    placeSegments segments (offset + shift) =
      (placeSegments segments offset).map fun place => (place.1, place.2 + shift) := by
  induction segments generalizing offset with
  | nil => rfl
  | cons segment rest ih =>
    cases segment with
    | padding bytes => rw [placeSegments, placeSegments, Nat.add_right_comm, ih]
    | component mode scalar =>
      rw [placeSegments, placeSegments, List.map_cons, Nat.add_right_comm, ih]

theorem placeSegments_append (before after : List Segment) (offset : Nat) :
    placeSegments (before ++ after) offset =
      placeSegments before offset ++ placeSegments after (offset + segmentsSize before) := by
  induction before generalizing offset with
  | nil => rfl
  | cons segment rest ih =>
    cases segment with
    | padding bytes => simp only [List.cons_append, placeSegments, ih, segmentsSize, Segment.size,
        Nat.add_assoc]
    | component mode scalar => simp only [List.cons_append, placeSegments, ih, segmentsSize,
        Segment.size, Nat.add_assoc]

namespace Format

variable {f g : Format}

theorem components_inside {start n : Nat} {place : Scalar × Nat}
    (h : place ∈ f.components start n) :
    start ≤ place.2 ∧ place.2 + place.1.size ≤ start + n * f.size := by
  induction n generalizing start with
  | zero => simp [components] at h
  | succ n ih =>
    rw [Nat.succ_mul]
    rcases List.mem_append.1 h with h | h
    · have := placeSegments_inside h
      simp only [size]
      omega
    · have := ih h
      omega

theorem pairwise_components (start n : Nat) : (f.components start n).Pairwise EndsBefore := by
  induction n generalizing start with
  | zero => exact .nil
  | succ n ih =>
    refine List.pairwise_append.2 ⟨pairwise_placeSegments _ _, ih _, ?_⟩
    intro p hp q hq
    exact Nat.le_trans (placeSegments_inside hp).2 (components_inside hq).1

theorem components_add (start m n : Nat) :
    f.components start (m + n) = f.components start m ++ f.components (start + m * f.size) n := by
  induction m generalizing start with
  | zero => simp [components]
  | succ m ih =>
    rw [Nat.succ_add, components, components, ih, List.append_assoc, Nat.succ_mul, Nat.add_assoc,
      Nat.add_comm f.size]

theorem scalarAt_eq_of_lt {k : Nat} (h : k < f.valuesPerElement) :
    f.scalarAt k = f.scalars.get ⟨k, h⟩ := by
  simp only [scalarAt, Nat.mod_eq_of_lt h]

theorem scalarAt_sub {k : Nat} (h : f.valuesPerElement ≤ k) :
    f.scalarAt (k - f.valuesPerElement) = f.scalarAt k := by
  simp only [scalarAt, Nat.mod_eq_sub_mod h]

/-- The components of a run take the scalars of the format in turn. -/
theorem fst_of_getElem?_components {start n k : Nat} {place : Scalar × Nat}
    (h : (f.components start n)[k]? = some place) : place.1 = f.scalarAt k := by
  induction n generalizing start k with
  | zero => simp [components] at h
  | succ n ih =>
    have hlength : (placeSegments f.segments start).length = f.valuesPerElement :=
      length_placeSegments _ _
    rw [components, List.getElem?_append, hlength] at h
    split at h
    · next hk =>
      have hmap : ((placeSegments f.segments start).map Prod.fst)[k]? = some place.1 := by
        rw [List.getElem?_map, h, Option.map_some]
      rw [map_fst_placeSegments] at hmap
      rw [scalarAt_eq_of_lt hk]
      exact ((List.getElem_eq_iff hk).2 hmap).symm
    · next hk => rw [ih h, scalarAt_sub (Nat.le_of_not_lt hk)]

theorem bounds_of_getElem?_components {start n k : Nat} {place : Scalar × Nat}
    (h : (f.components start n)[k]? = some place) :
    start + k / f.valuesPerElement * f.size ≤ place.2 ∧
      place.2 + place.1.size ≤ start + (k / f.valuesPerElement + 1) * f.size := by
  induction n generalizing start k with
  | zero => simp [components] at h
  | succ n ih =>
    have hlength : (placeSegments f.segments start).length = f.valuesPerElement :=
      length_placeSegments _ _
    rw [components, List.getElem?_append, hlength] at h
    split at h
    · next hk =>
      have := placeSegments_inside (List.mem_of_getElem? h)
      rw [Nat.div_eq_of_lt hk]
      simp only [size]
      omega
    · next hk =>
      have := ih h
      have hdiv : k / f.valuesPerElement = (k - f.valuesPerElement) / f.valuesPerElement + 1 :=
        Nat.div_eq_sub_div f.valuesPerElement_pos (Nat.le_of_not_lt hk)
      rw [hdiv]
      simp only [Nat.add_mul, Nat.one_mul] at this ⊢
      omega

theorem getElem?_components_of_le {start n total k : Nat} (htotal : n ≤ total)
    (hk : k < n * f.valuesPerElement) :
    (f.components start total)[k]? = (f.components start n)[k]? := by
  obtain ⟨rest, rfl⟩ := Nat.exists_eq_add_of_le htotal
  rw [components_add, List.getElem?_append_left]
  rwa [length_components]

theorem getElem?_components_of_inside {start m n total k : Nat} (htotal : m + n ≤ total)
    (hk : k < n * f.valuesPerElement) :
    (f.components start total)[m * f.valuesPerElement + k]? =
      (f.components (start + m * f.size) n)[k]? := by
  obtain ⟨rest, rfl⟩ := Nat.exists_eq_add_of_le htotal
  rw [Nat.add_assoc, components_add, List.getElem?_append_right, length_components,
    Nat.add_sub_cancel_left, getElem?_components_of_le (Nat.le_add_right ..) hk]
  rw [length_components]
  exact Nat.le_add_right ..

theorem components_add_start (start shift n : Nat) :
    f.components (start + shift) n =
      (f.components start n).map fun place => (place.1, place.2 + shift) := by
  induction n generalizing start with
  | zero => rfl
  | succ n ih =>
    rw [components, components, placeSegments_add, Nat.add_right_comm, ih, List.map_append]

/-- The place of a component of a run: where it stands in its element, behind the elements before
it. -/
def placeAt (f : Format) (start k : Nat) : Scalar × Nat :=
  let place := (placeSegments f.segments 0).get ⟨k % f.valuesPerElement, by
    rw [length_placeSegments]
    exact Nat.mod_lt _ f.valuesPerElement_pos⟩
  (place.1, start + k / f.valuesPerElement * f.size + place.2)

/-- The components of a run are those of its elements in turn. -/
theorem getElem?_components (f : Format) (start n k : Nat) :
    (f.components start n)[k]? =
      if k < n * f.valuesPerElement then some (f.placeAt start k) else none := by
  split
  · next hk =>
    have hpos := f.valuesPerElement_pos
    have helement : k / f.valuesPerElement < n := (Nat.div_lt_iff_lt_mul hpos).2 hk
    have hmod : k % f.valuesPerElement < 1 * f.valuesPerElement := by
      rw [Nat.one_mul]
      exact Nat.mod_lt _ hpos
    have hinside : (f.components start n)[k / f.valuesPerElement * f.valuesPerElement +
        k % f.valuesPerElement]? = (f.components (start + k / f.valuesPerElement * f.size)
          1)[k % f.valuesPerElement]? := getElem?_components_of_inside helement hmod
    rw [Nat.mul_comm, Nat.div_add_mod] at hinside
    rw [hinside, components, components, List.append_nil, ← Nat.zero_add (start + _),
      placeSegments_add, List.getElem?_map, placeAt, List.get_eq_getElem, Nat.mul_comm,
      List.getElem?_eq_getElem, Option.map_some, Nat.add_comm]
  · next hk =>
    rw [List.getElem?_eq_none]
    rw [length_components]
    exact Nat.le_of_not_lt hk

theorem fst_placeAt (start k : Nat) : (f.placeAt start k).1 = f.scalarAt k := by
  have hk : k < (k / f.valuesPerElement + 1) * f.valuesPerElement :=
    (Nat.div_lt_iff_lt_mul f.valuesPerElement_pos).1 (Nat.lt_succ_self _)
  exact fst_of_getElem?_components ((f.getElem?_components start _ k).trans (if_pos hk))

theorem exists_component_of_last (f : Format) (start n : Nat) :
    ∃ place ∈ f.components start (n + 1), start + n * f.size ≤ place.2 := by
  have hlast : 0 < (f.components (start + n * f.size) 1).length := by
    rw [length_components, Nat.one_mul]
    exact f.valuesPerElement_pos
  obtain ⟨place, hplace⟩ := List.exists_mem_of_length_pos hlast
  refine ⟨place, ?_, (components_inside hplace).1⟩
  rw [components_add]
  exact List.mem_append_right _ hplace

theorem elementsIn_le_iff {bytes count : Nat} :
    f.elementsIn bytes ≤ count ↔ bytes ≤ count * f.size := by
  have hpos := f.size_pos
  rw [elementsIn, ← Nat.lt_succ_iff, Nat.div_lt_iff_lt_mul hpos, Nat.succ_mul]
  omega

theorem le_elementsIn_mul (bytes : Nat) : bytes ≤ f.elementsIn bytes * f.size :=
  elementsIn_le_iff.1 (Nat.le_refl _)

theorem elementsIn_mul (count : Nat) : f.elementsIn (count * f.size) = count := by
  apply Nat.le_antisymm
  · exact elementsIn_le_iff.2 (Nat.le_refl _)
  · exact Nat.le_of_mul_le_mul_right (f.le_elementsIn_mul _) f.size_pos

theorem elementsIn_zero (f : Format) : f.elementsIn 0 = 0 := by
  simpa using f.elementsIn_mul 0

theorem elementsIn_mono {a b : Nat} (h : a ≤ b) : f.elementsIn a ≤ f.elementsIn b :=
  elementsIn_le_iff.2 (Nat.le_trans h (f.le_elementsIn_mul b))

theorem elementsOf_eq_div {values : Nat} (h : values % f.valuesPerElement = 0) :
    f.elementsOf values = values / f.valuesPerElement := by
  obtain ⟨n, rfl⟩ := Nat.dvd_of_mod_eq_zero h
  have hpos := f.valuesPerElement_pos
  rw [elementsOf, Nat.mul_div_cancel_left n hpos, Nat.add_sub_assoc hpos,
    Nat.mul_add_div hpos, Nat.div_eq_of_lt (by omega), Nat.add_zero]

theorem segments_eq_of_sameLayout (h : f.sameLayout g) : f.segments = g.segments := by
  simp only [sameLayout, Bool.and_eq_true, beq_iff_eq] at h
  exact h.1.1

theorem sameLayout_eq_true_iff : f.sameLayout g = true ↔ f.segments = g.segments ∧
    f.packedSize = g.packedSize ∧ (f.isPacked = true → f.parts = g.parts) := by
  simp only [sameLayout, Bool.and_eq_true, beq_iff_eq, Bool.or_eq_true, Bool.not_eq_true',
    ← Bool.not_eq_true, Decidable.imp_iff_not_or, and_assoc]

theorem sameLayout_comm (f g : Format) : f.sameLayout g = g.sameLayout f := by
  have hswap : ∀ {f g : Format}, f.sameLayout g = true → g.sameLayout f = true := by
    intro f g h
    obtain ⟨hsegments, hpacked, hparts⟩ := sameLayout_eq_true_iff.1 h
    refine sameLayout_eq_true_iff.2 ⟨hsegments.symm, hpacked.symm, fun hg => (hparts ?_).symm⟩
    rwa [isPacked, hpacked]
  exact Bool.eq_iff_iff.2 ⟨hswap, hswap⟩

theorem size_congr (h : f.segments = g.segments) : f.size = g.size := by
  rw [size, size, h]

theorem valuesPerElement_congr (h : f.segments = g.segments) :
    f.valuesPerElement = g.valuesPerElement := by
  rw [valuesPerElement, valuesPerElement, scalars, scalars, h]

theorem scalarAt_congr (h : f.segments = g.segments) (k : Nat) : f.scalarAt k = g.scalarAt k := by
  cases f
  cases g
  cases h
  rfl

theorem placeAt_congr (h : f.segments = g.segments) (start k : Nat) :
    f.placeAt start k = g.placeAt start k := by
  cases f
  cases g
  cases h
  rfl

theorem components_congr (h : f.segments = g.segments) (start n : Nat) :
    f.components start n = g.components start n := by
  induction n generalizing start with
  | zero => rfl
  | succ n ih => rw [components, components, h, size_congr h, ih]

end Format

end GpuScript
