import Mathlib.Data.List.Find
import GpuScript.Proofs.TypeSpellings

/-!
# Look-ups of formats

A name is looked up by halving a table whose rows are in strictly ascending order of their names, so
that the search finds the row that going through the table from its start would find. Every row and
every shape of a shader type that a look-up finds gives a format, and its elements are as large and
take as many values as the row or the shape says: they always take up room, always have a component,
and take a single value if the format is packed.
-/

namespace GpuScript

/-- Whether rows are in strictly ascending order of their names. -/
def Ascending (rows : List FormatEntry) : Prop := rows.Pairwise fun a b => a.name < b.name

section

variable {table : Array FormatEntry} {name : String} {low high i j : Nat} {a b entry : FormatEntry}

theorem Ascending.name_lt (h : Ascending table.toList) (hi : table[i]? = some a)
    (hj : table[j]? = some b) (hij : i < j) : a.name < b.name := by
  obtain ⟨hinside, rfl⟩ := Array.getElem?_eq_some_iff.1 hi
  obtain ⟨hinside', rfl⟩ := Array.getElem?_eq_some_iff.1 hj
  exact List.pairwise_iff_getElem.1 h i j hinside hinside' hij

theorem Ascending.eq_of_name_eq (h : Ascending table.toList) (hi : table[i]? = some a)
    (hj : table[j]? = some b) (hname : a.name = b.name) : i = j := by
  rcases Nat.lt_trichotomy i j with hij | rfl | hji
  · exact (String.lt_irrefl _ (hname ▸ h.name_lt hi hj hij)).elim
  · rfl
  · exact (String.lt_irrefl _ (hname ▸ h.name_lt hj hi hji)).elim

theorem Ascending.lt_of_name_lt (h : Ascending table.toList) (hi : table[i]? = some a)
    (hj : table[j]? = some b) (hlt : a.name < b.name) : i < j := by
  rcases Nat.lt_trichotomy i j with hij | rfl | hji
  · exact hij
  · cases hi.symm.trans hj
    exact (String.lt_irrefl _ hlt).elim
  · exact (String.lt_asymm hlt (h.name_lt hj hi hji)).elim

theorem mem_of_searchTable (h : searchTable table name low high = some entry) :
    entry ∈ table.toList ∧ entry.name = name := by
  fun_induction searchTable table name low high with
  | case1 => cases h
  | case2 low high hlt middle found hfound hname =>
    cases h
    exact ⟨Array.mem_toList_iff.2 (Array.mem_of_getElem? hfound), hname⟩
  | case3 low high hlt middle found hfound hne hless ih => exact ih h
  | case4 low high hlt middle found hfound hne hless ih => exact ih h
  | case5 => cases h

/-- A row is found as long as it stands between the two positions, which every halving keeps. -/
theorem Ascending.searchTable_eq (h : Ascending table.toList) (hentry : table[i]? = some entry)
    (hlow : low ≤ i) (hhigh : i < high) (hsize : high ≤ table.size) :
    searchTable table entry.name low high = some entry := by
  fun_induction searchTable table entry.name low high with
  | case1 low high hlt middle hnone =>
    have hbeyond : table.size ≤ middle := Array.getElem?_eq_none_iff.1 hnone
    omega
  | case2 low high hlt middle found hfound hname =>
    obtain rfl := h.eq_of_name_eq hfound hentry hname
    exact hfound.symm.trans hentry
  | case3 low high hlt middle found hfound hne hless ih =>
    have hright : middle < i := h.lt_of_name_lt hfound hentry hless
    exact ih hright hhigh hsize
  | case4 low high hlt middle found hfound hne hnotLess ih =>
    have hleft : i < middle := by
      rcases Nat.lt_trichotomy i middle with hleft | rfl | hright
      · exact hleft
      · cases hfound.symm.trans hentry
        exact (hne rfl).elim
      · exact (hnotLess (h.name_lt hfound hentry hright)).elim
    exact ih hlow hleft (by omega)
  | case5 low high hnot => omega

theorem Ascending.searchTable_eq_find? (h : Ascending table.toList) (name : String) :
    searchTable table name 0 table.size = table.toList.find? fun entry => entry.name = name := by
  cases hscan : table.toList.find? fun entry => entry.name = name with
  | none =>
    refine Option.eq_none_iff_forall_ne_some.2 fun entry hentry => ?_
    obtain ⟨hmem, hname⟩ := mem_of_searchTable hentry
    exact List.find?_eq_none.1 hscan entry hmem (decide_eq_true hname)
  | some entry =>
    obtain ⟨i, hi⟩ := List.getElem?_of_mem (List.mem_of_find?_eq_some hscan)
    rw [Array.getElem?_toList] at hi
    have hfits := List.find?_some hscan
    obtain rfl : entry.name = name := of_decide_eq_true hfits
    exact h.searchTable_eq hi (Nat.zero_le i) (Array.getElem?_eq_some_iff.1 hi).1 (Nat.le_refl _)

end

/-- Each row of the table has a lesser name than the next one. An underscore comes after the letters,
so that of two names alike the one with more components comes first. -/
theorem ascending_formatTable : Ascending formatTable.toList := by
  have hnext : formatTable.toList.IsChain fun a b => a.name < b.name := by decide +kernel
  have htrans : IsTrans FormatEntry fun a b => a.name < b.name := ⟨fun _ _ _ => String.lt_trans⟩
  exact List.isChain_iff_pairwise.1 hnext

/-- Whether a mode reads a component as a scalar of a kind: as a float, or as an integer with or
without a sign. -/
def Mode.Reads (mode : Mode) (scalar : Scalar) : Prop :=
  mode ≠ .ufloat ∧ scalar.isFloat = decide (mode = .sfloat) ∧
    scalar.isSigned = decide (mode ∈ [.snorm, .sscaled, .sint, .sfloat])

namespace Scalar

variable {mode : Mode} {bits : Nat} {scalar : Scalar}

theorem floatOfBits?_eq_some_iff :
    floatOfBits? bits = some scalar ↔
      scalar.bits = bits ∧ scalar.isFloat = true ∧ scalar.isSigned = true := by
  constructor
  · intro h
    unfold floatOfBits? at h
    split at h <;> cases h <;> exact ⟨rfl, rfl, rfl⟩
  · rintro ⟨rfl, hfloat, hsigned⟩
    revert hfloat hsigned
    cases scalar <;> decide

theorem signedOfBits?_eq_some_iff :
    signedOfBits? bits = some scalar ↔
      scalar.bits = bits ∧ scalar.isFloat = false ∧ scalar.isSigned = true := by
  constructor
  · intro h
    unfold signedOfBits? at h
    split at h <;> cases h <;> exact ⟨rfl, rfl, rfl⟩
  · rintro ⟨rfl, hfloat, hsigned⟩
    revert hfloat hsigned
    cases scalar <;> decide

theorem unsignedOfBits?_eq_some_iff :
    unsignedOfBits? bits = some scalar ↔
      scalar.bits = bits ∧ scalar.isFloat = false ∧ scalar.isSigned = false := by
  constructor
  · intro h
    unfold unsignedOfBits? at h
    split at h <;> cases h <;> exact ⟨rfl, rfl, rfl⟩
  · rintro ⟨rfl, hfloat, hsigned⟩
    revert hfloat hsigned
    cases scalar <;> decide

theorem ofMode?_eq_some_iff :
    ofMode? mode bits = some scalar ↔ scalar.bits = bits ∧ mode.Reads scalar := by
  cases mode <;>
    simp [ofMode?, Mode.Reads, floatOfBits?_eq_some_iff, signedOfBits?_eq_some_iff,
      unsignedOfBits?_eq_some_iff]

end Scalar

/-- Whether a segment is a component of a mode and a number of bits. -/
def StoredAs (width : Mode × Nat) (segment : Segment) : Prop :=
  ∃ scalar, segment = .component width.1 scalar ∧ scalar.bits = width.2 ∧ width.1.Reads scalar

/-- The modes and numbers of bits of the components of an element: those of the word that the parts
share, or those of each part. -/
def FormatEntry.widths (entry : FormatEntry) : List (Mode × Nat) :=
  match entry.packedSize with
  | some bits => [(.uint, bits)]
  | none => entry.parts.map fun part => (part.mode, part.bits)

def widthsSize : List (Mode × Nat) → Nat
  | [] => 0
  | width :: rest => width.2 + widthsSize rest

/-- Whether an element takes up room and has a component, and takes one value if it is packed. -/
structure Format.Usable (f : Format) : Prop where
  room : 0 < f.size
  component : ∃ mode scalar, .component mode scalar ∈ f.segments
  single : f.isPacked = true → f.valuesPerElement = 1

/-- Whether a format is that of a row: the row gives its segments, a component for each width, and an
element is as large and takes as many values as the widths say. -/
structure Format.IsOfRow (f : Format) (entry : FormatEntry) : Prop where
  name : f.name = some entry.name
  packedSize : f.packedSize = entry.packedSize
  parts : f.parts = entry.parts
  segments : entry.segments? = some f.segments
  stored : List.Forall₂ StoredAs entry.widths f.segments
  bits : f.size * 8 = widthsSize entry.widths
  values : f.valuesPerElement = entry.widths.length

section

variable {widths : List (Mode × Nat)} {segments : List Segment}

theorem segmentsSize_of_storedAs (h : List.Forall₂ StoredAs widths segments) :
    segmentsSize segments * 8 = widthsSize widths := by
  induction h with
  | nil => rfl
  | @cons width segment more rest hstored _ ih =>
    obtain ⟨scalar, rfl, hbits, -⟩ := hstored
    rw [segmentsSize, Nat.add_mul, ih, widthsSize, ← hbits]
    rfl

theorem length_scalarsOf_of_storedAs (h : List.Forall₂ StoredAs widths segments) :
    (scalarsOf segments).length = widths.length := by
  induction h with
  | nil => rfl
  | @cons width segment more rest hstored _ ih =>
    obtain ⟨scalar, rfl, -⟩ := hstored
    exact congrArg Nat.succ ih

end

theorem Format.exists_component (f : Format) :
    ∃ mode scalar, .component mode scalar ∈ f.segments := by
  obtain ⟨scalar, hscalar⟩ := List.exists_mem_of_ne_nil _ f.scalarsOf_ne_nil
  obtain ⟨segment, hsegment, hkind⟩ := List.mem_filterMap.1 hscalar
  cases segment with
  | padding bytes => cases hkind
  | component mode kind => exact ⟨mode, kind, hsegment⟩

namespace FormatEntry

variable {entry : FormatEntry}

theorem storedAs_of_ofMode? {mode : Mode} {bits : Nat} {scalar : Scalar}
    (h : Scalar.ofMode? mode bits = some scalar) :
    StoredAs (mode, bits) (.component mode scalar) :=
  ⟨scalar, rfl, Scalar.ofMode?_eq_some_iff.1 h⟩

theorem storedAs_of_segments? {segments : List Segment} (h : entry.segments? = some segments) :
    List.Forall₂ StoredAs entry.widths segments := by
  unfold segments? at h
  split at h
  · next bits hpacked =>
    obtain ⟨scalar, hscalar, rfl⟩ := Option.map_eq_some_iff.1 h
    rw [widths, hpacked]
    exact .cons (storedAs_of_ofMode? hscalar) .nil
  · next hplain =>
    rw [widths, hplain, List.forall₂_map_left_iff]
    refine (forall₂_of_mapM_eq_some h).imp fun part segment hsegment => ?_
    obtain ⟨scalar, hscalar, rfl⟩ := Option.map_eq_some_iff.1 hsegment
    exact storedAs_of_ofMode? hscalar

theorem isOfRow_of_format? {f : Format} (h : entry.format? = some f) :
    f.IsOfRow entry := by
  obtain ⟨segments, hsegments, h⟩ := Option.bind_eq_some_iff.1 h
  have hstored := storedAs_of_segments? hsegments
  unfold Format.ofSegments? at h
  split at h <;> cases h
  exact ⟨rfl, rfl, rfl, hsegments, hstored, segmentsSize_of_storedAs hstored,
    length_scalarsOf_of_storedAs hstored⟩

end FormatEntry

theorem Format.IsOfRow.usable {f : Format} {entry : FormatEntry} (h : f.IsOfRow entry) :
    f.Usable := by
  refine ⟨f.size_pos, f.exists_component, fun hpacked => ?_⟩
  rw [Format.isPacked, h.packedSize] at hpacked
  obtain ⟨bits, hbits⟩ := Option.isSome_iff_exists.1 hpacked
  rw [h.values, FormatEntry.widths, hbits]
  rfl

theorem Format.rel_of_scan {found : Option FormatEntry}
    (h : ∀ entry, found = some entry → entry ∈ formatTable.toList) :
    Option.Rel (fun f entry => f.IsOfRow entry ∧ f.Usable)
      (found.bind FormatEntry.format?) found := by
  cases found with
  | none => exact .none
  | some entry =>
    obtain ⟨f, hf⟩ := exists_format_of_mem_formatTable entry (h entry rfl)
    have hrow := FormatEntry.isOfRow_of_format? hf
    rw [Option.bind_some, hf]
    exact .some ⟨hrow, hrow.usable⟩

def colourParts (bits : Nat) (mode : Mode) (count : Nat) : List Part :=
  (Component.rgba.take count).map fun c => ⟨c, bits, mode⟩

theorem all_zip_eq_iff {parts : List Part} {components : List Component} {bits : Nat} {mode : Mode}
    (h : parts.length ≤ components.length) :
    ((parts.zip components).all fun p => p.1 == ⟨p.2, bits, mode⟩) = true ↔
      parts = (components.take parts.length).map fun c => ⟨c, bits, mode⟩ := by
  induction parts generalizing components with
  | nil => simp
  | cons part rest ih =>
    cases components with
    | nil => simp at h
    | cons c more =>
      rw [List.zip_cons_cons, List.all_cons, Bool.and_eq_true, beq_iff_eq,
        ih (Nat.le_of_succ_le_succ h)]
      simp

/-- No row of the table has more parts than there are colour components, so that the row with some
details has just as many of them in turn. -/
theorem hasDetails_eq {entry : FormatEntry} (h : entry ∈ formatTable.toList) (bits : Nat)
    (mode : Mode) (count : Nat) :
    entry.hasDetails bits mode count =
      decide (entry.packedSize = none ∧ entry.parts.length = count ∧
        entry.parts = colourParts bits mode count) := by
  have hfew : ∀ entry ∈ formatTable.toList, entry.parts.length ≤ Component.rgba.length := by
    decide +kernel
  rw [Bool.eq_iff_iff, decide_eq_true_eq, FormatEntry.hasDetails, Bool.and_eq_true,
    Bool.and_eq_true, Option.isNone_iff_eq_none, beq_iff_eq, and_assoc, all_zip_eq_iff (hfew entry h)]
  refine and_congr_right fun _ => and_congr_right fun hcount => ?_
  rw [hcount, colourParts]

/-- Whether a format is that of a shape under a rule: each row has a part, each row of each column a
component, and the columns stand at the distance that the rule gives. -/
structure Format.IsOfShape (f : Format) (shape : GlslShape) (rule : LayoutRule) : Prop where
  name : f.name = none
  packedSize : f.packedSize = none
  parts : f.parts = colourParts shape.scalar.bits shape.scalar.naturalMode shape.rows
  rows : f.parts.length = shape.rows
  segments : f.segments = shape.segments rule
  size : f.size = shape.columns * shape.columnStride rule
  values : f.valuesPerElement = shape.columns * shape.rows

theorem segmentsSize_append (front back : List Segment) :
    segmentsSize (front ++ back) = segmentsSize front + segmentsSize back := by
  induction front with
  | nil => simp [segmentsSize]
  | cons segment rest ih => simp only [List.cons_append, segmentsSize, ih, Nat.add_assoc]

theorem segmentsSize_replicate (n : Nat) (segment : Segment) :
    segmentsSize (List.replicate n segment) = n * segment.size := by
  induction n with
  | zero => simp [segmentsSize]
  | succ n ih => rw [List.replicate_succ, segmentsSize, ih, Nat.succ_mul, Nat.add_comm]

namespace GlslShape

variable {name : List Char} {shape : GlslShape} {rule : LayoutRule}

theorem segmentsSize_columnSegments (shape : GlslShape) (rule : LayoutRule) :
    segmentsSize (shape.columnSegments rule) = shape.columnStride rule := by
  have hfits := shape.rows_le_columnStride rule
  have hrows : segmentsSize (List.replicate shape.rows
      (.component shape.scalar.naturalMode shape.scalar)) = shape.scalar.size * shape.rows := by
    rw [segmentsSize_replicate, Segment.size, Nat.mul_comm]
  rw [columnSegments, segmentsSize_append, hrows]
  split <;> simp only [segmentsSize, Segment.size] <;> omega

theorem segmentsSize_segments (shape : GlslShape) (rule : LayoutRule) :
    segmentsSize (shape.segments rule) = shape.columns * shape.columnStride rule := by
  rw [segments]
  induction shape.columns with
  | zero => simp [segmentsSize]
  | succ columns ih =>
    rw [List.replicate_succ, List.flatten_cons, segmentsSize_append, ih,
      segmentsSize_columnSegments, Nat.succ_mul, Nat.add_comm]

theorem isOfShape_of_ofGlslType? {f : Format} (hshape : ofName? name = some shape)
    (hformat : Format.ofGlslType? name rule = some f) : f.IsOfShape shape rule := by
  have hvalues := valuesPerElement_of_ofGlslType? hshape hformat
  rw [Format.ofGlslType?, hshape, Option.bind_some, Format.ofSegments?] at hformat
  split at hformat <;> cases hformat
  refine ⟨rfl, rfl, rfl, ?_, rfl, segmentsSize_segments shape rule, hvalues⟩
  rw [parts, List.length_map, List.length_take]
  exact Nat.min_eq_left (bounds_of_ofName? hshape).2.2

end GlslShape

theorem Format.IsOfShape.usable {f : Format} {shape : GlslShape} {rule : LayoutRule}
    (h : f.IsOfShape shape rule) : f.Usable := by
  refine ⟨f.size_pos, f.exists_component, fun hpacked => ?_⟩
  rw [Format.isPacked, h.packedSize] at hpacked
  cases hpacked

/-- A name finds the format of the row that is found by going through the table, details find the
format of the first unpacked row with just these parts, and the name of a shader type finds the
format of its shape. No row or shape is found in vain, and every format that is found can be
used. -/
theorem Format.lookups_usable :
    (∀ name : String, Option.Rel (fun f entry => f.IsOfRow entry ∧ f.Usable) (ofName? name)
      (formatTable.toList.find? fun entry => entry.name = name)) ∧
    (∀ bits mode count, Option.Rel (fun f entry => f.IsOfRow entry ∧ f.Usable)
      (ofDetails? bits mode count)
      (formatTable.toList.find? fun entry => entry.packedSize = none ∧
        entry.parts.length = count ∧ entry.parts = colourParts bits mode count)) ∧
    ∀ name rule, Option.Rel (fun f shape => f.IsOfShape shape rule ∧ f.Usable)
      (ofGlslType? name rule) (GlslShape.ofName? name) := by
  refine ⟨fun name => ?name, fun bits mode count => ?details, fun name rule => ?shape⟩
  case name =>
    rw [ofName?, ascending_formatTable.searchTable_eq_find?]
    exact rel_of_scan fun entry => List.mem_of_find?_eq_some
  case details =>
    rw [ofDetails?, List.find?_congr fun entry h => hasDetails_eq h bits mode count]
    exact rel_of_scan fun entry => List.mem_of_find?_eq_some
  case shape =>
    cases hshape : GlslShape.ofName? name with
    | none =>
      rw [ofGlslType?, hshape]
      exact .none
    | some shape =>
      obtain ⟨f, hformat⟩ := exists_ofGlslType? hshape rule
      have hof := GlslShape.isOfShape_of_ofGlslType? hshape hformat
      rw [hformat]
      exact .some ⟨hof, hof.usable⟩

end GpuScript
