import GpuScript.Proofs.DataWriting
import GpuScript.VertexData

/-!
# Elements without padding

Named formats have no padding, so the bytes of an element are the encodings of its values one after
the other. One more element that is written at the end of a buffer of such a format adds its bytes
and leaves the others.
-/

namespace GpuScript

def Unpadded (segments : List Segment) : Prop :=
  ∀ segment ∈ segments, segment.scalar?.isSome = true

namespace FormatEntry

theorem unpadded_of_mapM {parts : List Part} {segments : List Segment}
    (h : parts.mapM partSegment? = some segments) : Unpadded segments := by
  have hsegments := forall₂_of_mapM_eq_some h
  clear h
  induction hsegments with
  | nil => exact List.forall_mem_nil _
  | cons hsegment _ ih =>
    obtain ⟨scalar, -, rfl⟩ := Option.map_eq_some_iff.1 hsegment
    exact List.forall_mem_cons.2 ⟨rfl, ih⟩

theorem unpadded_of_format? {entry : FormatEntry} {f : Format} (h : entry.format? = some f) :
    Unpadded f.segments := by
  obtain ⟨segments, hsegments, h⟩ := Option.bind_eq_some_iff.1 h
  unfold Format.ofSegments? at h
  split at h
  · cases h
    unfold segments? at hsegments
    split at hsegments
    · obtain ⟨scalar, -, rfl⟩ := Option.map_eq_some_iff.1 hsegments
      exact List.forall_mem_singleton.2 rfl
    · exact unpadded_of_mapM hsegments
  · cases h

end FormatEntry

namespace Format

theorem unpadded_of_ofName? {name : String} {f : Format} (h : ofName? name = some f) :
    Unpadded f.segments := by
  obtain ⟨entry, -, hentry⟩ := Option.bind_eq_some_iff.1 h
  exact FormatEntry.unpadded_of_format? hentry

theorem unpadded_of_ofDetails? {bits count : Nat} {mode : Mode} {f : Format}
    (h : ofDetails? bits mode count = some f) : Unpadded f.segments := by
  obtain ⟨entry, -, hentry⟩ := Option.bind_eq_some_iff.1 h
  exact FormatEntry.unpadded_of_format? hentry

end Format

theorem unpadded_of_attributeFormat {glType glslType : List Char} {f : Format}
    (h : attributeFormat glType glslType = .ok f) : Unpadded f.segments := by
  unfold attributeFormat at h
  split at h
  · cases h
  · obtain ⟨count, -, h⟩ := exists_of_bind_eq_ok h
    split at h
    · next hformat =>
      cases h
      exact Format.unpadded_of_ofDetails? hformat
    · cases h

theorem unpadded_of_readColumnFormat {header : List Char} {pieces : List (List Char)} {f : Format}
    (h : readColumnFormat header pieces = .ok f) : Unpadded f.segments := by
  unfold readColumnFormat at h
  split at h
  · cases h
  · split at h
    · next hformat =>
      cases h
      exact Format.unpadded_of_ofName? hformat
    · cases h
  · exact unpadded_of_attributeFormat h
  · cases h

theorem unpadded_of_readColumn {header : List Char} {column : Nat × Format}
    (h : readColumn header = .ok column) : Unpadded column.2.segments := by
  unfold readColumn at h
  split at h
  · cases h
  · split at h
    · cases h
    · obtain ⟨format, hformat, rfl⟩ := exists_of_map_eq_ok h
      exact unpadded_of_readColumnFormat hformat

theorem unpadded_of_readColumns {line : List Char} {columns : List (Nat × Format)}
    (h : readColumns line = .ok columns) : ∀ column ∈ columns, Unpadded column.2.segments := by
  rw [readColumns, mapM_eq_ok_iff] at h
  generalize words line = headers at h
  induction h with
  | nil => exact List.forall_mem_nil _
  | cons hcolumn _ ih => exact List.forall_mem_cons.2 ⟨unpadded_of_readColumn hcolumn, ih⟩

def encodeValues : List Scalar → List Value → Except Fault (List UInt8)
  | s :: scalars, v :: values => do
    let encoded ← v.encode s
    return encoded ++ (← encodeValues scalars values)
  | _, _ => .ok []

theorem exists_encodeValues {scalars : List Scalar} {values : List Value}
    (h : List.Forall₂ (fun s v => Value.IsFor v s) scalars values) :
    ∃ bytes, encodeValues scalars values = .ok bytes := by
  induction h with
  | nil => exact ⟨[], rfl⟩
  | cons hfor _ ih =>
    obtain ⟨b, hb⟩ := hfor.exists_bitsAs
    obtain ⟨bytes, hbytes⟩ := ih
    rw [encodeValues, Value.encode, hb, hbytes]
    exact ⟨_, rfl⟩

theorem Value.length_of_encode {v : Value} {s : Scalar} {encoded : List UInt8}
    (h : v.encode s = .ok encoded) : encoded.length = s.size := by
  obtain ⟨b, -, rfl⟩ := exists_of_map_eq_ok h
  exact length_littleEndian ..

theorem Value.writeAt_length {v : Value} {s : Scalar} {head blank encoded : List UInt8}
    (h : v.encode s = .ok encoded) (hroom : s.size ≤ blank.length) :
    v.writeAt s head.length (head ++ blank) = .ok (head ++ encoded ++ blank.drop s.size) := by
  obtain ⟨b, hb, rfl⟩ := exists_of_map_eq_ok h
  refine Value.writeAt_eq_ok_iff.2 ⟨b, hb, ?_, ?_⟩
  · rw [List.length_append]
    exact Nat.add_le_add_left hroom _
  · rw [List.take_left, List.drop_append, List.drop_of_length_le (Nat.le_add_right ..),
      Nat.add_sub_cancel_left, List.nil_append]

/-- Without padding the values are written as their encodings one after the other. -/
theorem writePlaced_unpadded {segments : List Segment} (hunpadded : Unpadded segments)
    {values : List Value} {head blank bytes : List UInt8}
    (hvalues : values.length = (scalarsOf segments).length)
    (hbytes : encodeValues (scalarsOf segments) values = .ok bytes)
    (hblank : blank.length = segmentsSize segments) :
    writePlaced ((placeSegments segments head.length).zip values) (head ++ blank) =
      .ok (head ++ bytes) := by
  -- What was written joins the bytes in front of the next place.
  induction segments generalizing values head blank bytes with
  | nil =>
    cases hbytes
    rw [List.length_eq_zero_iff.1 hblank]
    rfl
  | cons segment rest ih =>
    obtain ⟨hsegment, hrest⟩ := List.forall_mem_cons.1 hunpadded
    cases segment with
    | padding bytes => cases hsegment
    | component mode scalar =>
      obtain ⟨v, values, rfl⟩ := List.exists_cons_of_length_eq_add_one hvalues
      obtain ⟨encoded, hencoded, hbytes⟩ := exists_of_bind_eq_ok hbytes
      obtain ⟨more, hmore, hbytes⟩ := exists_of_bind_eq_ok hbytes
      cases hbytes
      have hroom : scalar.size ≤ blank.length := hblank ▸ Nat.le_add_right ..
      have hlength : (head ++ encoded).length = head.length + scalar.size := by
        rw [List.length_append, Value.length_of_encode hencoded]
      rw [placeSegments, List.zip_cons_cons, writePlaced, Value.writeAt_length hencoded hroom]
      rw [← hlength, ← List.append_assoc]
      refine ih hrest (Nat.succ.inj hvalues) hmore ?_
      rw [List.length_drop, hblank]
      exact Nat.add_sub_cancel_left ..

namespace Format

def encodeElement (f : Format) (values : List Value) : Except Fault (List UInt8) :=
  encodeValues f.scalars values

def encodeElements (f : Format) (elements : List (List Value)) : Except Fault (List UInt8) :=
  (elements.mapM f.encodeElement).map List.flatten

variable {f : Format}

theorem encodeElements_append {elements : List (List Value)} {bytes : List UInt8}
    (h : f.encodeElements elements = .ok bytes) (others : List (List Value)) :
    f.encodeElements (elements ++ others) = (f.encodeElements others).map (bytes ++ ·) := by
  obtain ⟨pieces, hpieces, rfl⟩ := exists_of_map_eq_ok h
  rw [encodeElements, encodeElements, List.mapM_append, hpieces]
  cases others.mapM f.encodeElement with
  | error fault => rfl
  | ok more => simp [bind, Except.bind, Except.map, pure, Except.pure]

theorem encodeElements_concat {elements : List (List Value)} {values : List Value}
    {bytes more : List UInt8} (h : f.encodeElements elements = .ok bytes)
    (hmore : f.encodeElement values = .ok more) :
    f.encodeElements (elements ++ [values]) = .ok (bytes ++ more) := by
  have hlast : f.encodeElements [values] = .ok more := by
    simp [encodeElements, hmore, bind, Except.bind, Except.map, pure, Except.pure]
  rw [encodeElements_append h, hlast]
  rfl

end Format

namespace Buffer

variable {b : Buffer}

theorem exists_setData_at_end (hunpadded : Unpadded b.format.segments)
    (hlength : b.bytes.length = b.size) {values : List Value}
    (hvalues : List.Forall₂ (fun s v => Value.IsFor v s) b.format.scalars values) :
    ∃ bytes, b.format.encodeElement values = .ok bytes ∧ bytes.length = b.format.size ∧
      b.setData values b.size =
        .ok { b with elementCount := b.elementCount + 1, bytes := b.bytes ++ bytes } := by
  obtain ⟨bytes, hbytes⟩ := exists_encodeValues hvalues
  have hcount : values.length = b.format.valuesPerElement := hvalues.length_eq.symm
  have hpos := b.format.valuesPerElement_pos
  have hwhole : values.length % b.format.valuesPerElement = 0 := by rw [hcount, Nat.mod_self]
  have hdiv : values.length / b.format.valuesPerElement = 1 := by
    rw [hcount, Nat.div_self hpos]
  obtain ⟨count, written, hcountAfter, hwrite, hafter⟩ := exists_setData_aligned
    (Format.accepts_of_forall₂ hvalues) (List.length_pos_iff.1 (hcount ▸ hpos)) b.elementCount
  obtain rfl : count = b.elementCount + 1 := by
    rw [hcountAfter, hdiv]
    exact Nat.max_eq_right (Nat.le_succ _)
  have hgrown : resizeBytes ((b.elementCount + 1) * b.format.size) b.bytes =
      b.bytes ++ List.replicate b.format.size 0 := by
    rw [resizeBytes_of_le (by rw [hlength, size]; exact Nat.mul_le_mul_right _ (Nat.le_succ _)),
      hlength, size, Nat.succ_mul, Nat.add_sub_cancel_left]
  have hplaces : b.format.components b.bytes.length (b.format.elementsOf values.length) =
      placeSegments b.format.segments b.bytes.length := by
    rw [Format.elementsOf_eq_div hwhole, hdiv, Format.components, Format.components,
      List.append_nil]
  have hend : writePlaced ((placeSegments b.format.segments b.bytes.length).zip values)
      (b.bytes ++ List.replicate b.format.size 0) = .ok (b.bytes ++ bytes) :=
    writePlaced_unpadded hunpadded hcount hbytes List.length_replicate
  rw [Format.writeData, ← size, ← hlength, hgrown, clearBytes_zeros, hplaces, hend] at hwrite
  cases hwrite
  refine ⟨bytes, hbytes, ?_, hafter⟩
  have h := length_of_writePlaced hend
  simpa using h

end Buffer

end GpuScript
