import GpuScript.Proofs.BufferCalls
import GpuScript.Proofs.DataBytes

/-!
# Raw copies

Copying the raw bytes of a buffer to another one of its layout, from the start of an element on,
comes to writing the values of the buffer there. The copy takes its element count from the number of
bytes, the write from the number of values. The write clears the padding, so that the two agree if
the padding of the source is zero. Half floats are left out, since they are written as
single-precision numbers.
-/

namespace GpuScript

theorem Value.encode_stored {place : Scalar × Nat} {bytes : List UInt8}
    (hhalf : place.1 ≠ .float16) (h : place.2 + place.1.size ≤ bytes.length) :
    (stored bytes place).encode place.1 = .ok (bytesFrom place.2 place.1.size bytes) := by
  have hbits : (stored bytes place).bitsAs place.1 = .ok (stored bytes place).bits :=
    bitsAs_self hhalf
  rw [encode, hbits, ← littleEndian_stored h]
  rfl

namespace Buffer

variable {source target after : Buffer} {values : List Value} {offset : Nat}

theorem elementCount_setBytes (target source : Buffer) (offset : Nat) :
    (target.setBytes source offset).elementCount = target.format.elementsIn
      (max target.bytes.length (offset + source.bytes.length)) := by
  have hlast := Nat.le_max_right target.bytes.length (offset + source.bytes.length)
  simp only [setBytes, setElementCount, List.length_append, List.length_take, List.length_drop,
    length_resizeBytes]
  congr 1
  omega

theorem getElem?_setBytes {i : Nat} (hi : i < (target.setBytes source offset).bytes.length) :
    (target.setBytes source offset).bytes[i]? =
      if offset ≤ i ∧ i < offset + source.bytes.length then source.bytes[i - offset]?
      else some (target.bytes[i]?.getD 0) := by
  have hroom : offset + source.bytes.length ≤ (resizeBytes (max target.bytes.length
      (offset + source.bytes.length)) target.bytes).length := by
    rw [length_resizeBytes]
    exact Nat.le_max_right ..
  simp only [setBytes, setElementCount, length_resizeBytes] at hi ⊢
  rw [getElem?_resizeBytes_eq hi, getElem?_replaced rfl hroom]
  split
  · next h => rw [List.getElem?_eq_getElem (by omega), Option.getD_some]
  · next h =>
    rcases Nat.lt_or_ge i (max target.bytes.length (offset + source.bytes.length)) with hin | hout
    · rw [getElem?_resizeBytes_eq hin, Option.getD_some]
    · rw [List.getElem?_eq_none (by rwa [length_resizeBytes]),
        List.getElem?_eq_none (Nat.le_trans (Nat.le_max_left ..) hout)]

/-- Whether the padding of every element is zero. -/
def ZeroPadded (b : Buffer) : Prop :=
  ∀ i < b.bytes.length, isPaddingAt b.format.segments (i % b.format.size) = true →
    b.bytes[i]? = some 0

instance (b : Buffer) : Decidable b.ZeroPadded := Nat.decidableBallLT ..

theorem ZeroPadded.clearPadding_eq (h : source.ZeroPadded) :
    source.format.clearPadding source.bytes = source.bytes := by
  apply List.ext_getElem?
  intro i
  rw [Format.getElem?_clearPadding]
  rcases Nat.lt_or_ge i source.bytes.length with hi | hi
  · cases hpad : isPaddingAt source.format.segments (i % source.format.size) with
    | false => simp
    | true =>
      rw [h i hi hpad]
      rfl
  · rw [List.getElem?_eq_none hi, Option.map_none]

theorem length_of_values (hsource : source.bytes.length = source.size)
    (hvalues : source.values = .ok values) :
    values.length = source.elementCount * source.format.valuesPerElement := by
  rw [values_eq hsource] at hvalues
  rw [← Except.ok.inj hvalues, List.length_map, Format.length_components]

theorem whole_of_values (hsegments : target.format.segments = source.format.segments)
    (hsource : source.bytes.length = source.size) (hvalues : source.values = .ok values) :
    values.length % target.format.valuesPerElement = 0 ∧
      values.length / target.format.valuesPerElement = source.elementCount := by
  rw [length_of_values hsource hvalues, Format.valuesPerElement_congr hsegments]
  exact ⟨Nat.mul_mod_left .., Nat.mul_div_cancel _ source.format.valuesPerElement_pos⟩

theorem exists_place_of_values (hsegments : target.format.segments = source.format.segments)
    (hsource : source.bytes.length = source.size) (hvalues : source.values = .ok values)
    {place : Scalar × Nat} (hplace : place ∈ source.format.components 0 source.elementCount)
    (offset : Nat) : ∃ k : Nat, values[k]? = some (Value.stored source.bytes place) ∧
      (target.format.components offset (target.format.elementsOf values.length))[k]? =
        some (place.1, place.2 + offset) := by
  obtain ⟨hwhole, hcount⟩ := whole_of_values hsegments hsource hvalues
  obtain ⟨k, hk⟩ := List.getElem?_of_mem hplace
  rw [values_eq hsource] at hvalues
  refine ⟨k, ?_, ?_⟩
  · rw [← Except.ok.inj hvalues, List.getElem?_map, hk, Option.map_some]
  · rw [Format.elementsOf_eq_div hwhole, hcount, Format.components_congr hsegments,
      ← Nat.zero_add offset, Format.components_add_start, List.getElem?_map, hk, Option.map_some,
      Nat.zero_add]

theorem inElements_of_covers (hwhole : values.length % target.format.valuesPerElement = 0)
    {place : Scalar × Nat} {i : Nat} (hplace : place ∈ target.writtenPlaces values offset)
    (hi : Covers place i) : target.InElements values offset i := by
  have hmem := List.mem_of_mem_take hplace
  rw [Format.elementsOf_eq_div hwhole] at hmem
  obtain ⟨hstart, hend⟩ := Format.components_inside hmem
  exact ⟨Nat.le_trans hstart hi.1, Nat.lt_of_lt_of_le hi.2 hend⟩

namespace IsWritten

theorem getElem?_outside (h : target.IsWritten values offset after)
    (hwhole : values.length % target.format.valuesPerElement = 0) {i : Nat}
    (hi : i < after.bytes.length) (hout : ¬ target.InElements values offset i) :
    after.bytes[i]? = some (target.bytes[i]?.getD 0) := by
  have hunwritten : ∀ place ∈ target.writtenPlaces values offset, ¬ Covers place i :=
    fun _ hplace hcovers => hout (inElements_of_covers hwhole hplace hcovers)
  rcases Nat.lt_or_ge i target.bytes.length with hold | hnew
  · rw [h.kept i hold hunwritten hout, List.getElem?_eq_getElem hold, Option.getD_some]
  · rw [h.added i hi hnew hunwritten, List.getElem?_eq_none hnew, Option.getD_none]

/-- The values of a buffer, written to one of the same layout, are stored as the bytes of the buffer
with the padding cleared. -/
theorem getElem?_inside (h : target.IsWritten values offset after)
    (hsegments : target.format.segments = source.format.segments)
    (hhalf : Scalar.float16 ∉ source.format.scalars) (hsource : source.bytes.length = source.size)
    (hvalues : source.values = .ok values) {j : Nat} (hj : j < source.bytes.length)
    (hafter : offset + j < after.bytes.length) :
    after.bytes[offset + j]? = (source.format.clearPadding source.bytes)[j]? := by
  obtain ⟨hwhole, hcount⟩ := whole_of_values hsegments hsource hvalues
  have hinside : j < source.elementCount * source.format.size := by rwa [← size, ← hsource]
  rw [Format.getElem?_clearPadding, List.getElem?_eq_getElem hj, Option.map_some]
  cases hpad : isPaddingAt source.format.segments (j % source.format.size) with
  | false =>
    -- the byte belongs to a component, which is encoded as the bytes that it was read from
    obtain ⟨place, hplace, hcovers⟩ := (Format.isPaddingAt_eq_false_iff_exists 0 hinside).1 hpad
    rw [Nat.zero_add] at hcovers
    have hne := Format.fst_ne_of_mem_components hhalf hplace
    obtain ⟨k, hvalue, hmoved⟩ := exists_place_of_values hsegments hsource hvalues hplace offset
    obtain ⟨piece, hpiece, hbytes⟩ := h.encoded k _ _ hvalue hmoved
    obtain rfl := Except.ok.inj
      ((Value.encode_stored hne (place_end_le hsource place hplace)).symm.trans hpiece)
    obtain ⟨hlow, hhigh⟩ := hcovers
    rw [hbytes (offset + j) ⟨by omega, by simp only; omega⟩, getElem?_bytesFrom, if_pos (by omega),
      show place.2 + (offset + j - (place.2 + offset)) = j by omega, List.getElem?_eq_getElem hj]
    rfl
  | true =>
    refine h.cleared _ hafter ?_ ⟨Nat.le_add_right .., ?_⟩
    · intro place hplace hcovers
      have hmem := List.mem_of_mem_take hplace
      rw [Format.elementsOf_eq_div hwhole, hcount, Format.components_congr hsegments] at hmem
      have hfalse := (Format.isPaddingAt_eq_false_iff_exists offset hinside).2
        ⟨place, hmem, hcovers⟩
      exact Bool.noConfusion (hpad.symm.trans hfalse)
    · rw [hcount, Format.size_congr hsegments]
      exact Nat.add_lt_add_left hinside offset

theorem eq_setBytes (h : target.IsWritten values offset after)
    (hsegments : target.format.segments = source.format.segments)
    (hhalf : Scalar.float16 ∉ source.format.scalars) (hsource : source.bytes.length = source.size)
    (hpadding : source.ZeroPadded) (hvalues : source.values = .ok values)
    (hcount : after.elementCount = (target.setBytes source offset).elementCount) :
    after = target.setBytes source offset := by
  obtain ⟨hwhole, helements⟩ := whole_of_values hsegments hsource hvalues
  have hrange : ∀ i, target.InElements values offset i ↔
      offset ≤ i ∧ i < offset + source.bytes.length := by
    intro i
    rw [InElements, helements, Format.size_congr hsegments, hsource, size]
  have hlength : after.bytes.length = (target.setBytes source offset).bytes.length := by
    rw [h.length, hcount]
    exact (length_setElementCount ..).symm
  have hbytes : after.bytes = (target.setBytes source offset).bytes := by
    apply List.ext_getElem?
    intro i
    rcases Nat.lt_or_ge i after.bytes.length with hi | hi
    · rw [getElem?_setBytes (hlength ▸ hi)]
      split
      · next hin =>
        obtain ⟨j, rfl⟩ := Nat.exists_eq_add_of_le hin.1
        have hj := Nat.lt_of_add_lt_add_left hin.2
        rw [Nat.add_sub_cancel_left, h.getElem?_inside hsegments hhalf hsource hvalues hj hi,
          hpadding.clearPadding_eq]
      · next hout => exact h.getElem?_outside hwhole hi (mt (hrange i).1 hout)
    · rw [List.getElem?_eq_none hi, List.getElem?_eq_none (hlength ▸ hi)]
  rw [h.others, hcount, hbytes]
  rfl

end IsWritten

/-- The bytes of a buffer are copied to another one of the same layout, from the start of an element
on, as writing its values there stores them, provided that its padding is zero and it has no half
floats. -/
theorem setData_eq_setBytes (hlayout : target.format.sameLayout source.format = true)
    (hhalf : Scalar.float16 ∉ source.format.scalars) (htarget : target.bytes.length = target.size)
    (hsource : source.bytes.length = source.size) (hne : source.bytes ≠ [])
    (hpadding : source.ZeroPadded) (haligned : offset % target.format.size = 0) :
    ∃ values, source.values = .ok values ∧
      target.setData values offset = .ok (target.setBytes source offset) := by
  have hsegments := Format.segments_eq_of_sameLayout hlayout
  have hsize := Format.size_congr hsegments
  obtain ⟨values, hvalues⟩ : ∃ values, source.values = .ok values := ⟨_, values_eq hsource⟩
  have hlength := length_of_values hsource hvalues
  have hvaluesNe : values ≠ [] := by
    rintro rfl
    have hnone := (Nat.mul_eq_zero.1 hlength.symm).resolve_right
      (Nat.ne_of_gt source.format.valuesPerElement_pos)
    rw [size, hnone, Nat.zero_mul] at hsource
    exact hne (List.length_eq_zero_iff.1 hsource)
  have haccepts : target.format.Accepts values := by
    rw [values_eq hsource] at hvalues
    exact Except.ok.inj hvalues ▸ (accepts_stored hhalf _ _).congr hsegments.symm
  obtain ⟨m, rfl⟩ := Nat.dvd_of_mod_eq_zero haligned
  rw [Nat.mul_comm]
  obtain ⟨count, bytes, hcount, -, hafter⟩ := exists_setData_aligned haccepts hvaluesNe m
  rw [(whole_of_values hsegments hsource hvalues).2] at hcount
  have hcopied : (target.setBytes source (m * target.format.size)).elementCount = count := by
    rw [elementCount_setBytes, htarget, hsource, size, size, ← hsize, ← Nat.add_mul,
      Nat.mul_max_mul_right, Format.elementsIn_mul, hcount]
  refine ⟨values, hvalues, hafter.trans (congrArg Except.ok ?_)⟩
  exact (isWritten_of_setData htarget hafter).eq_setBytes hsegments hhalf hsource hpadding hvalues
    hcopied.symm

/-- Elements of three bytes and one of padding, copied over the last element of a target and one
behind it, and behind a gap. -/
theorem setData_eq_setBytes_of_triples :
    ∃ source target : Buffer, Format.ofGlslType? "i8vec3".toList .std430 = some source.format ∧
      source.bytes = [1, 255, 3, 0, 128, 5, 6, 0] ∧ target.bytes = [9, 9, 9, 9, 7, 7, 7, 7] ∧
      target.format.sameLayout source.format = true ∧ Scalar.float16 ∉ source.format.scalars ∧
      target.bytes.length = target.size ∧ source.bytes.length = source.size ∧ source.bytes ≠ [] ∧
      source.ZeroPadded ∧
      (∃ values after, source.values = .ok values ∧ target.setData values 4 = .ok after ∧
        after = target.setBytes source 4 ∧
        after.bytes = [9, 9, 9, 9, 1, 255, 3, 0, 128, 5, 6, 0] ∧ after.elementCount = 3) ∧
      ∃ values after, source.values = .ok values ∧ target.setData values 12 = .ok after ∧
        after = target.setBytes source 12 ∧ after.bytes = [9, 9, 9, 9, 7, 7, 7, 7, 0, 0, 0, 0,
          1, 255, 3, 0, 128, 5, 6, 0] ∧ after.elementCount = 5 := by
  let source := byteTriples [1, 255, 3, 0, 128, 5, 6, 0] 2
  let target := byteTriples [9, 9, 9, 9, 7, 7, 7, 7] 2
  have hlayout : target.format.sameLayout source.format = true := by decide
  have hhalf : Scalar.float16 ∉ source.format.scalars := by decide
  have htarget : target.bytes.length = target.size := by decide
  have hsource : source.bytes.length = source.size := by decide
  have hne : source.bytes ≠ [] := by decide
  have hpadding : source.ZeroPadded := by decide
  obtain ⟨values, hvalues, hover⟩ := setData_eq_setBytes hlayout hhalf htarget hsource hne
    hpadding (by decide : 4 % target.format.size = 0)
  obtain ⟨others, hothers, hbehind⟩ := setData_eq_setBytes hlayout hhalf htarget hsource hne
    hpadding (by decide : 12 % target.format.size = 0)
  exact ⟨source, target, by decide +kernel, rfl, rfl, hlayout, hhalf, htarget, hsource, hne,
    hpadding, ⟨values, _, hvalues, hover, rfl, by decide, by decide⟩,
    others, _, hothers, hbehind, rfl, by decide, by decide⟩

end Buffer

end GpuScript
