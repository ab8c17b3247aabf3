import GpuScript.Proofs.ElementEncoding
import GpuScript.Proofs.ValueRoundTrip

/-!
# Components that data leaves alone

The bytes of the whole elements of some data are cleared before it is written, those of its padding
too. A component that shares no byte with a written one keeps its value exactly if it has zeros
wherever that padding falls. Data that starts where an element does, or is of a format without
padding, changes no such component.
-/

namespace GpuScript

/-- Whether two components share a byte. -/
def Overlap (p q : Scalar × Nat) : Prop := ∃ i, Covers p i ∧ Covers q i

theorem overlap_iff {p q : Scalar × Nat} :
    Overlap p q ↔ p.2 < q.2 + q.1.size ∧ q.2 < p.2 + p.1.size := by
  have hp := p.1.size_pos
  have hq := q.1.size_pos
  refine ⟨?_, fun h => ⟨max p.2 q.2, ?_, ?_⟩⟩
  · rintro ⟨i, ⟨hlow, hhigh⟩, hlow', hhigh'⟩
    exact ⟨by omega, by omega⟩
  · exact ⟨by omega, by omega⟩
  · exact ⟨by omega, by omega⟩

instance (p q : Scalar × Nat) : Decidable (Overlap p q) := decidable_of_iff _ overlap_iff.symm

theorem isPaddingAt_of_unpadded {segments : List Segment} (h : Unpadded segments) (i : Nat) :
    isPaddingAt segments i = false := by
  induction segments generalizing i with
  | nil => rfl
  | cons segment rest ih =>
    obtain ⟨hsegment, hrest⟩ := List.forall_mem_cons.1 h
    cases segment with
    | padding bytes => cases hsegment
    | component mode scalar =>
      rw [isPaddingAt]
      split
      · rfl
      · exact ih hrest _

namespace Buffer

variable {b after : Buffer} {values : List Value} {offset : Nat} {place : Scalar × Nat}

/-- The components that values from an offset on are stored as. -/
def writtenPlaces (b : Buffer) (values : List Value) (offset : Nat) : List (Scalar × Nat) :=
  (b.format.components offset (b.format.elementsOf values.length)).take values.length

/-- Whether a byte index belongs to the whole elements of values from an offset on. -/
def InElements (b : Buffer) (values : List Value) (offset i : Nat) : Prop :=
  offset ≤ i ∧ i < offset + values.length / b.format.valuesPerElement * b.format.size

theorem getElem?_of_unwritten {i : Nat} {bytes out : List UInt8}
    (h : b.format.writeData values offset bytes = .ok out)
    (hi : ∀ written ∈ b.writtenPlaces values offset, ¬ Covers written i) :
    (b.InElements values offset i → out[i]? = bytes[i]?.map fun _ => 0) ∧
      (¬ b.InElements values offset i → out[i]? = bytes[i]?) := by
  have hkept := getElem?_of_writePlaced (i := i) h ?_
  · rw [getElem?_clearBytes] at hkept
    exact ⟨fun hin => hkept.trans (if_pos hin), fun hout => hkept.trans (if_neg hout)⟩
  · intro p hp
    obtain ⟨k, hk⟩ := List.getElem?_of_mem hp
    obtain ⟨hplace, hvalue⟩ := List.getElem?_zip_eq_some.1 hk
    have hlt : k < values.length := (List.getElem?_eq_some_iff.1 hvalue).1
    refine hi p.1 (List.mem_of_getElem? (i := k) ?_)
    rw [writtenPlaces, List.getElem?_take, if_pos hlt, hplace]

theorem exists_written_of_not_padding {i : Nat}
    (hi : i < values.length / b.format.valuesPerElement * b.format.size)
    (hpadding : isPaddingAt b.format.segments (i % b.format.size) = false) :
    ∃ written ∈ b.writtenPlaces values offset, Covers written (offset + i) := by
  obtain ⟨place, hplace, hcovers⟩ := (Format.isPaddingAt_eq_false_iff_exists offset hi).1 hpadding
  refine ⟨place, ?_, hcovers⟩
  obtain ⟨k, hk⟩ := List.getElem?_of_mem hplace
  have hlt := (List.getElem?_eq_some_iff.1 hk).1
  rw [Format.length_components] at hlt
  have hwhole : values.length / b.format.valuesPerElement * b.format.valuesPerElement ≤
      values.length := Nat.div_mul_le_self ..
  have hpos := b.format.valuesPerElement_pos
  have helements : values.length / b.format.valuesPerElement ≤
      b.format.elementsOf values.length := Nat.div_le_div_right (by omega)
  refine List.mem_of_getElem? (i := k) ?_
  rw [writtenPlaces, List.getElem?_take, if_pos (by omega),
    Format.getElem?_components_of_le helements hlt, hk]

theorem not_inElements_of_apart (hplace : place ∈ b.format.components 0 b.elementCount)
    (hapart : ∀ written ∈ b.writtenPlaces values offset, ¬ Overlap place written)
    (h : offset % b.format.size = 0 ∨ Unpadded b.format.segments) {i : Nat}
    (hi : Covers place i) : ¬ b.InElements values offset i := by
  rintro ⟨hlow, hhigh⟩
  obtain ⟨j, rfl⟩ := Nat.exists_eq_add_of_le hlow
  have hpadding : isPaddingAt b.format.segments (j % b.format.size) = false := by
    rcases h with haligned | hunpadded
    · have hinside : offset + j < b.elementCount * b.format.size := by
        have hend := (Format.components_inside hplace).2
        rw [Nat.zero_add] at hend
        exact Nat.lt_of_lt_of_le hi.2 hend
      have hcomponent := (Format.isPaddingAt_eq_false_iff_exists 0 hinside).2
        ⟨place, hplace, by rwa [Nat.zero_add]⟩
      rwa [Nat.add_mod, haligned, Nat.zero_add, Nat.mod_mod] at hcomponent
    · exact isPaddingAt_of_unpadded hunpadded _
  obtain ⟨written, hwritten, hcovers⟩ :=
    exists_written_of_not_padding (Nat.lt_of_add_lt_add_left hhigh) hpadding
  exact hapart written hwritten ⟨_, hi, hcovers⟩

theorem stored_of_apart {bytes : List UInt8} {count : Nat} (hlength : b.bytes.length = b.size)
    (hcount : b.elementCount ≤ count)
    (hwrite : b.format.writeData values offset
      (resizeBytes (count * b.format.size) b.bytes) = .ok bytes)
    (hplace : place ∈ b.format.components 0 b.elementCount)
    (hapart : ∀ written ∈ b.writtenPlaces values offset, ¬ Overlap place written) :
    Value.stored bytes place = Value.stored b.bytes place ↔
      ∀ i, Covers place i → b.InElements values offset i → b.bytes[i]? = some 0 := by
  have hinside := place_end_le hlength place hplace
  have hroom : b.bytes.length ≤ count * b.format.size :=
    hlength ▸ Nat.mul_le_mul_right _ hcount
  have hbytes : ∀ i, Covers place i →
      (b.InElements values offset i → bytes[i]? = some 0) ∧
        (¬ b.InElements values offset i → bytes[i]? = b.bytes[i]?) := by
    intro i hi
    have hlt := Nat.lt_of_lt_of_le hi.2 hinside
    obtain ⟨hcleared, hkept⟩ := getElem?_of_unwritten hwrite fun written hwritten hcovers =>
      hapart written hwritten ⟨i, hi, hcovers⟩
    rw [getElem?_resizeBytes (Nat.lt_of_lt_of_le hlt hroom) hlt] at hcleared hkept
    refine ⟨fun hin => ?_, hkept⟩
    rw [hcleared hin, List.getElem?_eq_getElem hlt]
    rfl
  refine ⟨?_, ?_⟩
  · intro hsame i hi hin
    have hafter : place.2 + place.1.size ≤ bytes.length := by
      rw [Format.length_of_writeData hwrite, length_resizeBytes]
      exact Nat.le_trans hinside hroom
    have hparts := (Value.littleEndian_stored hafter).symm.trans
      ((congrArg (fun v => littleEndian place.1.size v.bits.toNat) hsame).trans
        (Value.littleEndian_stored hinside))
    rw [← getElem?_eq_of_bytesFrom_eq hparts hi.1 hi.2]
    exact (hbytes i hi).1 hin
  · intro hzero
    refine Value.stored_congr fun i hi => ?_
    by_cases hin : b.InElements values offset i
    · rw [(hbytes i hi).1 hin, hzero i hi hin]
    · exact (hbytes i hi).2 hin

/-- A component that shares no byte with those that data is written to keeps its value exactly if it
has zeros wherever the whole elements of the data reach, which they do only with padding from inside
an element on. -/
theorem kept_values_of_setData_iff {k : Nat} (hlength : b.bytes.length = b.size)
    (h : b.setData values offset = .ok after)
    (hplace : (b.format.components 0 b.elementCount)[k]? = some place)
    (hapart : ∀ written ∈ b.writtenPlaces values offset, ¬ Overlap place written) :
    ∃ old new, b.values = .ok old ∧ after.values = .ok new ∧ k < old.length ∧
      (new[k]? = old[k]? ↔
        ∀ i, Covers place i → b.InElements values offset i → b.bytes[i]? = some 0) ∧
      (offset % b.format.size = 0 ∨ Unpadded b.format.segments → new[k]? = old[k]?) := by
  obtain ⟨-, bytes, hwrite, rfl⟩ := setData_eq_ok_iff.1 h
  have hcount : b.elementCount ≤ b.countAfter values.length offset := Nat.le_max_left ..
  have hlengthAfter : bytes.length = b.countAfter values.length offset * b.format.size := by
    rw [Format.length_of_writeData hwrite, length_resizeBytes]
  have hmember := List.mem_of_getElem? hplace
  have hk := (List.getElem?_eq_some_iff.1 hplace).1
  have hkept := stored_of_apart hlength hcount hwrite hmember hapart
  have hvalues : ((b.format.components 0 (b.countAfter values.length offset)).map
      (Value.stored bytes))[k]? = ((b.format.components 0 b.elementCount).map
        (Value.stored b.bytes))[k]? ↔
      Value.stored bytes place = Value.stored b.bytes place := by
    rw [Format.length_components] at hk
    rw [List.getElem?_map, List.getElem?_map, Format.getElem?_components_of_le hcount hk, hplace,
      Option.map_some, Option.map_some, Option.some_inj]
  refine ⟨_, _, values_eq hlength, values_eq hlengthAfter, by rwa [List.length_map],
    hvalues.trans hkept, ?_⟩
  intro haligned
  refine hvalues.2 (hkept.2 ?_)
  intro i hi hin
  exact (not_inElements_of_apart hmember hapart haligned hi hin).elim

/-- Elements of three bytes and one of padding. -/
def byteTriples (bytes : List UInt8) (elementCount : Nat) : Buffer :=
  { ofFormat .storage
      { name := none, packedSize := none
        parts := [⟨.r, 8, .sint⟩, ⟨.g, 8, .sint⟩, ⟨.b, 8, .sint⟩]
        segments := List.replicate 3 (.component .sint .int8) ++ [.padding 1]
        scalarsOf_ne_nil := by decide } with
    bytes := bytes
    elementCount := elementCount }

/-- One element of data from the second component on: its padding falls on a component that is zero
already. -/
theorem values_of_setData_on_zero :
    ∃ (b after : Buffer) (old new : List Value),
      Format.ofGlslType? "i8vec3".toList .std430 = some b.format ∧
      b.bytes = [1, 2, 3, 9, 0, 5, 6, 9] ∧
      b.setData [.ofInt .int8 7, .ofInt .int8 8, .ofInt .int8 9] 1 = .ok after ∧
      b.values = .ok old ∧ after.values = .ok new ∧ new[3]? = old[3]? := by
  let b := byteTriples [1, 2, 3, 9, 0, 5, 6, 9] 2
  have hset : ∃ after, b.setData [.ofInt .int8 7, .ofInt .int8 8, .ofInt .int8 9] 1 = .ok after ∧
      after.kind = .storage := by decide +kernel
  obtain ⟨after, hafter, -⟩ := hset
  have hplace : (b.format.components 0 b.elementCount)[3]? = some (.int8, 4) := by decide
  obtain ⟨old, new, hold, hnew, -, hkept, -⟩ :=
    kept_values_of_setData_iff (by decide) hafter hplace (by decide)
  refine ⟨b, after, old, new, by decide +kernel, rfl, hafter, hold, hnew, hkept.2 ?_⟩
  rintro i ⟨hlow, hhigh⟩ -
  obtain rfl : i = 4 := Nat.le_antisymm (Nat.le_of_lt_succ hhigh) hlow
  rfl

/-- One element of data from the second component on: its padding falls on the first component of
the next element, which is lost. -/
theorem not_values_kept_of_setData : ¬ ∀ (b after : Buffer) (values : List Value)
    (offset k : Nat) (place : Scalar × Nat), b.bytes.length = b.size →
    b.setData values offset = .ok after →
    (b.format.components 0 b.elementCount)[k]? = some place →
    (∀ written ∈ b.writtenPlaces values offset, ¬ Overlap place written) →
    ∃ old new, b.values = .ok old ∧ after.values = .ok new ∧ new[k]? = old[k]? := by
  intro h
  let b := byteTriples [1, 2, 3, 0, 4, 5, 6, 0] 2
  have hset : ∃ after, b.setData [.ofInt .int8 7, .ofInt .int8 8, .ofInt .int8 9] 1 = .ok after ∧
      ∃ old, b.values = .ok old ∧ ∃ new, after.values = .ok new ∧ new[3]? ≠ old[3]? := by
    decide +kernel
  obtain ⟨after, hafter, old, hold, new, hnew, hlost⟩ := hset
  obtain ⟨old', new', hold', hnew', hkept⟩ :=
    h b after _ 1 3 (.int8, 4) (by decide) hafter (by decide) (by decide)
  cases hold.symm.trans hold'
  cases hnew.symm.trans hnew'
  exact hlost hkept

end Buffer

end GpuScript
