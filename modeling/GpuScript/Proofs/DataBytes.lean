import GpuScript.Proofs.KeptComponents

/-!
# Bytes of a buffer after a write

Every byte of a buffer that values were written to is known: the bytes of a component that a value
was stored in are those of its encoding, the others in the range of the whole elements are zero, and
all else is as it was before, with zeros where the buffer grew. It grows to the end of the last
component of the last whole element. A write that is refused has changed nothing.
-/

namespace GpuScript

theorem max?_map_end {places : List (Scalar × Nat)} (h : places.Pairwise EndsBefore) :
    (places.map fun place => place.2 + place.1.size).max? =
      places.getLast?.map fun place => place.2 + place.1.size := by
  rcases List.eq_nil_or_concat places with rfl | ⟨front, last, rfl⟩
  · rfl
  · rw [List.concat_eq_append] at h ⊢
    rw [List.getLast?_concat, Option.map_some, List.max?_eq_some_iff]
    refine ⟨List.mem_map_of_mem (List.mem_append_right _ (List.mem_singleton_self last)), ?_⟩
    intro n hn
    obtain ⟨place, hplace, rfl⟩ := List.mem_map.1 hn
    rcases List.mem_append.1 hplace with hfront | hlast
    · have hbefore : place.2 + place.1.size ≤ last.2 :=
        (List.pairwise_append.1 h).2.2 place hfront last (List.mem_singleton_self last)
      omega
    · obtain rfl := List.mem_singleton.1 hlast
      exact Nat.le_refl _

namespace Buffer

variable {b after : Buffer} {values : List Value} {offset : Nat}

/-- The end of the last component of the last whole element of some values from an offset on, zero
if they do not fill an element. -/
def wholeEnd (b : Buffer) (values offset : Nat) : Nat :=
  (b.format.components offset (values / b.format.valuesPerElement)).getLast?.elim 0
    fun place => place.2 + place.1.size

theorem elementsForData_eq (b : Buffer) (values offset : Nat) :
    b.elementsForData values offset = b.format.elementsIn (b.wholeEnd values offset) := by
  have hpos := b.format.valuesPerElement_pos
  rw [elementsForData, wholeValues]
  split
  · next hnone =>
    have hzero : values / b.format.valuesPerElement = 0 :=
      (Nat.mul_eq_zero.1 hnone).resolve_right (Nat.ne_of_gt hpos)
    rw [wholeEnd, hzero]
    exact b.format.elementsIn_zero.symm
  · next hsome =>
    have hwhole : b.format.elementsOf
        (values / b.format.valuesPerElement * b.format.valuesPerElement) =
          values / b.format.valuesPerElement := by
      rw [Format.elementsOf_eq_div (Nat.mul_mod_left ..), Nat.mul_div_cancel _ hpos]
    have hlength := b.format.length_components offset (values / b.format.valuesPerElement)
    simp only [dataEnd, hwhole]
    rw [List.take_of_length_le (Nat.le_of_eq hlength), max?_map_end (Format.pairwise_components ..),
      wholeEnd]
    cases hlast : (b.format.components offset
        (values / b.format.valuesPerElement)).getLast? with
    | some place => rfl
    | none =>
      rw [List.getLast?_eq_none_iff.1 hlast] at hlength
      exact (hsome hlength.symm).elim

/-- What becomes of some bytes when values are stored at their places in turn, up to one that cannot
be stored. -/
def storePlaced : List ((Scalar × Nat) × Value) → List UInt8 → List UInt8 × Option Fault
  | [], bytes => (bytes, none)
  | ((scalar, position), value) :: rest, bytes =>
    match value.writeAt scalar position bytes with
    | .ok bytes => storePlaced rest bytes
    | .error fault => (bytes, some fault)

/-- What becomes of a buffer when values are written to it in place, and why that stops if it
does. -/
def setDataInPlace (b : Buffer) (values : List Value) (offset : Nat) :
    Buffer × Option (Failure BufferError) :=
  let count := max b.elementCount (b.elementsForData values.length offset)
  if count * b.format.size < b.dataEnd values.length offset then
    (b, some (.error .mismatchedItems))
  else
    let grown := b.setElementCount count
    let room := values.length / b.format.valuesPerElement * b.format.size
    let cleared := { grown with bytes := clearBytes offset (offset + room) grown.bytes }
    let places := b.format.components offset (b.format.elementsOf values.length)
    let stored := storePlaced (places.zip values) cleared.bytes
    ({ cleared with bytes := stored.1 }, stored.2.map .fault)

theorem writePlaced_eq_settle (placed : List ((Scalar × Nat) × Value)) (bytes : List UInt8) :
    writePlaced placed bytes = settle (storePlaced placed bytes) := by
  induction placed generalizing bytes with
  | nil => rfl
  | cons p rest ih =>
    simp only [writePlaced, storePlaced]
    cases p.2.writeAt p.1.1 p.1.2 bytes with
    | ok written => exact ih written
    | error fault => rfl

theorem setData_eq_settle (b : Buffer) (values : List Value) (offset : Nat) :
    b.setData values offset = settle (b.setDataInPlace values offset) := by
  simp only [setData, setDataInPlace]
  split
  · rfl
  · rw [writePlaced_eq_settle]
    generalize storePlaced _ _ = stored
    obtain ⟨bytes, fault | fault⟩ := stored
    · rfl
    · rfl

/-- Whether a buffer is what another one becomes when values are written to it from an offset on. -/
structure IsWritten (b : Buffer) (values : List Value) (offset : Nat) (after : Buffer) :
    Prop where
  /-- Nothing but the bytes and the element count changes. -/
  others : after = { b with elementCount := after.elementCount, bytes := after.bytes }
  elementCount : after.elementCount =
    max b.elementCount (b.format.elementsIn (b.wholeEnd values.length offset))
  length : after.bytes.length = after.elementCount * b.format.size
  inRange : ∀ place ∈ b.writtenPlaces values offset,
    place.2 + place.1.size ≤ after.bytes.length
  encoded : ∀ (k : Nat) (v : Value) (place : Scalar × Nat), values[k]? = some v →
    (b.format.components offset (b.format.elementsOf values.length))[k]? = some place →
    ∃ bytes, v.encode place.1 = .ok bytes ∧
      ∀ i, Covers place i → after.bytes[i]? = bytes[i - place.2]?
  cleared : ∀ i < after.bytes.length,
    (∀ place ∈ b.writtenPlaces values offset, ¬ Covers place i) →
    b.InElements values offset i → after.bytes[i]? = some 0
  kept : ∀ i < b.bytes.length,
    (∀ place ∈ b.writtenPlaces values offset, ¬ Covers place i) →
    ¬ b.InElements values offset i → after.bytes[i]? = b.bytes[i]?
  added : ∀ i < after.bytes.length, b.bytes.length ≤ i →
    (∀ place ∈ b.writtenPlaces values offset, ¬ Covers place i) → after.bytes[i]? = some 0

theorem isWritten_of_setData (hlength : b.bytes.length = b.size)
    (h : b.setData values offset = .ok after) : b.IsWritten values offset after := by
  obtain ⟨hroom, bytes, hwrite, rfl⟩ := setData_eq_ok_iff.1 h
  have hcount : b.elementCount ≤ b.countAfter values.length offset := Nat.le_max_left ..
  have hgrown : b.bytes.length ≤ b.countAfter values.length offset * b.format.size :=
    hlength ▸ Nat.mul_le_mul_right _ hcount
  have hafter : bytes.length = b.countAfter values.length offset * b.format.size := by
    rw [Format.length_of_writeData hwrite, length_resizeBytes]
  refine
    { others := rfl
      elementCount := by rw [← elementsForData_eq]; rfl
      length := hafter
      inRange := ?_, encoded := ?_, cleared := ?_, kept := ?_, added := ?_ }
  · intro place hplace
    rw [hafter]
    exact Nat.le_trans (place_end_le_dataEnd hplace) hroom
  · intro k v place hv hplace
    obtain ⟨bits, hbits, hbytes⟩ := Format.bytesFrom_of_writeData hwrite hplace hv
    refine ⟨littleEndian place.1.size bits.toNat, ?_, fun i hi => getElem?_of_bytesFrom hbytes hi⟩
    rw [Value.encode, hbits]
    rfl
  · intro i hi hunwritten hin
    rw [hafter] at hi
    rw [(getElem?_of_unwritten hwrite hunwritten).1 hin,
      List.getElem?_eq_getElem (by rwa [length_resizeBytes])]
    rfl
  · intro i hi hunwritten hout
    rw [(getElem?_of_unwritten hwrite hunwritten).2 hout,
      getElem?_resizeBytes (Nat.lt_of_lt_of_le hi hgrown) hi]
  · intro i hi hbehind hunwritten
    rw [hafter] at hi
    have hzero := getElem?_resizeBytes_of_ge hbehind hi
    obtain ⟨hcleared, hkept⟩ := getElem?_of_unwritten hwrite hunwritten
    by_cases hin : b.InElements values offset i
    · rw [hcleared hin, hzero]
      rfl
    · rw [hkept hin, hzero]

/-- Values that fit their components are written, and every byte is then as described, unless a
trailing part of an element does not fit: that is refused before anything has changed. Whole
elements always fit. -/
theorem isWritten_or_unchanged (offset : Nat)
    (hlength : b.bytes.length = b.elementCount * b.format.size)
    (hfits : ∀ (k : Nat) (v : Value), values[k]? = some v → b.format.scalarAt k = .float16 →
      Half.fits v.toSingle = true) :
    b.setData values offset = settle (b.setDataInPlace values offset) ∧
    (values ≠ [] → values.length % b.format.valuesPerElement = 0 →
      ∃ after, b.setData values offset = .ok after) ∧
    (∀ after, b.setData values offset = .ok after → b.IsWritten values offset after) ∧
    ∀ failure, b.setData values offset = .error failure →
      failure = .error .mismatchedItems ∧ b.setDataInPlace values offset = (b, some failure) := by
  have hvalues : ∀ (k : Nat) (v : Value), values[k]? = some v →
      ∃ bits, v.bitsAs (b.format.scalarAt k) = .ok bits :=
    fun k v hv => Value.exists_bitsAs (hfits k v hv)
  refine ⟨setData_eq_settle b values offset, ?_, fun _ => isWritten_of_setData hlength, ?_⟩
  · intro hne hwhole
    exact exists_setData_of_room hvalues
      (dataEnd_le_of_whole (List.length_pos_iff.2 hne) hwhole offset)
  · intro failure hfailure
    rcases Nat.lt_or_ge (b.countAfter values.length offset * b.format.size)
      (b.dataEnd values.length offset) with hlack | hroom
    · rw [setData_eq, if_pos hlack] at hfailure
      cases hfailure
      exact ⟨rfl, if_pos hlack⟩
    · obtain ⟨after, hafter⟩ := exists_setData_of_room hvalues hroom
      cases hafter.symm.trans hfailure

/-- Four half floats from inside the first of three and a padding: the fourth fits into the element
that the others bring about, and does not where they fill the last one. -/
theorem isWritten_or_unchanged_of_halves :
    ∃ b after : Buffer, ∃ values : List Value,
      Format.ofGlslType? "f16vec3".toList .std430 = some b.format ∧
      b.bytes = [1, 2, 3, 4, 5, 6, 7, 8] ∧
      values = [.ofSingle 0x3f800000#32, .ofSingle 0x40000000#32, .ofSingle 0x40400000#32,
        .ofSingle 0x40800000#32] ∧
      b.bytes.length = b.elementCount * b.format.size ∧
      (∀ (k : Nat) (v : Value), values[k]? = some v → b.format.scalarAt k = .float16 →
        Half.fits v.toSingle = true) ∧
      b.setData values 4 = .ok after ∧ b.IsWritten values 4 after ∧
      after.bytes = [1, 2, 3, 4, 0, 0x3c, 0, 0x40, 0, 0x42, 0, 0, 0, 0x44, 0, 0] ∧
      b.setDataInPlace values 8 = (b, some (.error .mismatchedItems)) := by
  let f : Format :=
    { name := none, packedSize := none
      parts := [⟨.r, 16, .sfloat⟩, ⟨.g, 16, .sfloat⟩, ⟨.b, 16, .sfloat⟩]
      segments := List.replicate 3 (.component .sfloat .float16) ++ [.padding 2]
      scalarsOf_ne_nil := by decide }
  let b : Buffer :=
    { ofFormat .storage f with bytes := [1, 2, 3, 4, 5, 6, 7, 8], elementCount := 1 }
  let values : List Value := [.ofSingle 0x3f800000#32, .ofSingle 0x40000000#32,
    .ofSingle 0x40400000#32, .ofSingle 0x40800000#32]
  have hlength : b.bytes.length = b.elementCount * b.format.size := by decide
  have hfits : ∀ (k : Nat) (v : Value), values[k]? = some v → b.format.scalarAt k = .float16 →
      Half.fits v.toSingle = true := by
    have hall : ∀ v ∈ values, Half.fits v.toSingle = true := by decide +kernel
    exact fun k v hv _ => hall v (List.mem_of_getElem? hv)
  have hset : ∃ after, b.setData values 4 = .ok after ∧
      after.bytes = [1, 2, 3, 4, 0, 0x3c, 0, 0x40, 0, 0x42, 0, 0, 0, 0x44, 0, 0] := by
    decide +kernel
  have hrefused : b.setData values 8 = .error (.error .mismatchedItems) := by decide +kernel
  obtain ⟨after, hafter, hbytes⟩ := hset
  obtain ⟨-, -, hwritten, -⟩ := isWritten_or_unchanged 4 hlength hfits
  obtain ⟨-, -, -, hunchanged⟩ := isWritten_or_unchanged 8 hlength hfits
  exact ⟨b, after, values, by decide +kernel, rfl, rfl, hlength, hfits, hafter,
    hwritten after hafter, hbytes, (hunchanged _ hrefused).2⟩

end Buffer

end GpuScript
