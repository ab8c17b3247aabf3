import GpuScript.Buffer
import GpuScript.Proofs.StorableValues

/-!
# Writing data

Values that fill whole elements of a buffer's format can always be written: the buffer grows to
hold them, every write is in range and nothing else about the buffer changes. Writing them to a
buffer that is longer by zeros gives the same bytes, longer by zeros.
-/

namespace GpuScript

@[simp] theorem getElem?_clearBytes (low high : Nat) (bytes : List UInt8) (i : Nat) :
    (clearBytes low high bytes)[i]? =
      if low ≤ i ∧ i < high then bytes[i]?.map fun _ => 0 else bytes[i]? := by
  simp only [clearBytes, List.getElem?_append, List.getElem?_take, List.getElem?_drop,
    List.getElem?_replicate, List.length_append, List.length_take, List.length_replicate]
  rcases Nat.lt_or_ge i bytes.length with hi | hi
  · rw [List.getElem?_eq_getElem hi]
    by_cases hlow : i < low
    · simp [show i < min low bytes.length by omega, show i < min low bytes.length +
        (min high bytes.length - low) by omega, hlow, show ¬ low ≤ i by omega]
    · by_cases hhigh : i < high
      · simp [show ¬ i < min low bytes.length by omega, show i < min low bytes.length +
          (min high bytes.length - low) by omega, show i - min low bytes.length <
          min high bytes.length - low by omega, show low ≤ i by omega, hhigh]
      · rw [if_neg (by omega), if_neg (by omega)]
        rw [show max low high + (i - (min low bytes.length + (min high bytes.length - low))) = i
          by omega, List.getElem?_eq_getElem hi]
  · rw [List.getElem?_eq_none hi]
    rw [if_neg (by omega), List.getElem?_eq_none (by omega)]
    simp

theorem clearBytes_append_zeros (low high n : Nat) (bytes : List UInt8) :
    clearBytes low high (bytes ++ List.replicate n 0) =
      clearBytes low high bytes ++ List.replicate n 0 := by
  apply List.ext_getElem?
  intro i
  simp only [getElem?_clearBytes, List.getElem?_append, length_clearBytes,
    List.getElem?_replicate]
  split <;> split <;> simp

theorem clearBytes_zeros (high n : Nat) (bytes : List UInt8) :
    clearBytes bytes.length high (bytes ++ List.replicate n 0) =
      bytes ++ List.replicate n 0 := by
  apply List.ext_getElem?
  intro i
  rw [getElem?_clearBytes]
  split
  · next h =>
    rw [List.getElem?_append_right h.1, List.getElem?_replicate]
    split <;> rfl
  · rfl

theorem resizeBytes_of_le {length : Nat} {bytes : List UInt8} (h : bytes.length ≤ length) :
    resizeBytes length bytes = bytes ++ List.replicate (length - bytes.length) 0 := by
  rw [resizeBytes, List.take_of_length_le h]

theorem resizeBytes_append_zeros {m n : Nat} {bytes : List UInt8} (h : bytes.length ≤ m)
    (hn : m ≤ n) : resizeBytes n bytes = resizeBytes m bytes ++ List.replicate (n - m) 0 := by
  rw [resizeBytes_of_le h, resizeBytes_of_le (Nat.le_trans h hn), List.append_assoc,
    List.replicate_append_replicate]
  congr 2
  omega

theorem resizeBytes_resizeBytes {m n : Nat} {bytes : List UInt8} (h : bytes.length ≤ m)
    (hn : m ≤ n) : resizeBytes n (resizeBytes m bytes) = resizeBytes n bytes := by
  have hlength : (resizeBytes m bytes).length = m := length_resizeBytes m bytes
  rw [resizeBytes_of_le (by rw [hlength]; exact hn), hlength, resizeBytes_append_zeros h hn]

theorem getElem?_resizeBytes {length i : Nat} {bytes : List UInt8} (h : i < length)
    (hi : i < bytes.length) : (resizeBytes length bytes)[i]? = bytes[i]? := by
  rw [resizeBytes, List.getElem?_append_left, List.getElem?_take_of_lt h]
  rw [List.length_take]
  omega

theorem getElem?_resizeBytes_of_ge {length i : Nat} {bytes : List UInt8} (hi : bytes.length ≤ i)
    (h : i < length) : (resizeBytes length bytes)[i]? = some 0 := by
  have hroom : bytes.length ≤ length := by omega
  rw [resizeBytes_of_le hroom, List.getElem?_append_right hi, List.getElem?_replicate,
    if_pos (by omega)]

theorem getElem?_resizeBytes_eq {length i : Nat} (h : i < length) (bytes : List UInt8) :
    (resizeBytes length bytes)[i]? = some (bytes[i]?.getD 0) := by
  rcases Nat.lt_or_ge i bytes.length with hi | hi
  · rw [getElem?_resizeBytes h hi, List.getElem?_eq_getElem hi, Option.getD_some]
  · rw [getElem?_resizeBytes_of_ge hi h, List.getElem?_eq_none hi, Option.getD_none]

@[simp] theorem resizeBytes_nil (length : Nat) :
    resizeBytes length [] = List.replicate length 0 := by
  simp [resizeBytes]

@[simp] theorem resizeBytes_self (bytes : List UInt8) :
    resizeBytes bytes.length bytes = bytes := by
  simp [resizeBytes]

namespace Value

/-- A value is stored exactly if it has bits of the kind and there is room for them. -/
theorem writeAt_eq_ok_iff {v : Value} {s : Scalar} {position : Nat} {bytes out : List UInt8} :
    v.writeAt s position bytes = .ok out ↔
      ∃ b, v.bitsAs s = .ok b ∧ position + s.size ≤ bytes.length ∧
        out = bytes.take position ++ littleEndian s.size b.toNat ++
          bytes.drop (position + s.size) := by
  have hpos := s.size_pos
  cases hb : v.bitsAs s with
  | error fault =>
    simp only [writeAt, write, encode, hb]
    split <;> simp [bind, Except.bind, Except.map]
  | ok b =>
    simp only [writeAt, write, encode, hb, List.length_drop]
    by_cases hroom : position + s.size ≤ bytes.length
    · rw [if_neg (by omega)]
      simp only [bind, Except.bind, Except.map]
      rw [if_neg (by omega)]
      simp [hroom, List.drop_drop, eq_comm]
    · simp only [hroom]
      split
      · simp
      · simp only [bind, Except.bind, Except.map]
        rw [if_pos (by omega)]
        simp

theorem length_of_writeAt {v : Value} {s : Scalar} {position : Nat} {bytes out : List UInt8}
    (h : v.writeAt s position bytes = .ok out) : out.length = bytes.length := by
  obtain ⟨b, -, hroom, rfl⟩ := writeAt_eq_ok_iff.1 h
  simp only [List.length_append, List.length_take, length_littleEndian, List.length_drop]
  omega

theorem writeAt_append {v : Value} {s : Scalar} {position : Nat} {bytes out : List UInt8}
    (h : v.writeAt s position bytes = .ok out) (tail : List UInt8) :
    v.writeAt s position (bytes ++ tail) = .ok (out ++ tail) := by
  obtain ⟨b, hb, hroom, rfl⟩ := writeAt_eq_ok_iff.1 h
  refine writeAt_eq_ok_iff.2 ⟨b, hb, ?_, ?_⟩
  · rw [List.length_append]
    omega
  · rw [List.take_append_of_le_length (by omega), List.drop_append_of_le_length hroom]
    simp only [List.append_assoc]

end Value

theorem exists_writePlaced {placed : List ((Scalar × Nat) × Value)} {bytes : List UInt8}
    (h : ∀ p ∈ placed, (∃ b, p.2.bitsAs p.1.1 = .ok b) ∧ p.1.2 + p.1.1.size ≤ bytes.length) :
    ∃ out, writePlaced placed bytes = .ok out ∧ out.length = bytes.length := by
  induction placed generalizing bytes with
  | nil => exact ⟨bytes, rfl, rfl⟩
  | cons p rest ih =>
    obtain ⟨⟨scalar, offset⟩, value⟩ := p
    obtain ⟨⟨b, hb⟩, hroom⟩ := h _ (List.mem_cons_self ..)
    have hwrite := Value.writeAt_eq_ok_iff.2 ⟨b, hb, hroom, rfl⟩
    have hlength := Value.length_of_writeAt hwrite
    obtain ⟨out, hout, hl⟩ := ih fun p hp => by
      rw [hlength]
      exact h p (List.mem_cons_of_mem _ hp)
    refine ⟨out, ?_, hl.trans hlength⟩
    rw [writePlaced, hwrite]
    exact hout

theorem length_of_writePlaced {placed : List ((Scalar × Nat) × Value)} {bytes out : List UInt8}
    (h : writePlaced placed bytes = .ok out) : out.length = bytes.length := by
  induction placed generalizing bytes with
  | nil => exact congrArg List.length (Except.ok.inj h).symm
  | cons p rest ih =>
    obtain ⟨mid, hmid, hrest⟩ := exists_of_bind_eq_ok h
    exact (ih hrest).trans (Value.length_of_writeAt hmid)

theorem writePlaced_append {placed : List ((Scalar × Nat) × Value)} {bytes out : List UInt8}
    (h : writePlaced placed bytes = .ok out) (tail : List UInt8) :
    writePlaced placed (bytes ++ tail) = .ok (out ++ tail) := by
  induction placed generalizing bytes with
  | nil => rw [← Except.ok.inj h, writePlaced]
  | cons p rest ih =>
    obtain ⟨mid, hmid, hrest⟩ := exists_of_bind_eq_ok h
    rw [writePlaced, Value.writeAt_append hmid]
    exact ih hrest

namespace Format

/-- Some bytes with values written over them from an offset on, after their range is cleared. -/
def writeData (f : Format) (values : List Value) (offset : Nat) (bytes : List UInt8) :
    Except Fault (List UInt8) :=
  let room := values.length / f.valuesPerElement * f.size
  writePlaced ((f.components offset (f.elementsOf values.length)).zip values)
    (clearBytes offset (offset + room) bytes)

variable {f : Format}

theorem writeData_append_zeros {values : List Value} {offset : Nat} {bytes out : List UInt8}
    (h : f.writeData values offset bytes = .ok out) (n : Nat) :
    f.writeData values offset (bytes ++ List.replicate n 0) =
      .ok (out ++ List.replicate n 0) := by
  rw [writeData, clearBytes_append_zeros]
  exact writePlaced_append h _

theorem length_of_writeData {values : List Value} {offset : Nat} {bytes out : List UInt8}
    (h : f.writeData values offset bytes = .ok out) : out.length = bytes.length :=
  (length_of_writePlaced h).trans (length_clearBytes ..)

end Format

namespace Buffer

variable {b c : Buffer}

def countAfter (b : Buffer) (values offset : Nat) : Nat :=
  max b.elementCount (b.elementsForData values offset)

theorem dataEnd_congr (h : b.format.segments = c.format.segments) (values offset : Nat) :
    b.dataEnd values offset = c.dataEnd values offset := by
  rw [dataEnd, dataEnd, Format.elementsOf, Format.elementsOf, Format.valuesPerElement_congr h,
    Format.components_congr h]

theorem elementsForData_congr (h : b.format.segments = c.format.segments)
    (values offset : Nat) : b.elementsForData values offset = c.elementsForData values offset := by
  rw [elementsForData, elementsForData, wholeValues, wholeValues, Format.elementsIn,
    Format.elementsIn, Format.valuesPerElement_congr h, Format.size_congr h, dataEnd_congr h]

theorem place_end_le_dataEnd {values offset : Nat} {place : Scalar × Nat}
    (h : place ∈ (b.format.components offset (b.format.elementsOf values)).take values) :
    place.2 + place.1.size ≤ b.dataEnd values offset :=
  List.le_max?_getD_of_mem (List.mem_map_of_mem h)

theorem elementsForData_of_whole {values offset : Nat} (hpos : 0 < values)
    (h : values % b.format.valuesPerElement = 0) :
    b.elementsForData values offset = b.format.elementsIn (b.dataEnd values offset) := by
  have hwhole : b.wholeValues values = values := by
    rw [wholeValues, Nat.div_mul_cancel (Nat.dvd_of_mod_eq_zero h)]
  rw [elementsForData, hwhole, if_neg (by omega)]

theorem components_end_le_dataEnd {values offset : Nat}
    (h : values % b.format.valuesPerElement = 0) :
    ∀ place ∈ b.format.components offset (values / b.format.valuesPerElement),
      place.2 + place.1.size ≤ b.dataEnd values offset := by
  intro place hplace
  apply place_end_le_dataEnd
  have hlength : values / b.format.valuesPerElement * b.format.valuesPerElement = values :=
    Nat.div_mul_cancel (Nat.dvd_of_mod_eq_zero h)
  rw [Format.elementsOf_eq_div h, List.take_of_length_le]
  · exact hplace
  · rw [Format.length_components]
    exact Nat.le_of_eq hlength

theorem dataEnd_le {values offset limit : Nat} (hoffset : offset ≤ limit)
    (h : ∀ place ∈ b.format.components offset (b.format.elementsOf values),
      place.2 + place.1.size ≤ limit) : b.dataEnd values offset ≤ limit := by
  simp only [dataEnd]
  cases hmax : (((b.format.components offset (b.format.elementsOf values)).take values).map
      fun place => place.2 + place.1.size).max? with
  | none => exact hoffset
  | some last =>
    obtain ⟨place, hplace, rfl⟩ := List.mem_map.1 (List.max?_mem hmax)
    exact h place (List.mem_of_mem_take hplace)

theorem elementsForData_aligned {values m : Nat} (hpos : 0 < values)
    (h : values % b.format.valuesPerElement = 0) :
    b.elementsForData values (m * b.format.size) = m + values / b.format.valuesPerElement := by
  have hdvd := Nat.dvd_of_mod_eq_zero h
  have hcount : 0 < values / b.format.valuesPerElement :=
    Nat.div_pos (Nat.le_of_dvd hpos hdvd) b.format.valuesPerElement_pos
  obtain ⟨n, hn⟩ := Nat.exists_eq_add_one_of_ne_zero (Nat.ne_of_gt hcount)
  rw [elementsForData_of_whole hpos h, hn]
  apply Nat.le_antisymm
  · rw [Format.elementsIn_le_iff, Nat.add_mul]
    refine dataEnd_le (Nat.le_add_right ..) ?_
    intro place hplace
    rw [Format.elementsOf_eq_div h, hn] at hplace
    exact (Format.components_inside hplace).2
  · obtain ⟨place, hplace, hstart⟩ := b.format.exists_component_of_last (m * b.format.size) n
    rw [← hn] at hplace
    have hend := components_end_le_dataEnd h place hplace
    have hsize := place.1.size_pos
    apply Nat.le_of_not_lt
    intro hlt
    have hle := Format.elementsIn_le_iff.1 (Nat.le_of_lt_succ (n := m + n) hlt)
    rw [Nat.add_mul] at hle
    omega

theorem elementsForData_pos {values : List Value} (h : b.format.Accepts values)
    (hne : values ≠ []) (offset : Nat) : 0 < b.elementsForData values.length offset := by
  have hpos := List.length_pos_iff.2 hne
  have helements : 0 < values.length / b.format.valuesPerElement :=
    Nat.div_pos (Nat.le_of_dvd hpos (Nat.dvd_of_mod_eq_zero h.whole)) b.format.valuesPerElement_pos
  have hplaces : 0 < (b.format.components offset
      (values.length / b.format.valuesPerElement)).length := by
    rw [Format.length_components]
    exact Nat.mul_pos helements b.format.valuesPerElement_pos
  obtain ⟨place, hplace⟩ := List.exists_mem_of_length_pos hplaces
  have hend := components_end_le_dataEnd h.whole place hplace
  have hsize := place.1.size_pos
  rw [elementsForData_of_whole hpos h.whole]
  apply Nat.pos_of_ne_zero
  intro hzero
  have := Format.elementsIn_le_iff.1 (Nat.le_of_eq hzero)
  omega

theorem setData_eq (values : List Value) (offset : Nat) :
    b.setData values offset =
      if b.countAfter values.length offset * b.format.size < b.dataEnd values.length offset then
        refuse .mismatchedItems
      else
        (orFault (b.format.writeData values offset
          (resizeBytes (b.countAfter values.length offset * b.format.size) b.bytes))).map
            fun bytes =>
              { b with elementCount := b.countAfter values.length offset, bytes := bytes } :=
  rfl

/-- What a write consists of: there is room for every value, and the bytes and the element count
are replaced. -/
theorem setData_eq_ok_iff {values : List Value} {offset : Nat} :
    b.setData values offset = .ok c ↔
      b.dataEnd values.length offset ≤ b.countAfter values.length offset * b.format.size ∧
      ∃ bytes, b.format.writeData values offset
          (resizeBytes (b.countAfter values.length offset * b.format.size) b.bytes) = .ok bytes ∧
        c = { b with elementCount := b.countAfter values.length offset, bytes := bytes } := by
  rw [setData_eq]
  split
  · next h => simp [refuse, show ¬ _ ≤ _ from Nat.not_le_of_lt h]
  · next h =>
    rw [and_iff_right (Nat.le_of_not_lt h)]
    constructor
    · intro h
      obtain ⟨bytes, hbytes, rfl⟩ := exists_of_map_eq_ok h
      cases hw : b.format.writeData values offset
          (resizeBytes (b.countAfter values.length offset * b.format.size) b.bytes) with
      | error fault =>
        rw [hw] at hbytes
        cases hbytes
      | ok written =>
        rw [hw] at hbytes
        exact ⟨written, rfl, by rw [Except.ok.inj hbytes]⟩
    · rintro ⟨bytes, hbytes, rfl⟩
      rw [hbytes]
      rfl

theorem dataEnd_le_of_whole {values : Nat} (hpos : 0 < values)
    (h : values % b.format.valuesPerElement = 0) (offset : Nat) :
    b.dataEnd values offset ≤ b.countAfter values offset * b.format.size := by
  rw [← Format.elementsIn_le_iff, ← elementsForData_of_whole hpos h]
  exact Nat.le_max_right ..

theorem exists_setData_of_room {values : List Value} {offset : Nat}
    (hvalues : ∀ (k : Nat) (v : Value), values[k]? = some v →
      ∃ bits, v.bitsAs (b.format.scalarAt k) = .ok bits)
    (hroom : b.dataEnd values.length offset ≤
      b.countAfter values.length offset * b.format.size) :
    ∃ c, b.setData values offset = .ok c := by
  have hplaced : ∀ p ∈ (b.format.components offset (b.format.elementsOf values.length)).zip values,
      (∃ bits, p.2.bitsAs p.1.1 = .ok bits) ∧
        p.1.2 + p.1.1.size ≤ b.countAfter values.length offset * b.format.size := by
    intro p hp
    obtain ⟨k, hk⟩ := List.getElem?_of_mem hp
    obtain ⟨hplace, hvalue⟩ := List.getElem?_zip_eq_some.1 hk
    have hlt : k < values.length := (List.getElem?_eq_some_iff.1 hvalue).1
    refine ⟨?_, ?_⟩
    · rw [Format.fst_of_getElem?_components hplace]
      exact hvalues k p.2 hvalue
    · refine Nat.le_trans (place_end_le_dataEnd ?_) hroom
      refine List.mem_of_getElem? (i := k) ?_
      rw [List.getElem?_take, if_pos hlt, hplace]
  obtain ⟨bytes, hbytes, -⟩ := exists_writePlaced fun p hp => by
    rw [length_clearBytes, length_resizeBytes]
    exact hplaced p hp
  exact ⟨_, setData_eq_ok_iff.2 ⟨hroom, bytes, hbytes, rfl⟩⟩

/-- Accepted values that lie in the buffer or start it anew are written. -/
theorem exists_setData {values : List Value} {offset : Nat} (h : b.format.Accepts values)
    (hroom : values ≠ [] ∨ offset ≤ b.size) : ∃ c, b.setData values offset = .ok c := by
  refine exists_setData_of_room (fun k v hv => (h.isFor k v hv).exists_bitsAs) ?_
  cases values with
  | nil =>
    have hoffset : offset ≤ b.size := hroom.resolve_left fun h => h rfl
    have hcount : b.elementCount ≤ b.countAfter 0 offset := Nat.le_max_left ..
    have hsize := Nat.mul_le_mul_right b.format.size hcount
    simp only [size] at hoffset
    simpa [dataEnd] using Nat.le_trans hoffset hsize
  | cons v rest => exact dataEnd_le_of_whole (by simp) h.whole offset

/-- Values that are written from an element on may add elements behind the last one. -/
theorem exists_setData_aligned {values : List Value} (haccepts : b.format.Accepts values)
    (hne : values ≠ []) (m : Nat) :
    ∃ count bytes, count = max b.elementCount (m + values.length / b.format.valuesPerElement) ∧
      b.format.writeData values (m * b.format.size) (resizeBytes (count * b.format.size) b.bytes) =
        .ok bytes ∧
      b.setData values (m * b.format.size) =
        .ok { b with elementCount := count, bytes := bytes } := by
  obtain ⟨after, hafter⟩ : ∃ after, b.setData values (m * b.format.size) = .ok after :=
    exists_setData haccepts (.inl hne)
  obtain ⟨-, bytes, hbytes, rfl⟩ := setData_eq_ok_iff.1 hafter
  have hcount : b.countAfter values.length (m * b.format.size) =
      max b.elementCount (m + values.length / b.format.valuesPerElement) := by
    rw [countAfter, elementsForData_aligned (List.length_pos_iff.2 hne) haccepts.whole]
  exact ⟨_, bytes, hcount, hbytes, hafter⟩

end Buffer

end GpuScript
