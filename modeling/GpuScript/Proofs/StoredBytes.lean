import GpuScript.Proofs.DataWriting

/-!
# Bytes that hold values

What stands at a place of some bytes, and what a write leaves there. Reading a place depends on the
bytes of the place alone; a write replaces the bytes of its own place and no others. A buffer with
as many bytes as its elements take can be read in full.
-/

namespace GpuScript

def bytesFrom (position count : Nat) (bytes : List UInt8) : List UInt8 :=
  (bytes.drop position).take count

theorem getElem?_bytesFrom (position count i : Nat) (bytes : List UInt8) :
    (bytesFrom position count bytes)[i]? = if i < count then bytes[position + i]? else none := by
  rw [bytesFrom, List.getElem?_take, List.getElem?_drop]

theorem length_bytesFrom {position count : Nat} {bytes : List UInt8}
    (h : position + count ≤ bytes.length) : (bytesFrom position count bytes).length = count := by
  rw [bytesFrom, List.length_take, List.length_drop]
  omega

theorem bytesFrom_congr {position count : Nat} {a b : List UInt8}
    (h : ∀ i, position ≤ i → i < position + count → a[i]? = b[i]?) :
    bytesFrom position count a = bytesFrom position count b := by
  apply List.ext_getElem?
  intro i
  rw [getElem?_bytesFrom, getElem?_bytesFrom]
  split
  · exact h _ (by omega) (by omega)
  · rfl

theorem getElem?_eq_of_bytesFrom_eq {position count i : Nat} {a b : List UInt8}
    (h : bytesFrom position count a = bytesFrom position count b) (hlow : position ≤ i)
    (hhigh : i < position + count) : a[i]? = b[i]? := by
  have hi := congrArg (·[i - position]?) h
  have hindex := Nat.sub_lt_left_of_lt_add hlow hhigh
  simpa [getElem?_bytesFrom, hindex, Nat.add_sub_cancel' hlow] using hi

theorem getElem?_replaced {position count : Nat} {bytes piece : List UInt8}
    (hcount : piece.length = count) (hroom : position + count ≤ bytes.length) (i : Nat) :
    (bytes.take position ++ piece ++ bytes.drop (position + count))[i]? =
      if position ≤ i ∧ i < position + count then piece[i - position]? else bytes[i]? := by
  have hhead : (bytes.take position).length = position := by
    rw [List.length_take]
    omega
  rw [List.append_assoc, List.getElem?_append, List.getElem?_append, hhead, hcount,
    List.getElem?_take, List.getElem?_drop]
  by_cases hlow : i < position
  · rw [if_pos hlow, if_pos hlow, if_neg (by omega)]
  · rw [if_neg hlow]
    by_cases hhigh : i - position < count
    · rw [if_pos hhigh, if_pos ⟨Nat.le_of_not_lt hlow, by omega⟩]
    · rw [if_neg hhigh, if_neg (by omega)]
      congr 1
      omega

/-- Whether a byte index belongs to a component. -/
def Covers (place : Scalar × Nat) (i : Nat) : Prop := place.2 ≤ i ∧ i < place.2 + place.1.size

theorem getElem?_of_bytesFrom {place : Scalar × Nat} {bytes piece : List UInt8} {i : Nat}
    (h : bytesFrom place.2 place.1.size bytes = piece) (hi : Covers place i) :
    bytes[i]? = piece[i - place.2]? := by
  obtain ⟨hlow, hhigh⟩ := hi
  rw [← h, getElem?_bytesFrom, if_pos (by omega), Nat.add_sub_cancel' hlow]

namespace Value

/-- The value that stands at a place of some bytes. -/
def stored (bytes : List UInt8) (place : Scalar × Nat) : Value :=
  ⟨place.1, BitVec.ofNat place.1.bits (ofLittleEndian (bytesFrom place.2 place.1.size bytes))⟩

variable {v : Value} {place : Scalar × Nat} {bytes out : List UInt8}

theorem scalar_read_drop (h : place.2 + place.1.size ≤ bytes.length) :
    place.1.read (bytes.drop place.2) = .ok (stored bytes place).bits := by
  rw [Scalar.read, List.length_drop, if_neg (by omega)]
  rfl

theorem read_drop (h : place.2 + place.1.size ≤ bytes.length) :
    read place.1 (bytes.drop place.2) = .ok (stored bytes place) := by
  rw [read, scalar_read_drop h]
  rfl

theorem stored_congr (h : ∀ i, Covers place i → out[i]? = bytes[i]?) :
    stored out place = stored bytes place := by
  rw [stored, stored, bytesFrom_congr fun i hlow hhigh => h i ⟨hlow, hhigh⟩]

/-- The bytes of a place are those that the value standing there is stored as. -/
theorem littleEndian_stored (h : place.2 + place.1.size ≤ bytes.length) :
    littleEndian place.1.size (stored bytes place).bits.toNat =
      bytesFrom place.2 place.1.size bytes := by
  have hlength := length_bytesFrom h
  have hlt := ofLittleEndian_lt (bytesFrom place.2 place.1.size bytes)
  rw [hlength, Nat.mul_comm] at hlt
  have hbits : (stored bytes place).bits.toNat =
      ofLittleEndian (bytesFrom place.2 place.1.size bytes) := by
    rw [stored, BitVec.toNat_ofNat]
    exact Nat.mod_eq_of_lt hlt
  have hbytes := littleEndian_ofLittleEndian (bytesFrom place.2 place.1.size bytes)
  rwa [hlength, ← hbits] at hbytes

theorem stored_eq
    (h : bytesFrom place.2 v.scalar.size bytes = littleEndian v.scalar.size v.bits.toNat)
    (hscalar : v.scalar = place.1) : stored bytes place = v := by
  obtain ⟨scalar, position⟩ := place
  obtain ⟨s, b⟩ := v
  cases hscalar
  have hnat : ofLittleEndian (bytesFrom position scalar.size bytes) = b.toNat := by
    rw [h, ofLittleEndian_littleEndian, Nat.mul_comm]
    exact Nat.mod_eq_of_lt b.isLt
  rw [stored, hnat, BitVec.ofNat_toNat, BitVec.setWidth_eq]

theorem getElem?_of_writeAt {s : Scalar} {position i : Nat}
    (h : v.writeAt s position bytes = .ok out) (hi : ¬ Covers (s, position) i) :
    out[i]? = bytes[i]? := by
  obtain ⟨b, -, hroom, rfl⟩ := writeAt_eq_ok_iff.1 h
  rw [getElem?_replaced (length_littleEndian ..) hroom]
  exact if_neg hi

theorem bytesFrom_of_writeAt {s : Scalar} {position : Nat}
    (h : v.writeAt s position bytes = .ok out) :
    ∃ b, v.bitsAs s = .ok b ∧ bytesFrom position s.size out = littleEndian s.size b.toNat := by
  obtain ⟨b, hb, hroom, rfl⟩ := writeAt_eq_ok_iff.1 h
  have hhead : (bytes.take position).length = position := by
    rw [List.length_take]
    omega
  refine ⟨b, hb, ?_⟩
  rw [bytesFrom, List.append_assoc, List.drop_left' hhead]
  exact List.take_left' (length_littleEndian ..)

end Value

theorem pairwise_zip {places : List (Scalar × Nat)} (h : places.Pairwise EndsBefore)
    (values : List Value) : (places.zip values).Pairwise fun p q => EndsBefore p.1 q.1 := by
  induction h generalizing values with
  | nil => exact .nil
  | cons hfirst _ ih =>
    cases values with
    | nil => exact .nil
    | cons v rest => exact .cons (fun q hq => hfirst _ (List.of_mem_zip hq).1) (ih rest)

section Placed

variable {placed : List ((Scalar × Nat) × Value)} {bytes out : List UInt8}

theorem getElem?_of_writePlaced {i : Nat} (h : writePlaced placed bytes = .ok out)
    (hi : ∀ p ∈ placed, ¬ Covers p.1 i) : out[i]? = bytes[i]? := by
  induction placed generalizing bytes with
  | nil => rw [← Except.ok.inj h]
  | cons p rest ih =>
    obtain ⟨mid, hmid, hrest⟩ := exists_of_bind_eq_ok h
    rw [ih hrest fun q hq => hi q (List.mem_cons_of_mem _ hq)]
    exact Value.getElem?_of_writeAt hmid (hi p (List.mem_cons_self ..))

theorem bytesFrom_of_writePlaced (h : writePlaced placed bytes = .ok out)
    (hplaces : placed.Pairwise fun p q => EndsBefore p.1 q.1) {p : (Scalar × Nat) × Value}
    (hp : p ∈ placed) : ∃ b, p.2.bitsAs p.1.1 = .ok b ∧
      bytesFrom p.1.2 p.1.1.size out = littleEndian p.1.1.size b.toNat := by
  induction hplaces generalizing bytes with
  | nil => cases hp
  | @cons q rest hfirst _ ih =>
    obtain ⟨mid, hmid, hrest⟩ := exists_of_bind_eq_ok h
    rcases List.mem_cons.1 hp with rfl | hp
    · obtain ⟨b, hb, hbytes⟩ := Value.bytesFrom_of_writeAt hmid
      refine ⟨b, hb, ?_⟩
      rw [← hbytes]
      -- The later writes are behind the place.
      refine bytesFrom_congr fun i _ hhigh => getElem?_of_writePlaced hrest ?_
      rintro r hr ⟨hlow, -⟩
      have hbefore : p.1.2 + p.1.1.size ≤ r.1.2 := hfirst r hr
      omega
    · exact ih hrest hp

end Placed

namespace Format

variable {f : Format} {values : List Value} {offset : Nat} {bytes out : List UInt8}

theorem getElem?_of_writeData {i : Nat} (h : f.writeData values offset bytes = .ok out)
    (hi : ∀ place ∈ f.components offset (f.elementsOf values.length), ¬ Covers place i) :
    out[i]? =
      if offset ≤ i ∧ i < offset + values.length / f.valuesPerElement * f.size then
        bytes[i]?.map fun _ => 0
      else bytes[i]? := by
  rw [← getElem?_clearBytes]
  exact getElem?_of_writePlaced h fun p hp => hi _ (List.of_mem_zip hp).1

theorem bytesFrom_of_writeData {k : Nat} {place : Scalar × Nat} {v : Value}
    (h : f.writeData values offset bytes = .ok out)
    (hplace : (f.components offset (f.elementsOf values.length))[k]? = some place)
    (hv : values[k]? = some v) : ∃ b, v.bitsAs place.1 = .ok b ∧
      bytesFrom place.2 place.1.size out = littleEndian place.1.size b.toNat :=
  bytesFrom_of_writePlaced h (pairwise_zip (f.pairwise_components ..) values) (p := (place, v))
    (List.mem_of_getElem? (List.getElem?_zip_eq_some.2 ⟨hplace, hv⟩))

end Format

namespace Buffer

variable {b : Buffer}

theorem place_end_le (hlength : b.bytes.length = b.size) :
    ∀ place ∈ b.format.components 0 b.elementCount, place.2 + place.1.size ≤ b.bytes.length := by
  intro place hplace
  have h := (Format.components_inside hplace).2
  rw [hlength, size]
  omega

/-- A buffer of the length of its elements is read in full. -/
theorem values_eq (hlength : b.bytes.length = b.size) :
    b.values = .ok ((b.format.components 0 b.elementCount).map (Value.stored b.bytes)) := by
  rw [values]
  refine mapM_eq_ok_iff.2 (List.forall₂_map_right_iff.2 (List.forall₂_same.2 ?_))
  intro place hplace
  exact Value.read_drop (place_end_le hlength place hplace)

end Buffer

end GpuScript
