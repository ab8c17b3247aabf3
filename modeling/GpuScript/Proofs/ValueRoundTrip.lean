import GpuScript.GlslType
import GpuScript.Proofs.StoredBytes

/-!
# Values written and read back

Values of the scalars of a format that are written from the start of an element on are read back bit
for bit, and the other elements keep their values. The values of a buffer, written to a new one,
give its bytes with the padding cleared. Half floats are left out, since they are written as
single-precision numbers.
-/

namespace GpuScript

def isPaddingAt : List Segment → Nat → Bool
  | [], _ => false
  | .padding bytes :: rest, i => if i < bytes then true else isPaddingAt rest (i - bytes)
  | .component _ scalar :: rest, i =>
    if i < scalar.size then false else isPaddingAt rest (i - scalar.size)

/-- The bytes of a run of elements with the padding of every element replaced by zeros. -/
def Format.clearPadding (f : Format) (bytes : List UInt8) : List UInt8 :=
  bytes.mapIdx fun i byte => if isPaddingAt f.segments (i % f.size) then 0 else byte

theorem Format.getElem?_clearPadding (f : Format) (bytes : List UInt8) (i : Nat) :
    (f.clearPadding bytes)[i]? =
      bytes[i]?.map fun byte => if isPaddingAt f.segments (i % f.size) then 0 else byte :=
  List.getElem?_mapIdx

theorem isPaddingAt_eq_false_iff {segments : List Segment} {i : Nat} (offset : Nat)
    (hi : i < segmentsSize segments) :
    isPaddingAt segments i = false ↔
      ∃ place ∈ placeSegments segments offset, Covers place (offset + i) := by
  induction segments generalizing offset i with
  | nil => simp [segmentsSize] at hi
  | cons segment rest ih =>
    cases segment with
    | padding bytes =>
      simp only [segmentsSize, Segment.size] at hi
      simp only [isPaddingAt, placeSegments]
      split
      · next hlt =>
        refine iff_of_false (by simp) ?_
        rintro ⟨place, hplace, hlow, -⟩
        have := (placeSegments_inside hplace).1
        omega
      · next hle =>
        rw [ih (offset + bytes) (by omega)]
        rw [show offset + bytes + (i - bytes) = offset + i by omega]
    | component mode scalar =>
      simp only [segmentsSize, Segment.size] at hi
      simp only [isPaddingAt, placeSegments, List.exists_mem_cons_iff]
      split
      · next hlt => exact iff_of_true rfl (.inl ⟨Nat.le_add_right .., Nat.add_lt_add_left hlt _⟩)
      · next hle =>
        have hother : ¬ Covers (scalar, offset) (offset + i) := by
          rintro ⟨-, hhigh⟩
          exact hle (Nat.lt_of_add_lt_add_left hhigh)
        rw [ih (offset + scalar.size) (by omega), or_iff_right hother]
        rw [show offset + scalar.size + (i - scalar.size) = offset + i by omega]

namespace Format

variable {f : Format}

theorem isPaddingAt_eq_false_iff_exists (start : Nat) {n i : Nat} (hi : i < n * f.size) :
    isPaddingAt f.segments (i % f.size) = false ↔
      ∃ place ∈ f.components start n, Covers place (start + i) := by
  induction n generalizing start i with
  | zero => simp at hi
  | succ n ih =>
    rw [Nat.succ_mul] at hi
    simp only [components, List.mem_append, or_and_right, exists_or]
    rcases Nat.lt_or_ge i f.size with hlt | hge
    · have hrest : ¬ ∃ place ∈ f.components (start + f.size) n, Covers place (start + i) := by
        rintro ⟨place, hplace, hlow, -⟩
        have := (components_inside hplace).1
        omega
      rw [Nat.mod_eq_of_lt hlt, or_iff_left hrest]
      exact isPaddingAt_eq_false_iff start hlt
    · have hfirst : ¬ ∃ place ∈ placeSegments f.segments start, Covers place (start + i) := by
        rintro ⟨place, hplace, -, hhigh⟩
        have := (placeSegments_inside hplace).2
        simp only [size] at hge
        omega
      rw [Nat.mod_eq_sub_mod hge, or_iff_right hfirst, ih (start + f.size) (by omega),
        show start + f.size + (i - f.size) = start + i by omega]

end Format

namespace Value

variable {v : Value}

theorem ofInt_toInt (v : Value) : BitVec.ofInt v.scalar.bits v.toInt = v.bits := by
  unfold toInt
  split
  · exact BitVec.ofInt_toInt
  · rw [BitVec.ofInt_natCast, BitVec.ofNat_toNat, BitVec.setWidth_eq]

theorem bitsAs_self (h : v.scalar ≠ .float16) : v.bitsAs v.scalar = .ok v.bits := by
  obtain ⟨s, b⟩ := v
  cases s with
  | float16 => exact (h rfl).elim
  | float32 | float64 => rfl
  | _ => exact congrArg Except.ok (ofInt_toInt ⟨_, b⟩)

theorem stored_of_bitsAs {place : Scalar × Nat} {bits : BitVec place.1.bits} {bytes : List UInt8}
    (hscalar : v.scalar = place.1) (hhalf : v.scalar ≠ .float16)
    (hbits : v.bitsAs place.1 = .ok bits)
    (hbytes : bytesFrom place.2 place.1.size bytes = littleEndian place.1.size bits.toNat) :
    stored bytes place = v := by
  obtain ⟨scalar, position⟩ := place
  subst hscalar
  obtain rfl : v.bits = bits := Except.ok.inj ((bitsAs_self hhalf).symm.trans hbits)
  exact stored_eq hbytes rfl

theorem isFor_of_scalar_eq {s : Scalar} (h : v.scalar = s) (hs : s ≠ .float16) : v.IsFor s := by
  cases s with
  | float16 => exact (hs rfl).elim
  | _ => exact h

end Value

namespace Format

variable {f : Format}

theorem scalarAt_ne (hhalf : Scalar.float16 ∉ f.scalars) (k : Nat) : f.scalarAt k ≠ .float16 :=
  fun h => hhalf (h ▸ List.get_mem ..)

theorem fst_ne_of_mem_components (hhalf : Scalar.float16 ∉ f.scalars) {start n : Nat}
    {place : Scalar × Nat} (h : place ∈ f.components start n) : place.1 ≠ .float16 := by
  obtain ⟨k, hk⟩ := List.getElem?_of_mem h
  exact fst_of_getElem?_components hk ▸ scalarAt_ne hhalf k

theorem accepts_of_scalars (hhalf : Scalar.float16 ∉ f.scalars) {values : List Value}
    (hwhole : values.length % f.valuesPerElement = 0)
    (hscalars : ∀ k v, values[k]? = some v → v.scalar = f.scalarAt k) : f.Accepts values :=
  ⟨hwhole, fun k v hv => Value.isFor_of_scalar_eq (hscalars k v hv) (scalarAt_ne hhalf k)⟩

end Format

namespace Buffer

variable {b : Buffer}

section Written

variable {values : List Value} {m count : Nat} {bytes : List UInt8}

/-- What is written at the places of values is read back. -/
theorem stored_of_writeData (hhalf : Scalar.float16 ∉ b.format.scalars)
    (hwhole : values.length % b.format.valuesPerElement = 0)
    (hscalars : ∀ k v, values[k]? = some v → v.scalar = b.format.scalarAt k)
    (hcount : m + values.length / b.format.valuesPerElement ≤ count)
    (hwrite : b.format.writeData values (m * b.format.size)
      (resizeBytes (count * b.format.size) b.bytes) = .ok bytes) {k : Nat}
    (hk : k < values.length) :
    ((b.format.components 0 count).map (Value.stored bytes))[m * b.format.valuesPerElement + k]? =
      values[k]? := by
  have hlength : values.length / b.format.valuesPerElement * b.format.valuesPerElement =
      values.length := Nat.div_mul_cancel (Nat.dvd_of_mod_eq_zero hwhole)
  have hinside : k < values.length / b.format.valuesPerElement * b.format.valuesPerElement := by
    rwa [hlength]
  have hv := List.getElem?_eq_getElem hk
  have hplace := List.getElem?_eq_getElem (l := b.format.components (m * b.format.size)
    (values.length / b.format.valuesPerElement)) (i := k) (by rwa [Format.length_components])
  have hfor := hscalars k _ hv
  obtain ⟨bits, hbits, hbytes⟩ := Format.bytesFrom_of_writeData hwrite
    (by rw [Format.elementsOf_eq_div hwhole, hplace]) hv
  rw [List.getElem?_map, Format.getElem?_components_of_inside hcount hinside, Nat.zero_add, hplace,
    hv]
  exact congrArg some (Value.stored_of_bitsAs
    (hfor.trans (Format.fst_of_getElem?_components hplace).symm)
    (hfor ▸ Format.scalarAt_ne hhalf k) hbits hbytes)

theorem getElem?_of_outside (hwhole : values.length % b.format.valuesPerElement = 0)
    (hwrite : b.format.writeData values (m * b.format.size)
      (resizeBytes (count * b.format.size) b.bytes) = .ok bytes) {i : Nat}
    (hcount : i < count * b.format.size) (hi : i < b.bytes.length)
    (houtside : i < m * b.format.size ∨
      (m + values.length / b.format.valuesPerElement) * b.format.size ≤ i) :
    bytes[i]? = b.bytes[i]? := by
  rw [Nat.add_mul] at houtside
  rw [Format.getElem?_of_writeData hwrite, if_neg (by omega), getElem?_resizeBytes hcount hi]
  rintro place hplace ⟨hlow, hhigh⟩
  rw [Format.elementsOf_eq_div hwhole] at hplace
  have := Format.components_inside hplace
  omega

/-- The values of elements that the data does not reach stay. -/
theorem stored_of_outside (hlength : b.bytes.length = b.size)
    (hwhole : values.length % b.format.valuesPerElement = 0) (hcount : b.elementCount ≤ count)
    (hwrite : b.format.writeData values (m * b.format.size)
      (resizeBytes (count * b.format.size) b.bytes) = .ok bytes) {j : Nat}
    (hj : j < b.valueCount) (houtside : j / b.format.valuesPerElement < m ∨
      m + values.length / b.format.valuesPerElement ≤ j / b.format.valuesPerElement) :
    ((b.format.components 0 count).map (Value.stored bytes))[j]? =
      ((b.format.components 0 b.elementCount).map (Value.stored b.bytes))[j]? := by
  have hplace := List.getElem?_eq_getElem (l := b.format.components 0 b.elementCount) (i := j)
    (by rwa [Format.length_components])
  rw [List.getElem?_map, List.getElem?_map, Format.getElem?_components_of_le hcount hj, hplace]
  refine congrArg some (Value.stored_congr fun i hi => ?_)
  have hbounds := Format.bounds_of_getElem?_components hplace
  have hinside := place_end_le hlength _ (List.mem_of_getElem? hplace)
  have hend := Nat.lt_of_lt_of_le hi.2 hinside
  refine getElem?_of_outside hwhole hwrite ?_ hend ?_
  · rw [hlength] at hend
    exact Nat.lt_of_lt_of_le hend (Nat.mul_le_mul_right _ hcount)
  · rw [Nat.zero_add] at hbounds
    rcases houtside with hbefore | hbehind
    · have hle : (j / b.format.valuesPerElement + 1) * b.format.size ≤ m * b.format.size :=
        Nat.mul_le_mul_right _ hbefore
      exact .inl (Nat.lt_of_lt_of_le hi.2 (by omega))
    · exact .inr (Nat.le_trans (Nat.mul_le_mul_right _ hbehind) (Nat.le_trans hbounds.1 hi.1))

end Written

theorem accepts_stored (hhalf : Scalar.float16 ∉ b.format.scalars) (bytes : List UInt8)
    (count : Nat) :
    b.format.Accepts ((b.format.components 0 count).map (Value.stored bytes)) := by
  refine Format.accepts_of_scalars hhalf ?_ ?_
  · rw [List.length_map, Format.length_components, Nat.mul_mod_left]
  · intro k v hv
    obtain ⟨place, hplace, rfl⟩ := Option.map_eq_some_iff.1 (List.getElem?_map .. ▸ hv)
    exact Format.fst_of_getElem?_components hplace

theorem countAfter_ofFormat (kind : BufferKind) (f : Format) (count : Nat) :
    (ofFormat kind f).countAfter (count * f.valuesPerElement) 0 = count := by
  cases count with
  | zero => simp [countAfter, elementsForData, wholeValues, ofFormat]
  | succ n =>
    have hpos : 0 < (n + 1) * f.valuesPerElement := Nat.mul_pos n.succ_pos f.valuesPerElement_pos
    have h := elementsForData_aligned (b := ofFormat kind f) (m := 0) hpos (Nat.mul_mod_left ..)
    rw [Nat.zero_mul, Nat.zero_add] at h
    rw [countAfter, h, ofFormat, Nat.mul_div_cancel _ f.valuesPerElement_pos, Nat.zero_max]

section Rewritten

variable {zeros bytes : List UInt8}

theorem elementsOf_stored (b : Buffer) : b.format.elementsOf ((b.format.components 0
    b.elementCount).map (Value.stored b.bytes)).length = b.elementCount := by
  rw [List.length_map, Format.length_components, Format.elementsOf_eq_div (Nat.mul_mod_left ..),
    Nat.mul_div_cancel _ b.format.valuesPerElement_pos]

theorem bytesFrom_of_writeData_stored (hhalf : Scalar.float16 ∉ b.format.scalars)
    (hlength : b.bytes.length = b.size)
    (hwrite : b.format.writeData ((b.format.components 0 b.elementCount).map
      (Value.stored b.bytes)) 0 zeros = .ok bytes) {place : Scalar × Nat}
    (hplace : place ∈ b.format.components 0 b.elementCount) :
    bytesFrom place.2 place.1.size bytes = bytesFrom place.2 place.1.size b.bytes := by
  obtain ⟨k, hk⟩ := List.getElem?_of_mem hplace
  obtain ⟨bits, hbits, hbytes⟩ := Format.bytesFrom_of_writeData hwrite
    (by rw [elementsOf_stored, hk]) (by rw [List.getElem?_map, hk, Option.map_some])
  have hne := Format.fst_ne_of_mem_components hhalf hplace
  obtain rfl : (Value.stored b.bytes place).bits = bits :=
    Except.ok.inj ((Value.bitsAs_self (v := Value.stored b.bytes place) hne).symm.trans hbits)
  exact hbytes.trans (Value.littleEndian_stored (place_end_le hlength place hplace))

theorem eq_clearPadding_of_writeData (hhalf : Scalar.float16 ∉ b.format.scalars)
    (hlength : b.bytes.length = b.size)
    (hwrite : b.format.writeData ((b.format.components 0 b.elementCount).map
      (Value.stored b.bytes)) 0 (List.replicate b.size 0) = .ok bytes) :
    bytes = b.format.clearPadding b.bytes := by
  apply List.ext_getElem?
  intro i
  rw [Format.getElem?_clearPadding]
  rcases Nat.lt_or_ge i b.size with hi | hi
  · have hcovered := Format.isPaddingAt_eq_false_iff_exists 0 hi
    rw [Nat.zero_add] at hcovered
    cases hpadding : isPaddingAt b.format.segments (i % b.format.size) with
    | true =>
      have hnone : ∀ place ∈ b.format.components 0 b.elementCount, ¬ Covers place i := by
        intro place hplace hcovers
        exact Bool.noConfusion (hpadding.symm.trans (hcovered.2 ⟨place, hplace, hcovers⟩))
      rw [Format.getElem?_of_writeData hwrite (by rwa [elementsOf_stored]),
        List.getElem?_eq_getElem (by rwa [List.length_replicate]),
        List.getElem?_eq_getElem (by rwa [hlength])]
      simp
    | false =>
      obtain ⟨place, hplace, hcovers⟩ := hcovered.1 hpadding
      have hbytes := bytesFrom_of_writeData_stored hhalf hlength hwrite hplace
      simpa using getElem?_eq_of_bytesFrom_eq hbytes hcovers.1 hcovers.2
  · rw [List.getElem?_eq_none, List.getElem?_eq_none]
    · rfl
    · rwa [hlength]
    · rwa [Format.length_of_writeData hwrite, List.length_replicate]

end Rewritten

/-- Without half floats values written from an element on are read back there, and the other
elements keep theirs; the values of a buffer written to a new one give its bytes with the padding
cleared. -/
theorem values_of_setData (hhalf : Scalar.float16 ∉ b.format.scalars)
    (hlength : b.bytes.length = b.size) :
    (∀ (offset : Nat) (values : List Value), offset % b.format.size = 0 → values ≠ [] →
      values.length % b.format.valuesPerElement = 0 →
      (∀ k v, values[k]? = some v → v.scalar = b.format.scalarAt k) →
      ∃ after old new, b.setData values offset = .ok after ∧
        b.values = .ok old ∧ after.values = .ok new ∧
        (∀ k < values.length,
          new[offset / b.format.size * b.format.valuesPerElement + k]? = values[k]?) ∧
        ∀ j < old.length, (j / b.format.valuesPerElement < offset / b.format.size ∨
            offset / b.format.size + values.length / b.format.valuesPerElement ≤
              j / b.format.valuesPerElement) →
          new[j]? = old[j]?) ∧
    ∀ kind : BufferKind, ∃ stored fresh, b.values = .ok stored ∧
      (ofFormat kind b.format).setData stored 0 = .ok fresh ∧
      fresh.bytes = b.format.clearPadding b.bytes := by
  refine ⟨?_, ?_⟩
  · intro offset values hoffset hne hwhole hscalars
    obtain ⟨m, rfl⟩ := Nat.dvd_of_mod_eq_zero hoffset
    rw [Nat.mul_div_cancel_left m b.format.size_pos, Nat.mul_comm b.format.size]
    obtain ⟨count, bytes, hcount, hwrite, hafter⟩ :=
      exists_setData_aligned (Format.accepts_of_scalars hhalf hwhole hscalars) hne m
    have hlengthAfter : bytes.length = count * b.format.size := by
      rw [Format.length_of_writeData hwrite, length_resizeBytes]
    refine ⟨_, _, _, hafter, values_eq hlength, values_eq hlengthAfter, ?_, ?_⟩
    · intro k hk
      exact stored_of_writeData hhalf hwhole hscalars (hcount ▸ Nat.le_max_right ..) hwrite hk
    · intro j hj houtside
      rw [List.length_map, Format.length_components] at hj
      exact stored_of_outside hlength hwhole (hcount ▸ Nat.le_max_left ..) hwrite hj houtside
  · intro kind
    have haccepts := accepts_stored hhalf b.bytes b.elementCount
    obtain ⟨fresh, hfresh⟩ := exists_setData (b := ofFormat kind b.format) haccepts
      (.inr (Nat.zero_le _))
    obtain ⟨-, bytes, hwrite, rfl⟩ := setData_eq_ok_iff.1 hfresh
    refine ⟨_, _, values_eq hlength, hfresh, eq_clearPadding_of_writeData hhalf hlength ?_⟩
    rw [List.length_map, Format.length_components, countAfter_ofFormat] at hwrite
    simpa only [ofFormat, resizeBytes_nil, size] using hwrite

/-- Two elements of three bytes and one of padding: two elements of data from the second on, and the
bytes with the padding cleared. -/
theorem values_of_setData_padded :
    ∃ b : Buffer, b.kind = .storage ∧ Format.ofGlslType? "i8vec3".toList .std430 = some b.format ∧
      b.bytes = [1, 2, 3, 9, 4, 5, 6, 9] ∧ Scalar.float16 ∉ b.format.scalars ∧
      b.bytes.length = b.size ∧
      (∃ after old new,
        b.setData [.ofInt .int8 (-1), .ofInt .int8 0, .ofInt .int8 7, .ofInt .int8 (-128),
          .ofInt .int8 8, .ofInt .int8 127] 4 = .ok after ∧
        b.values = .ok old ∧ after.values = .ok new ∧
        new[7]? = some (.ofInt .int8 8) ∧ new[2]? = old[2]?) ∧
      ∃ stored fresh, b.values = .ok stored ∧
        (ofFormat .uniform b.format).setData stored 0 = .ok fresh ∧
        fresh.bytes = [1, 2, 3, 0, 4, 5, 6, 0] := by
  let f : Format :=
    { name := none, packedSize := none
      parts := [⟨.r, 8, .sint⟩, ⟨.g, 8, .sint⟩, ⟨.b, 8, .sint⟩]
      segments := List.replicate 3 (.component .sint .int8) ++ [.padding 1]
      scalarsOf_ne_nil := by decide }
  let b : Buffer :=
    { ofFormat .storage f with bytes := [1, 2, 3, 9, 4, 5, 6, 9], elementCount := 2 }
  have hhalf : Scalar.float16 ∉ b.format.scalars := by decide
  have hlength : b.bytes.length = b.size := by decide
  obtain ⟨hwritten, hfresh⟩ := values_of_setData hhalf hlength
  have hcleared : b.format.clearPadding b.bytes = [1, 2, 3, 0, 4, 5, 6, 0] := by decide
  have hindex : 4 / b.format.size * b.format.valuesPerElement + 4 = 7 := by decide
  refine ⟨b, rfl, by decide +kernel, rfl, hhalf, hlength, ?_, hcleared ▸ hfresh .uniform⟩
  have hscalars : ∀ k (h : k < 6), [Value.ofInt .int8 (-1), .ofInt .int8 0, .ofInt .int8 7,
      .ofInt .int8 (-128), .ofInt .int8 8, .ofInt .int8 127][k].scalar = f.scalarAt k := by decide
  obtain ⟨after, old, new, hafter, hold, hnew, hstored, hkept⟩ := hwritten 4
    [.ofInt .int8 (-1), .ofInt .int8 0, .ofInt .int8 7, .ofInt .int8 (-128), .ofInt .int8 8,
      .ofInt .int8 127] (by decide) (by decide) (by decide) fun k v hv => by
        obtain ⟨hk, rfl⟩ := List.getElem?_eq_some_iff.1 hv
        exact hscalars k hk
  refine ⟨after, old, new, hafter, hold, hnew, hindex ▸ hstored 4 (by decide),
    hkept 2 ?_ (.inl ?_)⟩
  · rw [Except.ok.inj (hold.symm.trans (values_eq hlength))]
    decide
  · decide

end Buffer

end GpuScript
