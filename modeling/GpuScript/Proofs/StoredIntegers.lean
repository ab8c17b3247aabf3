import GpuScript.Proofs.ComponentDifferences

/-!
# Stored integers

An integer of any kind can be stored as an integer of any other kind, wherever there are enough
bytes. Its bits are cut, or extended by its sign or by zeros, so that what is read back is the one
integer of the kind that is congruent to it modulo the power of two of the width.
-/

namespace GpuScript

theorem Scalar.bits_div_eight (s : Scalar) : s.bits / 8 = s.size :=
  Nat.mul_div_cancel s.size (by decide)

namespace Value

variable {v : Value} {s : Scalar}

/-- The bits of an integer at another width: cut, or extended by the sign in a signed kind and by
zeros in an unsigned one. -/
def resizedBits (v : Value) (width : Nat) : BitVec width :=
  if v.scalar.isSigned then v.bits.signExtend width else v.bits.setWidth width

theorem resizedBits_eq (v : Value) (width : Nat) :
    v.resizedBits width = BitVec.ofInt width v.toInt := by
  unfold resizedBits toInt
  split
  · rfl
  · rw [BitVec.ofInt_natCast, BitVec.ofNat_toNat]

theorem bitsAs_of_integer (hv : v.scalar.isFloat = false) (hs : s.isFloat = false) :
    v.bitsAs s = .ok (v.resizedBits s.bits) := by
  have hdatum : v.datum? = none := by
    obtain ⟨scalar, bits⟩ := v
    cases scalar with
    | float16 | float32 | float64 => cases hv
    | _ => rfl
  have hinteger : ∀ signed, v.toInteger signed s.bits = v.resizedBits s.bits := by
    intro signed
    rw [toInteger, hdatum, resizedBits_eq]
  cases s with
  | float16 | float32 | float64 => cases hs
  | _ => exact congrArg Except.ok (hinteger _)

theorem toInt_resizedBits_modEq (v : Value) (s : Scalar) :
    (⟨s, v.resizedBits s.bits⟩ : Value).toInt ≡ v.toInt [ZMOD 2 ^ s.bits] := by
  have hbits : ((v.resizedBits s.bits).toNat : Int) = v.toInt % 2 ^ s.bits := by
    rw [resizedBits_eq, BitVec.toNat_ofInt, Int.toNat_of_nonneg (Int.emod_nonneg _ (by simp))]
    push_cast
    rfl
  refine (toInt_modEq ⟨s, v.resizedBits s.bits⟩).trans ?_
  rw [hbits]
  exact Int.mod_modEq _ _

theorem eq_of_modEq {a b : Value} (hscalar : a.scalar = b.scalar)
    (h : a.toInt ≡ b.toInt [ZMOD 2 ^ a.scalar.bits]) : a = b := by
  obtain ⟨s, x⟩ := a
  obtain ⟨t, y⟩ := b
  obtain rfl : s = t := hscalar
  have hx := toInt_bounds ⟨s, x⟩
  have hy := toInt_bounds ⟨s, y⟩
  have heq := Scalar.IsWrapped.unique ⟨h, hx.1, hx.2⟩ ⟨Int.ModEq.refl _, hy.1, hy.2⟩
  have hbits : x = y :=
    (ofInt_toInt ⟨s, x⟩).symm.trans ((congrArg _ heq).trans (ofInt_toInt ⟨s, y⟩))
  rw [hbits]

theorem write_of_integer (hv : v.scalar.isFloat = false) (hs : s.isFloat = false)
    (bytes : List UInt8) :
    v.write s bytes =
      if bytes.length < s.size then .error .outOfBytes
      else .ok (s.size, littleEndian s.size (v.resizedBits s.bits).toNat ++
        bytes.drop s.size) := by
  rw [write, encode, bitsAs_of_integer hv hs]
  rfl

theorem read_littleEndian_append (b : BitVec s.bits) (rest : List UInt8) :
    read s (littleEndian s.size b.toNat ++ rest) = .ok ⟨s, b⟩ := by
  have hlength : (littleEndian s.size b.toNat).length = s.size := length_littleEndian ..
  have hroom : (s, 0).2 + (s, 0).1.size ≤ (littleEndian s.size b.toNat ++ rest).length := by
    rw [List.length_append, hlength, Nat.zero_add]
    exact Nat.le_add_right ..
  have hstored : stored (littleEndian s.size b.toNat ++ rest) (s, 0) = ⟨s, b⟩ :=
    stored_eq (List.take_left' hlength) rfl
  exact (read_drop hroom).trans (congrArg Except.ok hstored)

/-- An integer of any kind is stored as one of any kind exactly if there are enough bytes for it.
Only these bytes change, and what is read back from them is the one integer of the kind that is
congruent to it modulo the power of two of the width. -/
theorem read_write_of_integer (hv : v.scalar.isFloat = false) (hs : s.isFloat = false)
    (bytes : List UInt8) :
    ((∃ fault, v.write s bytes = .error fault) ↔ bytes.length < s.bits / 8) ∧
      (s.bits / 8 ≤ bytes.length → ∃ after stored,
        v.write s bytes = .ok (s.bits / 8, after) ∧ after.length = bytes.length ∧
          after.drop (s.bits / 8) = bytes.drop (s.bits / 8) ∧
          read s after = .ok stored ∧ stored.scalar = s ∧
          stored.toInt ≡ v.toInt [ZMOD 2 ^ s.bits] ∧
          ∀ other : Value, other.scalar = s → other.toInt ≡ v.toInt [ZMOD 2 ^ s.bits] →
            other = stored) := by
  rw [Scalar.bits_div_eight, write_of_integer hv hs]
  refine ⟨⟨?_, fun hshort => ⟨.outOfBytes, if_pos hshort⟩⟩, fun hroom => ?_⟩
  · rintro ⟨fault, hfault⟩
    split at hfault
    · assumption
    · cases hfault
  · have hlength : (littleEndian s.size (v.resizedBits s.bits).toNat).length = s.size :=
      length_littleEndian ..
    refine ⟨_, ⟨s, v.resizedBits s.bits⟩, if_neg (Nat.not_lt.2 hroom), ?_, ?_,
      read_littleEndian_append _ _, rfl, toInt_resizedBits_modEq v s, ?_⟩
    · rw [List.length_append, hlength, List.length_drop]
      omega
    · rw [List.drop_left' hlength]
    · rintro other rfl hother
      exact eq_of_modEq rfl (hother.trans (toInt_resizedBits_modEq v other.scalar).symm)

/-- A negative byte as an unsigned word of four bytes, with two bytes behind it, and without room. -/
theorem read_write_of_negative_byte :
    Scalar.isFloat .int8 = false ∧ Scalar.isFloat .uint32 = false ∧
      (ofInt .int8 (-2)).write .uint32 [1, 2, 3, 4, 5, 6] =
        .ok (4, [0xfe, 0xff, 0xff, 0xff, 5, 6]) ∧
      (∃ stored, read .uint32 [0xfe, 0xff, 0xff, 0xff, 5, 6] = .ok stored ∧
        stored.toInt = 4294967294) ∧
      ∃ fault, (ofInt .int8 (-2)).write .uint32 [1, 2, 3] = .error fault := by
  have hv : (ofInt .int8 (-2)).scalar.isFloat = false := rfl
  obtain ⟨-, hroom⟩ := read_write_of_integer hv (rfl : Scalar.isFloat .uint32 = false)
    [1, 2, 3, 4, 5, 6]
  obtain ⟨after, stored, hwrite, -, -, hread, -, -, hunique⟩ := hroom (by decide)
  obtain rfl : ofInt .uint32 4294967294 = stored := hunique _ rfl (by decide)
  have hbytes : (ofInt .int8 (-2)).write .uint32 [1, 2, 3, 4, 5, 6] =
      .ok (4, [0xfe, 0xff, 0xff, 0xff, 5, 6]) := by decide
  obtain ⟨-, rfl⟩ := Prod.mk.inj (Except.ok.inj (hwrite.symm.trans hbytes))
  exact ⟨rfl, rfl, hwrite, ⟨_, hread, by decide⟩,
    (read_write_of_integer hv rfl [1, 2, 3]).1.2 (by decide)⟩

end Value

end GpuScript
