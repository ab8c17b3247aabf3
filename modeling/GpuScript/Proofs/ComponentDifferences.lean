import GpuScript.Proofs.BufferCalls
import GpuScript.Proofs.KeptComponents
import Mathlib.Data.Int.ModEq

/-!
# Component differences

Two buffers of one layout and length have a difference for every component, made of the bytes of
that component in the one and in the other. Padding has no part in it. The difference of two
integers is the one number that is congruent to it modulo the power of two of their width and in the
range of their kind, as a double.
-/

namespace GpuScript

theorem toNat_sub_modEq {w : Nat} (x y : BitVec w) :
    ((x - y).toNat : Int) ≡ x.toNat - y.toNat [ZMOD 2 ^ w] := by
  have hy := Nat.le_of_lt y.isLt
  have hsum : ((2 ^ w - y.toNat + x.toNat : Nat) : Int) = x.toNat - y.toNat + 2 ^ w := by
    push_cast [hy]
    omega
  rw [BitVec.toNat_sub, Int.natCast_emod, hsum]
  push_cast
  exact (Int.mod_modEq _ _).trans Int.add_modEq_right

namespace Value

theorem toInt_modEq (v : Value) : v.toInt ≡ v.bits.toNat [ZMOD 2 ^ v.scalar.bits] := by
  unfold toInt
  split
  · have h := Int.bmod_emod (x := v.bits.toNat) (m := 2 ^ v.scalar.bits)
    rw [← BitVec.toInt_eq_toNat_bmod] at h
    exact_mod_cast h
  · exact Int.ModEq.refl _

theorem toInt_bounds (v : Value) :
    minInt v.scalar.isSigned v.scalar.bits ≤ v.toInt ∧
      v.toInt ≤ maxInt v.scalar.isSigned v.scalar.bits := by
  unfold toInt minInt maxInt
  simp only [twoPow, Nat.pow_eq]
  split
  · have hlow := BitVec.le_toInt v.bits
    have hhigh := BitVec.toInt_lt (x := v.bits)
    push_cast
    omega
  · have hlt := v.bits.isLt
    omega

end Value

namespace Scalar

def differenceOfBytes (s : Scalar) (x y : List UInt8) : BitVec 64 :=
  s.difference (BitVec.ofNat s.bits (ofLittleEndian x)) (BitVec.ofNat s.bits (ofLittleEndian y))

/-- Whether a number is the difference of two others as an integer kind has it: in the range of the
kind and congruent to it modulo the power of two of the width. -/
structure IsWrapped (s : Scalar) (difference d : Int) : Prop where
  congruent : d ≡ difference [ZMOD 2 ^ s.bits]
  least : Value.minInt s.isSigned s.bits ≤ d
  greatest : d ≤ Value.maxInt s.isSigned s.bits

/-- The range of a kind has one number for each remainder. -/
theorem IsWrapped.unique {s : Scalar} {difference d e : Int} (hd : s.IsWrapped difference d)
    (he : s.IsWrapped difference e) : d = e := by
  have hdvd := (hd.congruent.trans he.congruent.symm).dvd
  have hspan : Value.maxInt s.isSigned s.bits - Value.minInt s.isSigned s.bits <
      2 ^ s.bits := by
    cases s <;> decide
  have hdleast := hd.least
  have hdgreatest := hd.greatest
  have heleast := he.least
  have hegreatest := he.greatest
  have hzero := Int.eq_zero_of_abs_lt_dvd hdvd (abs_lt.2 ⟨by omega, by omega⟩)
  omega

theorem exists_difference_of_integer {s : Scalar} (hs : s.isFloat = false) (x y : BitVec s.bits) :
    ∃ d, s.difference x y = FloatFormat.double.ofInt d ∧
      s.IsWrapped ((x.toNat : Int) - y.toNat) d := by
  have hrange := Value.toInt_bounds ⟨s, x - y⟩
  refine ⟨Value.toInt ⟨s, x - y⟩, ?_, ?_, hrange.1, hrange.2⟩
  · cases s with
    | float16 | float32 | float64 => cases hs
    | _ => rfl
  · exact (Value.toInt_modEq ⟨s, x - y⟩).trans (toNat_sub_modEq x y)

theorem exists_differenceOfBytes_of_integer {s : Scalar} (hs : s.isFloat = false)
    (x y : List UInt8) :
    ∃ n, s.differenceOfBytes x y = FloatFormat.double.ofInt n ∧
      s.IsWrapped ((ofLittleEndian x : Int) - ofLittleEndian y) n := by
  have hbits : ∀ bytes : List UInt8, ((BitVec.ofNat s.bits (ofLittleEndian bytes)).toNat : Int) ≡
      ofLittleEndian bytes [ZMOD 2 ^ s.bits] := by
    intro bytes
    rw [BitVec.toNat_ofNat]
    push_cast
    exact Int.mod_modEq _ _
  obtain ⟨n, hn, hwrapped⟩ := exists_difference_of_integer hs
    (BitVec.ofNat s.bits (ofLittleEndian x)) (BitVec.ofNat s.bits (ofLittleEndian y))
  exact ⟨n, hn, hwrapped.congruent.trans ((hbits x).sub (hbits y)), hwrapped.least,
    hwrapped.greatest⟩

end Scalar

namespace Buffer

variable {a b c d : Buffer} {diffs : List (BitVec 64)} {k : Nat}

def componentBytes (b : Buffer) (k : Nat) : List UInt8 :=
  bytesFrom (b.format.placeAt 0 k).2 (b.format.placeAt 0 k).1.size b.bytes

/-- Whether a buffer is another one with other bytes in the padding of its elements. -/
structure DiffersInPadding (a c : Buffer) : Prop where
  others : c = { a with bytes := c.bytes }
  length : c.bytes.length = a.bytes.length
  bytes : ∀ i, isPaddingAt a.format.segments (i % a.format.size) = false →
    c.bytes[i]? = a.bytes[i]?

namespace DiffersInPadding

theorem format_eq (h : a.DiffersInPadding c) : c.format = a.format := by rw [h.others]

theorem elementCount_eq (h : a.DiffersInPadding c) : c.elementCount = a.elementCount := by
  rw [h.others]

theorem valueCount_eq (h : a.DiffersInPadding c) : c.valueCount = a.valueCount := by
  rw [valueCount, valueCount, h.format_eq, h.elementCount_eq]

theorem size_eq (h : a.DiffersInPadding c) : c.size = a.size := by
  rw [size, size, h.format_eq, h.elementCount_eq]

/-- What stands at the components of a buffer does not depend on its padding. -/
theorem componentBytes_eq (h : a.DiffersInPadding c) (hlength : a.bytes.length = a.size)
    (hk : k < a.valueCount) : c.componentBytes k = a.componentBytes k := by
  have hplace := (a.format.getElem?_components 0 a.elementCount k).trans (if_pos hk)
  have hmem := List.mem_of_getElem? hplace
  have hend := place_end_le hlength _ hmem
  rw [componentBytes, componentBytes, h.format_eq]
  refine bytesFrom_congr fun i hlow hhigh => h.bytes i ?_
  have hinside : i < a.elementCount * a.format.size := by
    rw [← size, ← hlength]
    exact Nat.lt_of_lt_of_le hhigh hend
  rw [Format.isPaddingAt_eq_false_iff_exists 0 hinside, Nat.zero_add]
  exact ⟨_, hmem, hlow, hhigh⟩

end DiffersInPadding

theorem valueCount_eq_of_length (hlayout : a.format.sameLayout b.format = true)
    (hbytes : a.bytes.length = b.bytes.length) (ha : a.bytes.length = a.size)
    (hb : b.bytes.length = b.size) : a.valueCount = b.valueCount := by
  have hsegments := Format.segments_eq_of_sameLayout hlayout
  rw [ha, hb, size, size, ← Format.size_congr hsegments] at hbytes
  rw [valueCount, valueCount, Nat.eq_of_mul_eq_mul_right a.format.size_pos hbytes,
    Format.valuesPerElement_congr hsegments]

theorem exists_differences (hlayout : a.format.sameLayout b.format = true)
    (hbytes : a.bytes.length = b.bytes.length) (ha : a.bytes.length = a.size) :
    ∃ diffs, a.differences b = .ok diffs ∧ diffs.length = a.valueCount ∧
      ∀ k < a.valueCount, diffs[k]? = some ((a.format.scalarAt k).differenceOfBytes
        (a.componentBytes k) (b.componentBytes k)) := by
  have hplaces := Format.placeAt_congr (Format.segments_eq_of_sameLayout hlayout) 0
  refine ⟨_, differences_eq ha hlayout hbytes, ?_, ?_⟩
  · rw [List.length_map, Format.length_components]
    rfl
  · intro k hk
    have hcomponent := (a.format.getElem?_components 0 a.elementCount k).trans (if_pos hk)
    rw [List.getElem?_map, hcomponent, Option.map_some, ← Format.fst_placeAt 0 k, componentBytes,
      componentBytes, ← hplaces]
    rfl

/-- Buffers of one layout and length, with the bytes of their elements, have a difference for each
component, made of the bytes of the component alone: other padding gives the same differences. That
of an integer component is the wrapped difference of the integers, as a double. -/
theorem differences_of_components (hlayout : a.format.sameLayout b.format = true)
    (hbytes : a.bytes.length = b.bytes.length) (ha : a.bytes.length = a.size)
    (hb : b.bytes.length = b.size) :
    ∃ diffs, a.differences b = .ok diffs ∧ diffs.length = a.valueCount ∧
      (∀ k < a.valueCount, diffs[k]? = some ((a.format.scalarAt k).differenceOfBytes
        (a.componentBytes k) (b.componentBytes k))) ∧
      (∀ c d : Buffer, a.DiffersInPadding c → b.DiffersInPadding d →
        c.differences d = .ok diffs) ∧
      ∀ k < a.valueCount, (a.format.scalarAt k).isFloat = false →
        ∃ n, diffs[k]? = some (FloatFormat.double.ofInt n) ∧
          (a.format.scalarAt k).IsWrapped ((ofLittleEndian (a.componentBytes k) : Int) -
            ofLittleEndian (b.componentBytes k)) n := by
  obtain ⟨diffs, hdiffs, hlength, hentries⟩ := exists_differences hlayout hbytes ha
  refine ⟨diffs, hdiffs, hlength, hentries, ?padding, ?integers⟩
  case padding =>
    intro c d hc hd
    have hcount := valueCount_eq_of_length hlayout hbytes ha hb
    obtain ⟨others, hothers, hlengthOthers, hentriesOthers⟩ := exists_differences (a := c) (b := d)
      (by rwa [hc.format_eq, hd.format_eq]) (by rw [hc.length, hd.length, hbytes])
      (by rw [hc.length, ha, hc.size_eq])
    rw [hc.valueCount_eq] at hlengthOthers hentriesOthers
    rw [hothers]
    refine congrArg Except.ok (List.ext_getElem? fun k => ?_)
    rcases Nat.lt_or_ge k a.valueCount with hk | hk
    · rw [hentriesOthers k hk, hentries k hk, hc.format_eq, hc.componentBytes_eq ha hk,
        hd.componentBytes_eq hb (hcount ▸ hk)]
    · rw [List.getElem?_eq_none (hlengthOthers ▸ hk), List.getElem?_eq_none (hlength ▸ hk)]
  case integers =>
    intro k hk hinteger
    obtain ⟨n, hn, hwrapped⟩ := Scalar.exists_differenceOfBytes_of_integer hinteger
      (a.componentBytes k) (b.componentBytes k)
    exact ⟨n, hn ▸ hentries k hk, hwrapped⟩

/-- Two elements of three signed bytes and one of padding: the least byte less one is the greatest
one, and other padding makes no difference. -/
theorem differences_of_components_wrapped :
    ∃ a b c : Buffer, Format.ofGlslType? "i8vec3".toList .std430 = some a.format ∧
      a.bytes = [128, 5, 3, 9, 0, 1, 2, 9] ∧ b = { a with bytes := [1, 3, 5, 7, 255, 1, 127, 7] } ∧
      c = { a with bytes := [128, 5, 3, 0, 0, 1, 2, 1] } ∧
      a.format.sameLayout b.format = true ∧ a.bytes.length = b.bytes.length ∧
      a.bytes.length = a.size ∧ b.bytes.length = b.size ∧
      ∃ diffs, a.differences b = .ok diffs ∧ diffs.length = 6 ∧ c.differences b = .ok diffs ∧
        diffs[0]? = some (FloatFormat.double.ofInt 127) ∧
        diffs[2]? = some (FloatFormat.double.ofInt (-2)) := by
  let a := byteTriples [128, 5, 3, 9, 0, 1, 2, 9] 2
  let b := byteTriples [1, 3, 5, 7, 255, 1, 127, 7] 2
  let c := byteTriples [128, 5, 3, 0, 0, 1, 2, 1] 2
  have hlayout : a.format.sameLayout b.format = true := by decide
  have hbytes : a.bytes.length = b.bytes.length := rfl
  have ha : a.bytes.length = a.size := by decide
  have hb : b.bytes.length = b.size := by decide
  obtain ⟨diffs, hdiffs, hlength, -, hpadding, hintegers⟩ :=
    differences_of_components hlayout hbytes ha hb
  have hc : a.DiffersInPadding c := by
    refine ⟨rfl, rfl, fun i hi => ?_⟩
    rcases Nat.lt_or_ge i 8 with hinside | hbehind
    · revert hi
      exact (by decide : ∀ i < 8, isPaddingAt a.format.segments (i % a.format.size) = false →
        c.bytes[i]? = a.bytes[i]?) i hinside
    · rw [List.getElem?_eq_none (l := c.bytes) hbehind,
        List.getElem?_eq_none (l := a.bytes) hbehind]
  obtain ⟨m, hm, hfirst⟩ := hintegers 0 (by decide) (by decide)
  obtain ⟨n, hn, hthird⟩ := hintegers 2 (by decide) (by decide)
  obtain rfl : m = 127 := hfirst.unique ⟨by decide, by decide, by decide⟩
  obtain rfl : n = -2 := hthird.unique ⟨by decide, by decide, by decide⟩
  exact ⟨a, b, c, by decide +kernel, rfl, rfl, rfl, hlayout, hbytes, ha, hb, diffs, hdiffs, hlength,
    hpadding c b hc ⟨rfl, rfl, fun _ _ => rfl⟩, hm, hn⟩

end Buffer

end GpuScript
