import GpuScript.Proofs.RawCopies
import Mathlib.Order.Bounds.Basic

/-!
# Copied ranges

A raw copy lengthens the bytes to the end of the range that it writes, overwrites the range, and
lengthens them once more to the elements that they start. Whatever the two formats, the range is
there when it is overwritten, so that a copy always ends. It leaves the fewest whole elements that
hold the old bytes and the range, with zeros where neither of them is.
-/

namespace GpuScript

/-- Bytes with those of a range replaced, which must be there and as many as the new ones. -/
def overwriteRange (low high : Nat) (piece bytes : List UInt8) : Except Fault (List UInt8) :=
  if low ≤ high ∧ high ≤ bytes.length ∧ piece.length = high - low then
    .ok (bytes.take low ++ piece ++ bytes.drop high)
  else .error .outOfBytes

theorem overwriteRange_of_room {low : Nat} {piece bytes : List UInt8}
    (hroom : low + piece.length ≤ bytes.length) :
    overwriteRange low (low + piece.length) piece bytes =
      .ok (bytes.take low ++ piece ++ bytes.drop (low + piece.length)) :=
  if_pos ⟨Nat.le_add_right .., hroom, (Nat.add_sub_cancel_left ..).symm⟩

namespace Buffer

variable {target source after other : Buffer} {offset : Nat}

def lengthenTo (last : Nat) : EStateM Fault Buffer Unit := do
  if (← get).bytes.length < last then
    modify fun b => { b with bytes := resizeBytes last b.bytes }

/-- Copies the bytes of a buffer to an offset of the one at hand, step by step. The size of an
element is never zero, so that the elements can be counted. -/
def setBytesInPlace (source : Buffer) (offset : Nat) : EStateM Fault Buffer Unit := do
  let last := offset + source.bytes.length
  lengthenTo last
  let bytes ← ofExcept (overwriteRange offset last source.bytes (← get).bytes)
  modify fun b => { b with bytes := bytes }
  modify fun b => b.setElementCount (b.format.elementsIn b.bytes.length)

theorem run_lengthenTo (last : Nat) (b : Buffer) : (lengthenTo last).run b =
    .ok () { b with bytes := resizeBytes (max b.bytes.length last) b.bytes } := by
  simp only [lengthenTo, EStateM.run_bind, EStateM.run_get]
  rcases Nat.lt_or_ge b.bytes.length last with h | h
  · rw [if_pos h, Nat.max_eq_right (Nat.le_of_lt h)]
    rfl
  · rw [if_neg (Nat.not_lt_of_le h), Nat.max_eq_left h, resizeBytes_self]
    rfl

theorem run_setBytesInPlace (target source : Buffer) (offset : Nat) :
    (setBytesInPlace source offset).run target = .ok () (target.setBytes source offset) := by
  have hroom : offset + source.bytes.length ≤ (resizeBytes (max target.bytes.length
      (offset + source.bytes.length)) target.bytes).length := by
    rw [length_resizeBytes]
    exact Nat.le_max_right ..
  simp only [setBytesInPlace, EStateM.run_bind, run_lengthenTo, EStateM.run_get,
    overwriteRange_of_room hroom]
  rfl

/-- Whether a buffer is what another one becomes when the bytes of a source are copied to it from an
offset on. -/
structure IsCopied (target source : Buffer) (offset : Nat) (after : Buffer) : Prop where
  /-- Nothing but the bytes and the element count changes. -/
  others : after = { target with elementCount := after.elementCount, bytes := after.bytes }
  elements : after.bytes.length = after.elementCount * target.format.size
  length : IsLeast {length | target.format.size ∣ length ∧
    max target.bytes.length (offset + source.bytes.length) ≤ length} after.bytes.length
  copied : ∀ i, offset ≤ i → i < offset + source.bytes.length →
    after.bytes[i]? = source.bytes[i - offset]?
  kept : ∀ i < target.bytes.length, ¬ (offset ≤ i ∧ i < offset + source.bytes.length) →
    after.bytes[i]? = target.bytes[i]?
  added : ∀ i < after.bytes.length, target.bytes.length ≤ i →
    ¬ (offset ≤ i ∧ i < offset + source.bytes.length) → after.bytes[i]? = some 0

theorem isLeast_elementsIn (f : Format) (bytes : Nat) :
    IsLeast {length | f.size ∣ length ∧ bytes ≤ length} (f.elementsIn bytes * f.size) := by
  refine ⟨⟨Nat.dvd_mul_left .., f.le_elementsIn_mul bytes⟩, ?_⟩
  rintro _ ⟨⟨count, rfl⟩, hle⟩
  rw [Nat.mul_comm f.size count] at hle ⊢
  exact Nat.mul_le_mul_right _ (Format.elementsIn_le_iff.2 hle)

theorem isCopied_setBytes (target source : Buffer) (offset : Nat) :
    target.IsCopied source offset (target.setBytes source offset) := by
  have hlength : (target.setBytes source offset).bytes.length =
      (target.setBytes source offset).elementCount * target.format.size :=
    length_setElementCount ..
  have hleast := isLeast_elementsIn target.format
    (max target.bytes.length (offset + source.bytes.length))
  rw [← elementCount_setBytes, ← hlength] at hleast
  have hend := hleast.1.2
  refine ⟨rfl, hlength, hleast, ?_, ?_, ?_⟩
  · intro i hlow hhigh
    rw [getElem?_setBytes (by omega), if_pos ⟨hlow, hhigh⟩]
  · intro i hi hout
    rw [getElem?_setBytes (by omega), if_neg hout, List.getElem?_eq_getElem hi, Option.getD_some]
  · intro i hi hnew hout
    rw [getElem?_setBytes hi, if_neg hout, List.getElem?_eq_none hnew, Option.getD_none]

theorem IsCopied.unique (h : target.IsCopied source offset after)
    (h' : target.IsCopied source offset other) : after = other := by
  have hlength : after.bytes.length = other.bytes.length := h.length.unique h'.length
  have hcount : after.elementCount = other.elementCount := by
    refine Nat.eq_of_mul_eq_mul_right target.format.size_pos ?_
    rw [← h.elements, ← h'.elements, hlength]
  have hbytes : after.bytes = other.bytes := by
    refine List.ext_getElem? fun i => ?_
    rcases Nat.lt_or_ge i after.bytes.length with hi | hi
    · by_cases hin : offset ≤ i ∧ i < offset + source.bytes.length
      · rw [h.copied i hin.1 hin.2, h'.copied i hin.1 hin.2]
      · rcases Nat.lt_or_ge i target.bytes.length with hold | hnew
        · rw [h.kept i hold hin, h'.kept i hold hin]
        · rw [h.added i hi hnew hin, h'.added i (hlength ▸ hi) hnew hin]
    · rw [List.getElem?_eq_none hi, List.getElem?_eq_none (hlength ▸ hi)]
  rw [h.others, h'.others, hcount, hbytes]

/-- The bytes of any buffer are copied to any offset of any other one, of whatever formats, without
a fault. The target has then the fewest whole elements that hold its old bytes and the range, the
bytes of the source in the range, its old ones elsewhere and zeros behind them, which determines
it. -/
theorem setBytes_of_any_offset (target source : Buffer) (offset : Nat) :
    ∃ after, (setBytesInPlace source offset).run target = .ok () after ∧
      target.setBytes source offset = after ∧ target.bytes.length ≤ after.bytes.length ∧
      after.bytes.length = after.size ∧
      ∀ other, target.IsCopied source offset other ↔ other = after := by
  have hcopied := isCopied_setBytes target source offset
  refine ⟨_, run_setBytesInPlace target source offset, rfl, ?_, hcopied.elements, ?_⟩
  · exact Nat.le_trans (Nat.le_max_left ..) hcopied.length.1.2
  · intro other
    constructor
    · exact fun hother => hother.unique hcopied
    · rintro rfl
      exact hcopied

/-- A buffer of one element, copied behind a gap to itself, where it ends inside an element. -/
example : ((byteTriples [1, 2, 3, 4] 1).setBytes (byteTriples [1, 2, 3, 4] 1) 6).bytes =
    [1, 2, 3, 4, 0, 0, 1, 2, 3, 4, 0, 0] := by
  decide

end Buffer

end GpuScript
