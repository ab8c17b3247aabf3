import GpuScript.Proofs.BoundBuffers

/-!
# Recorded sizes

What data needs is recorded before the data is written, and both reckon with the same elements: the
maximum size becomes the size after the write, if that is more. So it never falls behind the size
while every write is recorded, however many there are.
-/

namespace GpuScript

namespace Buffer

variable {b after : Buffer} {values : List Value} {offset : Nat}

theorem size_of_setData (h : b.setData values offset = .ok after) :
    after.size = max b.size (b.elementsForData values.length offset * b.format.size) := by
  obtain ⟨-, bytes, -, rfl⟩ := setData_eq_ok_iff.1 h
  exact (Nat.mul_max_mul_right ..).symm

theorem maxSize_recordData (b : Buffer) (values : List Value) (offset : Nat) :
    (b.recordData values offset).maxSize =
      max b.maxSize (b.elementsForData values.length offset * b.format.size) := by
  simp only [recordData]
  split
  · next hlt =>
    have hne : b.elementsForData values.length offset * b.format.size ≠ 0 := by omega
    rw [Nat.max_eq_right (Nat.le_of_lt hlt)]
    exact if_neg hne
  · next hle => rw [Nat.max_eq_left (Nat.le_of_not_lt hle)]

theorem setData_recordData (b : Buffer) (values : List Value) (offset : Nat) :
    (b.recordData values offset).setData values offset =
      (b.setData values offset).map fun after =>
        { after with recordedMax := (b.recordData values offset).recordedMax } := by
  rw [recordData_eq]
  simp only [setData_eq]
  have hcount : ∀ n, { b with recordedMax := n }.countAfter values.length offset =
    b.countAfter values.length offset := fun _ => rfl
  have hend : ∀ n, { b with recordedMax := n }.dataEnd values.length offset =
    b.dataEnd values.length offset := fun _ => rfl
  rw [hcount, hend]
  split
  · rfl
  · cases b.format.writeData values offset
      (resizeBytes (b.countAfter values.length offset * b.format.size) b.bytes) <;> rfl

theorem maxSize_of_recorded (hmax : b.size ≤ b.maxSize)
    (h : (b.recordData values offset).setData values offset = .ok after) :
    after.maxSize = max b.maxSize after.size := by
  rw [setData_recordData] at h
  obtain ⟨written, hwritten, rfl⟩ := exists_of_map_eq_ok h
  have hsize := size_of_setData hwritten
  by_cases hraised : b.maxSize < b.elementsForData values.length offset * b.format.size
  · simp only [recordData, if_pos hraised]
    simp only [maxSize, size] at hmax hraised hsize ⊢
    split <;> omega
  · simp only [recordData, if_neg hraised]
    simp only [maxSize, size] at hmax hraised hsize ⊢
    split <;> split at hmax <;> split at hraised <;> omega

/-- What recording announces is what the write brings about: the maximum size becomes the size after
the write, unless it is more already. So a buffer no larger than its maximum size stays so if the
write is recorded before, and its maximum size is never lowered. -/
theorem maxSize_recordData_eq_max (hmax : b.size ≤ b.maxSize)
    (h : b.setData values offset = .ok after) :
    (b.recordData values offset).maxSize = max b.maxSize after.size ∧
    b.maxSize ≤ (b.recordData values offset).maxSize ∧
    ∃ written, (b.recordData values offset).setData values offset = .ok written ∧
      written = { after with recordedMax := written.recordedMax } ∧
      written.maxSize = max b.maxSize after.size ∧ written.size ≤ written.maxSize := by
  have hraised : (b.recordData values offset).maxSize = max b.maxSize after.size := by
    rw [maxSize_recordData, size_of_setData h]
    omega
  have hwrite := setData_recordData b values offset
  rw [h] at hwrite
  have hwritten := maxSize_of_recorded hmax hwrite
  have hbound := Nat.le_max_left b.maxSize after.size
  refine ⟨hraised, hraised ▸ hbound, _, hwrite, rfl, hwritten, ?_⟩
  rw [hwritten]
  exact Nat.le_max_right ..

/-- Four values from inside the first of two padded elements: the whole elements among them need a
third one, and the part behind them fits in it. -/
theorem maxSize_recordData_eq_max_of_padded :
    ∃ b after : Buffer, ∃ values : List Value,
      Format.ofGlslType? "vec3".toList .std430 = some b.format ∧ b.recordedMax = 0 ∧
      b.size = 32 ∧ b.size ≤ b.maxSize ∧ values.length = 4 ∧
      b.setData values 24 = .ok after ∧ after.size = 48 ∧
      (b.recordData values 24).maxSize = max b.maxSize after.size ∧
      b.maxSize ≤ (b.recordData values 24).maxSize ∧
      ∃ written, (b.recordData values 24).setData values 24 = .ok written ∧
        written = { after with recordedMax := written.recordedMax } ∧
        written.maxSize = max b.maxSize after.size ∧ written.size ≤ written.maxSize := by
  let f : Format :=
    { name := none, packedSize := none
      parts := [⟨.r, 32, .sfloat⟩, ⟨.g, 32, .sfloat⟩, ⟨.b, 32, .sfloat⟩]
      segments := List.replicate 3 (.component .sfloat .float32) ++ [.padding 4]
      scalarsOf_ne_nil := by decide }
  let b : Buffer := (ofFormat .storage f).setElementCount 2
  let values : List Value := List.replicate 4 (.ofSingle 0x3f800000#32)
  have hmax : b.size ≤ b.maxSize := by decide
  have hset : ∃ after, b.setData values 24 = .ok after ∧ after.size = 48 := by decide +kernel
  obtain ⟨after, hafter, hsize⟩ := hset
  exact ⟨b, after, values, by decide +kernel, rfl, rfl, hmax, rfl, hafter, hsize,
    maxSize_recordData_eq_max hmax hafter⟩

end Buffer

end GpuScript
