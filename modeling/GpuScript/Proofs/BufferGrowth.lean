import GpuScript.Proofs.BindingHistory

/-!
# Growth of bound buffers

A bound buffer is as large as the most that a line about it ever needed. It has a placeholder format
only as long as no data was written, and then it is blank; from the first data on its layout is that
of every line with data. All of this is counted in elements of the format that the buffer ends with.
-/

namespace GpuScript

namespace Buffer

def elementsForLine (b : Buffer) : TestLine → Nat
  | .clear _ => 0
  | .subdata _ _ _ offset values => b.elementsForData values.length offset
  | .size _ _ bytes => b.format.elementsIn bytes

/-- The number of elements that a buffer must have for the line that needs the most room. -/
def elementsForLines (b : Buffer) (lines : List TestLine) : Nat :=
  (lines.map b.elementsForLine).max?.getD 0

/-- Whether a buffer is as large as some lines about it ask for, and no larger. -/
structure Grown (b : Buffer) (lines : List TestLine) : Prop where
  length : b.bytes.length = b.size
  blank : b.formatIsDefault = true → b.format = byteFormat ∧ b.bytes = List.replicate b.size 0
  layout : ∀ (kind : BufferKind) (binding : Binding) (format : Format) (offset : Nat)
    (values : List Value), .subdata kind binding format offset values ∈ lines →
      b.formatIsDefault = false ∧ format.segments = b.format.segments
  upper : ∀ line ∈ lines, b.elementsForLine line ≤ b.elementCount
  attained : b.elementCount = 0 ∨ ∃ line ∈ lines, b.elementsForLine line = b.elementCount

variable {b c ready new : Buffer} {lines : List TestLine}

theorem elementsForLine_congr (h : b.format = c.format) (line : TestLine) :
    b.elementsForLine line = c.elementsForLine line := by
  cases line with
  | clear operation => rfl
  | subdata => exact elementsForData_congr (congrArg Format.segments h) _ _
  | size => simp only [elementsForLine, h]

theorem exists_bytes_of_subdata {values : List Value} {offset : Nat}
    (h : (ready.recordData values offset).setData values offset = .ok new) :
    ∃ bytes, ready.format.writeData values offset (resizeBytes
        (ready.countAfter values.length offset * ready.format.size) ready.bytes) = .ok bytes ∧
      new = { ready with
        recordedMax := (ready.recordData values offset).recordedMax
        elementCount := ready.countAfter values.length offset
        bytes := bytes } := by
  obtain ⟨-, bytes, hbytes, hnew⟩ := setData_eq_ok_iff.1 h
  rw [recordData_eq] at hbytes hnew
  exact ⟨bytes, hbytes, hnew⟩

theorem setElementCount_self (h : b.bytes.length = b.size) :
    b.setElementCount b.elementCount = b := by
  have hbytes : resizeBytes (b.elementCount * b.format.size) b.bytes = b.bytes := by
    rw [← size, ← h, resizeBytes_self]
  rw [setElementCount, hbytes]

theorem ensureSize_eq_setElementCount (h : b.bytes.length = b.size) (bytes : Nat) :
    b.ensureSize bytes =
      .ok (b.setElementCount (max b.elementCount (b.format.elementsIn bytes))) := by
  rw [ensureSize_eq]
  split
  · next hlt => rw [Nat.max_eq_right (Nat.le_of_lt hlt)]
  · next hle => rw [Nat.max_eq_left (Nat.le_of_not_lt hle), setElementCount_self h]

theorem elementsIn_byteFormat (bytes : Nat) : byteFormat.elementsIn bytes = bytes := by
  rw [Format.elementsIn, size_byteFormat]
  omega

namespace Grown

theorem empty (hcount : b.elementCount = 0) (hbytes : b.bytes = [])
    (hblank : b.formatIsDefault = true → b.format = byteFormat) : b.Grown [] := by
  have hsize : b.size = 0 := by rw [size, hcount, Nat.zero_mul]
  refine ⟨by rw [hbytes, hsize, List.length_nil], ?_, by simp, by simp, .inl hcount⟩
  intro hdefault
  exact ⟨hblank hdefault, by rw [hbytes, hsize, List.replicate_zero]⟩

theorem data?_eq_none (h : b.Grown lines) (hdefault : b.formatIsDefault = true) :
    ∀ line ∈ lines, line.data? = none := by
  intro line hline
  cases line with
  | clear | size => rfl
  | subdata kind binding format offset values =>
    have := (h.layout kind binding format offset values hline).1
    rw [hdefault] at this
    cases this

/-- A blank buffer that takes a format takes as many of its elements as each line asks for. -/
theorem settle (h : b.Grown lines) (hdefault : b.formatIsDefault = true) (format : Format) :
    Grown { b.setFormat format with formatIsDefault := false } lines := by
  obtain ⟨hformat, -⟩ := h.blank hdefault
  have hsize : b.size = b.elementCount := by rw [size, hformat, size_byteFormat, Nat.mul_one]
  have hcount : (b.setFormat format).elementCount = format.elementsIn b.elementCount := by
    rw [← hsize, ← h.length]
    rfl
  have hdata := h.data?_eq_none hdefault
  -- So far only sizes were asked for, and an element was a byte.
  refine ⟨length_resizeBytes .., ?_, ?_, ?_, ?_⟩
  · intro hfalse
    cases hfalse
  · intro kind binding other offset values hline
    have := hdata _ hline
    cases this
  · intro line hline
    have hupper := h.upper line hline
    cases line with
    | clear operation => exact Nat.zero_le _
    | subdata =>
      have := hdata _ hline
      cases this
    | size kind binding bytes =>
      rw [elementsForLine, hformat, elementsIn_byteFormat] at hupper
      have hmono := Format.elementsIn_mono (f := format) hupper
      rw [← hcount] at hmono
      exact hmono
  · rcases h.attained with hzero | ⟨line, hline, heq⟩
    · left
      have hnone := format.elementsIn_mul 0
      rw [Nat.zero_mul] at hnone
      exact hcount.trans (hzero ▸ hnone)
    · cases line with
      | clear operation =>
        left
        have hnone := format.elementsIn_mul 0
        rw [Nat.zero_mul] at hnone
        exact hcount.trans (heq ▸ hnone)
      | subdata =>
        have := hdata _ hline
        cases this
      | size kind binding bytes =>
        right
        refine ⟨_, hline, ?_⟩
        rw [elementsForLine, hformat, elementsIn_byteFormat] at heq
        rw [← heq] at hcount
        exact hcount.symm

theorem prepared {kind : BufferKind} {binding : Binding} {format? : Option Format}
    {old? : Option Buffer} (hready : Prepared kind binding format? old? ready)
    (hnone : old? = none → lines = []) (hsome : ∀ b, old? = some b → b.Grown lines) :
    ready.Grown lines := by
  cases hready with
  | fresh format =>
    rw [hnone rfl]
    exact empty rfl rfl fun h => by cases h
  | placeholder =>
    rw [hnone rfl]
    exact empty rfl rfl fun _ => rfl
  | same | matching => exact hsome _ rfl
  | settled b format _ hdefault => exact (hsome b rfl).settle hdefault format

/-- A buffer that takes in a line has grown by what the line asks for. -/
theorem append (h : ready.Grown lines) {line : TestLine} (hformat : new.format = ready.format)
    (hdefault : new.formatIsDefault = ready.formatIsDefault)
    (hcount : new.elementCount = max ready.elementCount (ready.elementsForLine line))
    (hlength : new.bytes.length = new.size)
    (hblank : ready.formatIsDefault = true → new.bytes = List.replicate new.size 0)
    (hlayout : ∀ kind binding format offset values,
      line = .subdata kind binding format offset values →
        ready.formatIsDefault = false ∧ format.segments = ready.format.segments) :
    new.Grown (lines ++ [line]) := by
  have hsame : ∀ line, new.elementsForLine line = ready.elementsForLine line :=
    elementsForLine_congr hformat
  refine ⟨hlength, ?_, ?_, ?_, ?_⟩
  · intro hnew
    rw [hdefault] at hnew
    exact ⟨hformat.trans (h.blank hnew).1, hblank hnew⟩
  · intro kind binding format offset values hmem
    rw [hdefault, hformat]
    rcases List.mem_append.1 hmem with hmem | hmem
    · exact h.layout kind binding format offset values hmem
    · exact hlayout kind binding format offset values (List.mem_singleton.1 hmem).symm
  · intro other hmem
    rw [hsame, hcount]
    rcases List.mem_append.1 hmem with hmem | hmem
    · exact Nat.le_trans (h.upper other hmem) (Nat.le_max_left ..)
    · rw [List.mem_singleton.1 hmem]
      exact Nat.le_max_right ..
  · rcases Nat.le_total ready.elementCount (ready.elementsForLine line) with hle | hle
    · right
      exact ⟨line, by simp, by rw [hsame, hcount, Nat.max_eq_right hle]⟩
    · rw [hcount, Nat.max_eq_left hle]
      rcases h.attained with hzero | ⟨other, hmem, heq⟩
      · exact .inl hzero
      · exact .inr ⟨other, List.mem_append_left _ hmem, by rw [hsame, heq]⟩

theorem elementCount_le (h : b.Grown lines) {count : Nat}
    (hle : ∀ line ∈ lines, b.elementsForLine line ≤ count) : b.elementCount ≤ count := by
  rcases h.attained with hzero | ⟨line, hmem, heq⟩
  · rw [hzero]
    exact Nat.zero_le _
  · rw [← heq]
    exact hle line hmem

/-- A buffer is as large as the line that needs the most room asks for. -/
theorem elementCount_eq (h : b.Grown lines) : b.elementCount = b.elementsForLines lines := by
  apply Nat.le_antisymm
  · exact h.elementCount_le fun line hmem => List.le_max?_getD_of_mem (List.mem_map_of_mem hmem)
  · unfold elementsForLines
    cases hmax : (lines.map b.elementsForLine).max? with
    | none => exact Nat.zero_le _
    | some count =>
      obtain ⟨line, hmem, rfl⟩ := List.mem_map.1 (List.max?_mem hmax)
      exact h.upper line hmem

end Grown

end Buffer

theorem Prepared.formatIsDefault_eq_false {kind : BufferKind} {binding : Binding}
    {format : Format} {old? : Option Buffer} {ready : Buffer}
    (h : Prepared kind binding (some format) old? ready) : ready.formatIsDefault = false := by
  cases h with
  | fresh | settled => rfl
  | matching _ _ _ hdefault => exact hdefault

theorem BoundStep.grown {old? : Option Buffer} {line : TestLine} {new : Buffer}
    {lines : List TestLine} (h : BoundStep old? line new) (hnone : old? = none → lines = [])
    (hsome : ∀ b, old? = some b → b.Grown lines) : new.Grown (lines ++ [line]) := by
  cases h with
  | @subdata kind binding format offset values ready new hready hnew =>
    have hgrown := Buffer.Grown.prepared hready hnone hsome
    have hdefault := hready.formatIsDefault_eq_false
    obtain ⟨bytes, hbytes, rfl⟩ := Buffer.exists_bytes_of_subdata hnew
    refine hgrown.append rfl rfl rfl ?_ ?_ ?_
    · rw [Format.length_of_writeData hbytes, length_resizeBytes]
      rfl
    · intro hblank
      rw [hdefault] at hblank
      cases hblank
    · rintro _ _ _ _ _ ⟨⟩
      exact ⟨hdefault, hready.segments_eq⟩
  | @size kind binding bytes ready new hready hnew =>
    have hgrown := Buffer.Grown.prepared hready hnone hsome
    rw [Buffer.ensureSize_eq_setElementCount hgrown.length] at hnew
    cases hnew
    refine hgrown.append rfl rfl rfl (length_resizeBytes ..) ?_ ?_
    · intro hdefault
      obtain ⟨-, hzeros⟩ := hgrown.blank hdefault
      have hle := Nat.mul_le_mul_right ready.format.size
        (Nat.le_max_left ready.elementCount (ready.format.elementsIn bytes))
      simp only [Buffer.setElementCount, Buffer.size] at hle ⊢
      rw [resizeBytes_of_le (by rw [hgrown.length]; exact hle), hzeros, Buffer.size,
        List.length_replicate, List.replicate_append_replicate, Nat.add_sub_cancel' hle]
    · rintro _ _ _ _ _ ⟨⟩

theorem History.grown {binding : Binding} {b : Buffer} {lines : List TestLine}
    (h : History binding (some b) lines) : b.Grown lines :=
  h.rec_some (motive := Buffer.Grown) fun hold _ _ hstep ih => hstep.grown hold.eq_nil ih

end GpuScript
