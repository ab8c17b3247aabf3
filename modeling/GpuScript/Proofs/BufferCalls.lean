import GpuScript.BufferComparison
import GpuScript.Proofs.StoredBytes
import GpuScript.Settings

/-!
# Calls on buffers

Buffers that start empty and are then changed by calls, in any order and also from one another,
always have the bytes of their elements and no others. So they can be read in full, and buffers of
one shape have equally many bytes.
-/

namespace GpuScript

/-- A call that changes one buffer of a table, perhaps from another one, which is given by its
index. -/
inductive BufferCall
  | setFormat (format : Format)
  | setFormatIsDefault (isDefault : Bool)
  | setValueCount (count : Nat)
  | setElementCount (count : Nat)
  | setSize (bytes : Nat)
  | setMaxSize (bytes : Nat)
  | recordData (values : List Value) (offset : Nat)
  | setWidth (width : Nat)
  | setHeight (height : Nat)
  | setLocation (location : Nat)
  | setBinding (binding : Binding)
  | setData (values : List Value) (offset : Nat)
  | setBytes (source offset : Nat)
  | copyFrom (source : Nat)

/-- The buffer at an index that a call is bound to have right. -/
def calledAt (buffers : List Buffer) (index : Nat) : Except Fault Buffer :=
  match buffers[index]? with
  | some buffer => .ok buffer
  | none => .error (.missingBuffer index)

namespace BufferCall

/-- What a call makes of a buffer among others. -/
def apply (buffers : List Buffer) (b : Buffer) :
    BufferCall → Except (Failure BufferError) Buffer
  | setFormat format => .ok (b.setFormat format)
  | setFormatIsDefault isDefault => .ok { b with formatIsDefault := isDefault }
  | setValueCount count => .ok (b.setValueCount count)
  | setElementCount count => .ok (b.setElementCount count)
  | setSize bytes => orFault (b.setSize bytes)
  | setMaxSize bytes => .ok { b with recordedMax := bytes }
  | recordData values offset => .ok (b.recordData values offset)
  | setWidth width => .ok { b with width := width }
  | setHeight height => .ok { b with height := height }
  | setLocation location => .ok { b with location := some location }
  | setBinding binding => .ok { b with binding := some binding }
  | setData values offset => b.setData values offset
  | setBytes source offset => (orFault (calledAt buffers source)).map fun other =>
    b.setBytes other offset
  | copyFrom source => do
    match (← orFault (calledAt buffers source)).copyTo b with
    | .ok new => .ok new
    | .error cause => refuse cause

/-- The table after a call on the buffer at an index. A call that is refused changes nothing. -/
def run (call : BufferCall) (target : Nat) (buffers : List Buffer) :
    Except Fault (List Buffer) := do
  match call.apply buffers (← calledAt buffers target) with
  | .ok new => .ok (buffers.set target new)
  | .error (.error _) => .ok buffers
  | .error (.fault fault) => .error fault

end BufferCall

/-- The table after some calls in order, each on the buffer at an index. -/
def runCalls : List (Nat × BufferCall) → List Buffer → Except Fault (List Buffer)
  | [], buffers => .ok buffers
  | (target, call) :: rest, buffers => do runCalls rest (← call.run target buffers)

namespace Buffer

variable {a b new : Buffer}

theorem length_setElementCount (b : Buffer) (count : Nat) :
    (b.setElementCount count).bytes.length = (b.setElementCount count).size :=
  length_resizeBytes ..

theorem length_setSize {bytes : Nat} (h : b.setSize bytes = .ok new) :
    new.bytes.length = new.size := by
  unfold setSize at h
  split at h
  · cases h
    exact length_setElementCount ..
  · cases h

theorem length_recordData (hb : b.bytes.length = b.size) (values : List Value) (offset : Nat) :
    (b.recordData values offset).bytes.length = (b.recordData values offset).size := by
  simp only [recordData]
  split
  · exact hb
  · exact hb

theorem length_setData {values : List Value} {offset : Nat}
    (h : b.setData values offset = .ok new) : new.bytes.length = new.size := by
  obtain ⟨-, bytes, hbytes, rfl⟩ := setData_eq_ok_iff.1 h
  exact (Format.length_of_writeData hbytes).trans (length_resizeBytes ..)

theorem copyTo_eq_ok_iff : a.copyTo b = .ok new ↔
    b.format.sameLayout a.format = true ∧ b.width = a.width ∧ b.height = a.height ∧
      b.elementCount = a.elementCount ∧ { b with bytes := a.bytes } = new := by
  unfold copyTo
  grind

theorem length_copyTo (ha : a.bytes.length = a.size) (h : a.copyTo b = .ok new) :
    new.bytes.length = new.size := by
  obtain ⟨hlayout, -, -, hcount, rfl⟩ := copyTo_eq_ok_iff.1 h
  have hsize := Format.size_congr (Format.segments_eq_of_sameLayout hlayout)
  simp only [size] at ha ⊢
  rw [ha, hsize, hcount]

end Buffer

variable {buffers new : List Buffer}

theorem calledAt_eq_ok_iff {index : Nat} {b : Buffer} :
    calledAt buffers index = .ok b ↔ buffers[index]? = some b := by
  unfold calledAt
  split <;> simp_all

namespace BufferCall

theorem length_of_apply {call : BufferCall} {b c : Buffer}
    (hbuffers : ∀ b ∈ buffers, b.bytes.length = b.size) (hb : b.bytes.length = b.size)
    (h : call.apply buffers b = .ok c) : c.bytes.length = c.size := by
  cases call with
  | setFormat | setValueCount | setElementCount =>
    cases h
    exact Buffer.length_setElementCount ..
  | setFormatIsDefault | setMaxSize | setWidth | setHeight | setLocation | setBinding =>
    cases h
    exact hb
  | setSize bytes => exact Buffer.length_setSize (orFault_eq_ok_iff.1 h)
  | recordData values offset =>
    cases h
    exact Buffer.length_recordData hb values offset
  | setData values offset => exact Buffer.length_setData h
  | setBytes source offset =>
    obtain ⟨other, -, rfl⟩ := exists_of_map_eq_ok h
    exact Buffer.length_setElementCount ..
  | copyFrom source =>
    obtain ⟨other, hother, h⟩ := exists_of_bind_eq_ok h
    have hmem := List.mem_of_getElem? (calledAt_eq_ok_iff.1 (orFault_eq_ok_iff.1 hother))
    cases hcopy : other.copyTo b with
    | ok copied =>
      rw [hcopy] at h
      cases h
      exact Buffer.length_copyTo (hbuffers other hmem) hcopy
    | error cause =>
      rw [hcopy] at h
      cases h

theorem length_of_run {call : BufferCall} {target : Nat}
    (hbuffers : ∀ b ∈ buffers, b.bytes.length = b.size) (h : call.run target buffers = .ok new) :
    ∀ b ∈ new, b.bytes.length = b.size := by
  obtain ⟨b, hb, h⟩ := exists_of_bind_eq_ok h
  have hmem := List.mem_of_getElem? (calledAt_eq_ok_iff.1 hb)
  split at h
  · next c hc =>
    cases h
    intro d hd
    rcases List.mem_or_eq_of_mem_set hd with hd | rfl
    · exact hbuffers d hd
    · exact length_of_apply hbuffers (hbuffers b hmem) hc
  · cases h
    exact hbuffers
  · cases h

end BufferCall

theorem length_of_runCalls {calls : List (Nat × BufferCall)}
    (hbuffers : ∀ b ∈ buffers, b.bytes.length = b.size) (h : runCalls calls buffers = .ok new) :
    ∀ b ∈ new, b.bytes.length = b.size := by
  induction calls generalizing buffers with
  | nil =>
    cases h
    exact hbuffers
  | cons call rest ih =>
    obtain ⟨mid, hmid, hrest⟩ := exists_of_bind_eq_ok h
    exact ih (BufferCall.length_of_run hbuffers hmid) hrest

namespace Buffer

variable {a b : Buffer}

theorem checkShape_eq_ok_iff : a.checkShape b = .ok () ↔
    a.format.sameLayout b.format = true ∧ a.elementCount = b.elementCount ∧
      a.width = b.width ∧ a.height = b.height := by
  unfold checkShape
  grind

theorem checkShape_ne_differentValueCount : a.checkShape b ≠ .error .differentValueCount := by
  unfold checkShape
  grind

theorem length_eq_of_checkShape (ha : a.bytes.length = a.size) (hb : b.bytes.length = b.size)
    (h : a.checkShape b = .ok ()) : a.bytes.length = b.bytes.length := by
  obtain ⟨hlayout, hcount, -, -⟩ := checkShape_eq_ok_iff.1 h
  rw [ha, hb, size, size, hcount, Format.size_congr (Format.segments_eq_of_sameLayout hlayout)]

theorem valueCount_eq_of_checkShape (h : a.checkShape b = .ok ()) :
    a.valueCount = b.valueCount := by
  obtain ⟨hlayout, hcount, -, -⟩ := checkShape_eq_ok_iff.1 h
  rw [valueCount, valueCount, hcount,
    Format.valuesPerElement_congr (Format.segments_eq_of_sameLayout hlayout)]

theorem checkEqual_ne_differentValueCount (ha : a.bytes.length = a.size)
    (hb : b.bytes.length = b.size) : a.checkEqual b ≠ .error .differentValueCount := by
  unfold checkEqual
  cases hshape : a.checkShape b with
  | error cause =>
    intro h
    exact checkShape_ne_differentValueCount (hshape.trans h)
  | ok _ =>
    have hlength := length_eq_of_checkShape ha hb hshape
    simp only [bind, Except.bind, if_neg (not_not_intro hlength)]
    split <;> simp

theorem differences_eq (ha : a.bytes.length = a.size)
    (hlayout : a.format.sameLayout b.format = true) (hlength : a.bytes.length = b.bytes.length) :
    a.differences b = .ok ((a.format.components 0 a.elementCount).map fun place =>
      place.1.difference (Value.stored a.bytes place).bits (Value.stored b.bytes place).bits) := by
  rw [differences, if_pos ⟨hlayout, hlength⟩]
  refine mapM_eq_ok_iff.2 (List.forall₂_map_right_iff.2 (List.forall₂_same.2 ?_))
  intro place hplace
  have hend := place_end_le ha place hplace
  dsimp only
  rw [Value.scalar_read_drop hend, Value.scalar_read_drop (hlength ▸ hend)]
  rfl

/-- Comparing within a tolerance ends, and never for a different number of values. -/
theorem ensures_checkTolerance (ha : a.bytes.length = a.size) (hb : b.bytes.length = b.size)
    (tolerance : BitVec 32) :
    Ensures (· ≠ .differentValueCount) (fun _ => True) (a.checkTolerance b tolerance) := by
  unfold checkTolerance
  cases hshape : a.checkShape b with
  | error cause =>
    rintro rfl
    exact checkShape_ne_differentValueCount hshape
  | ok _ =>
    obtain ⟨hlayout, -, -, -⟩ := checkShape_eq_ok_iff.1 hshape
    have hdifferences := differences_eq ha hlayout (length_eq_of_checkShape ha hb hshape)
    dsimp only
    rw [if_neg (not_not_intro (valueCount_eq_of_checkShape hshape)), hdifferences]
    refine .bind_of_eq_ok rfl ?_
    split
    · trivial
    · split
      · exact BufferError.noConfusion
      · trivial

end Buffer

/-- Whatever calls are made on new buffers, each buffer has the bytes of its elements, is read to
its count of values, and compares with any other without a fault and never as one of a different
number of values. -/
theorem Buffer.length_bytes_of_runCalls (made : List (BufferKind × Format))
    (calls : List (Nat × BufferCall)) {buffers : List Buffer}
    (hrun : runCalls calls (made.map fun p => Buffer.ofFormat p.1 p.2) = .ok buffers) :
    ∀ b ∈ buffers,
      b.bytes.length = b.elementCount * b.format.size ∧
      b.elementCount * b.format.size = b.size ∧
      (∃ values, b.values = .ok values ∧ values.length = b.valueCount) ∧
      ∀ c ∈ buffers, b.checkEqual c ≠ .error .differentValueCount ∧
        ∀ tolerance, Ensures (· ≠ .differentValueCount) (fun _ => True)
          (b.checkTolerance c tolerance) := by
  have hmade : ∀ b ∈ made.map fun p => Buffer.ofFormat p.1 p.2, b.bytes.length = b.size := by
    intro b hb
    obtain ⟨p, -, rfl⟩ := List.mem_map.1 hb
    exact (Nat.zero_mul p.2.size).symm
  have hlength := length_of_runCalls hmade hrun
  intro b hb
  refine ⟨hlength b hb, rfl, ⟨_, Buffer.values_eq (hlength b hb), ?_⟩, ?_⟩
  · rw [List.length_map, Format.length_components]
    rfl
  · intro c hc
    exact ⟨Buffer.checkEqual_ne_differentValueCount (hlength b hb) (hlength c hc),
      Buffer.ensures_checkTolerance (hlength b hb) (hlength c hc)⟩

/-- Raw bytes that end inside an element, data that is refused, another format and a copy. -/
theorem Buffer.length_bytes_of_raw_copies :
    ∃ pixel, Format.named "R8G8B8_UINT" = .ok pixel ∧ ∃ word, Format.named "R16_UINT" = .ok word ∧
      ∃ buffers, runCalls
          [(1, .setData [.ofInt .uint16 513, .ofInt .uint16 1027] 0), (0, .setBytes 1 1),
            (0, .setData [.ofInt .uint8 5] 7), (1, .setFormat pixel), (1, .copyFrom 0)]
          ([(.storage, pixel), (.uniform, word)].map fun p => Buffer.ofFormat p.1 p.2) =
            .ok buffers ∧
        buffers.map Buffer.bytes = [[0, 1, 2, 3, 4, 0], [0, 1, 2, 3, 4, 0]] ∧
        ∀ b ∈ buffers,
          b.bytes.length = b.elementCount * b.format.size ∧
          b.elementCount * b.format.size = b.size ∧
          (∃ values, b.values = .ok values ∧ values.length = b.valueCount) ∧
          ∀ c ∈ buffers, b.checkEqual c ≠ .error .differentValueCount ∧
            ∀ tolerance, Ensures (· ≠ .differentValueCount) (fun _ => True)
              (b.checkTolerance c tolerance) := by
  have hrun : ∃ pixel, Format.named "R8G8B8_UINT" = .ok pixel ∧
      ∃ word, Format.named "R16_UINT" = .ok word ∧ ∃ buffers, runCalls
          [(1, .setData [.ofInt .uint16 513, .ofInt .uint16 1027] 0), (0, .setBytes 1 1),
            (0, .setData [.ofInt .uint8 5] 7), (1, .setFormat pixel), (1, .copyFrom 0)]
          ([(.storage, pixel), (.uniform, word)].map fun p => Buffer.ofFormat p.1 p.2) =
            .ok buffers ∧
        buffers.map Buffer.bytes = [[0, 1, 2, 3, 4, 0], [0, 1, 2, 3, 4, 0]] := by
    decide +kernel
  obtain ⟨pixel, hpixel, word, hword, buffers, hrun, hbytes⟩ := hrun
  exact ⟨pixel, hpixel, word, hword, buffers, hrun, hbytes,
    Buffer.length_bytes_of_runCalls [(.storage, pixel), (.uniform, word)] _ hrun⟩

end GpuScript
