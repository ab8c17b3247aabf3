import GpuScript.Proofs.BufferGrowth
import GpuScript.Proofs.LoadingRun

/-!
# Replaying data

The bytes of a bound buffer are what its commands write to a blank buffer of the same format that
has the final size from the start. While a script is loaded the buffer is shorter, and every step on
it is followed on the longer buffer: one is the other completed with zeros.
-/

namespace GpuScript

namespace Buffer

/-- The buffer with some data written to it in order. -/
def replay : List (Nat × List Value) → Buffer → Except (Failure BufferError) Buffer
  | [], b => .ok b
  | (offset, values) :: rest, b => do replay rest (← b.setData values offset)

/-- Whether a buffer is another one completed with zeros to a number of elements. -/
structure PaddedTo (b : Buffer) (count : Nat) (padded : Buffer) : Prop where
  format : padded.format = b.format
  elementCount : padded.elementCount = count
  bytes : padded.bytes = resizeBytes (count * b.format.size) b.bytes

variable {b c ready padded : Buffer} {count : Nat} {lines : List TestLine}

theorem replay_append (writes more : List (Nat × List Value)) (b : Buffer) :
    b.replay (writes ++ more) = b.replay writes >>= fun c => c.replay more := by
  induction writes generalizing b with
  | nil => rfl
  | cons write rest ih =>
    obtain ⟨offset, values⟩ := write
    simp only [List.cons_append, replay, bind_assoc]
    exact bind_congr fun c => ih c

theorem replay_singleton (offset : Nat) (values : List Value) (b : Buffer) :
    b.replay [(offset, values)] = b.setData values offset := by
  simp only [replay]
  exact bind_pure _

theorem PaddedTo.setData (h : b.PaddedTo count padded) (hlength : b.bytes.length = b.size)
    {values : List Value} {offset : Nat} (hc : b.setData values offset = .ok c)
    (hle : c.elementCount ≤ count) :
    ∃ written, padded.setData values offset = .ok written ∧ c.PaddedTo count written := by
  obtain ⟨hend, bytes, hbytes, rfl⟩ := setData_eq_ok_iff.1 hc
  have hle : b.countAfter values.length offset ≤ count := hle
  have hsegments : padded.format.segments = b.format.segments :=
    congrArg Format.segments h.format
  have hafter : padded.countAfter values.length offset = count := by
    rw [countAfter, h.elementCount, elementsForData_congr hsegments]
    exact Nat.max_eq_left (Nat.le_trans (Nat.le_max_right ..) hle)
  have hmul := Nat.mul_le_mul_right b.format.size hle
  have hold : b.bytes.length ≤ b.countAfter values.length offset * b.format.size := by
    rw [hlength]
    exact Nat.mul_le_mul_right _ (Nat.le_max_left ..)
  -- The zeros that complete the buffer lie behind all that is written.
  have hwritten := Format.writeData_append_zeros hbytes
    (count * b.format.size - b.countAfter values.length offset * b.format.size)
  rw [← resizeBytes_append_zeros hold hmul] at hwritten
  have hout : resizeBytes (count * b.format.size) bytes = bytes ++ List.replicate
      (count * b.format.size - b.countAfter values.length offset * b.format.size) 0 := by
    have hlen := Format.length_of_writeData hbytes
    rw [length_resizeBytes] at hlen
    rw [resizeBytes_of_le (by rw [hlen]; exact hmul), hlen]
  rw [← hout] at hwritten
  refine ⟨_, setData_eq_ok_iff.2 ⟨?_, _, ?_, rfl⟩, h.format, hafter, rfl⟩
  · rw [hafter, h.format, dataEnd_congr hsegments]
    exact Nat.le_trans hend hmul
  · rw [hafter, h.format, h.bytes, resizeBytes_resizeBytes (Nat.le_trans hold hmul) (Nat.le_refl _)]
    exact hwritten

/-- Whether the data of some lines, written to a blank buffer of the same format that is at least as
large, gives the buffer completed with zeros. -/
def Replays (b : Buffer) (lines : List TestLine) : Prop :=
  ∀ count, b.elementCount ≤ count → ∃ r,
    ((ofFormat b.kind b.format).setElementCount count).replay (lines.filterMap TestLine.data?) =
      .ok r ∧ b.PaddedTo count r

namespace Replays

theorem of_blank (hdata : lines.filterMap TestLine.data? = []) {n : Nat}
    (hblank : b.bytes = List.replicate n 0) (hn : n ≤ b.size) : b.Replays lines := by
  intro count hcount
  rw [hdata]
  refine ⟨_, rfl, rfl, rfl, ?_⟩
  have hle : n ≤ count * b.format.size :=
    Nat.le_trans hn (Nat.mul_le_mul_right b.format.size hcount)
  rw [hblank, resizeBytes_of_le (by simpa using hle), List.length_replicate,
    List.replicate_append_replicate, Nat.add_sub_cancel' hle]
  exact resizeBytes_nil _

theorem prepared {kind : BufferKind} {binding : Binding} {format? : Option Format}
    {old? : Option Buffer} (hready : Prepared kind binding format? old? ready)
    (hnone : old? = none → lines = [])
    (hsome : ∀ b, old? = some b → b.Grown lines ∧ b.Replays lines) : ready.Replays lines := by
  cases hready with
  | fresh | placeholder =>
    rw [hnone rfl]
    exact of_blank rfl List.replicate_zero.symm (Nat.zero_le _)
  | same | matching => exact (hsome _ rfl).2
  | settled b format _ hdefault =>
    obtain ⟨hgrown, -⟩ := hsome b rfl
    have hbytes := (hgrown.blank hdefault).2
    have hdata : lines.filterMap TestLine.data? = [] :=
      List.filterMap_eq_nil_iff.2 (hgrown.data?_eq_none hdefault)
    have hle := format.le_elementsIn_mul b.bytes.length
    refine of_blank hdata (n := format.elementsIn b.bytes.length * format.size) ?_ (Nat.le_refl _)
    change resizeBytes (format.elementsIn b.bytes.length * format.size) b.bytes = _
    rw [resizeBytes_of_le hle]
    rw [hgrown.length] at hle ⊢
    rw [hbytes, List.replicate_append_replicate, Nat.add_sub_cancel' hle]

end Replays

end Buffer

theorem BoundStep.replays {old? : Option Buffer} {line : TestLine} {new : Buffer}
    {lines : List TestLine} (h : BoundStep old? line new) (hnone : old? = none → lines = [])
    (hsome : ∀ b, old? = some b → b.Grown lines ∧ b.Replays lines) :
    new.Replays (lines ++ [line]) := by
  cases h with
  | @subdata kind binding format offset values ready new hready hnew =>
    have hlength := (Buffer.Grown.prepared hready hnone fun b hb => (hsome b hb).1).length
    have hreplays := Buffer.Replays.prepared hready hnone hsome
    obtain ⟨bytes, hbytes, heq⟩ := Buffer.exists_bytes_of_subdata hnew
    have hformat : new.format = ready.format := by rw [heq]
    have hkind : new.kind = ready.kind := by rw [heq]
    have hcount : ready.elementCount ≤ new.elementCount := by
      rw [heq]
      exact Nat.le_max_left ..
    intro count hle
    obtain ⟨r, hr, hpadded⟩ := hreplays count (Nat.le_trans hcount hle)
    have hrecorded : (ready.recordData values offset).PaddedTo count r := by
      rw [Buffer.recordData_eq]
      exact ⟨hpadded.format, hpadded.elementCount, hpadded.bytes⟩
    have hsame : (ready.recordData values offset).bytes.length =
        (ready.recordData values offset).size := by
      rw [Buffer.recordData_eq]
      exact hlength
    obtain ⟨written, hwritten, hpadded⟩ := hrecorded.setData hsame hnew hle
    refine ⟨written, ?_, hpadded⟩
    rw [filterMap_data?_append, Buffer.replay_append, hformat, hkind, hr]
    exact (Buffer.replay_singleton offset values r).trans hwritten
  | @size kind binding bytes ready new hready hnew =>
    have hlength := (Buffer.Grown.prepared hready hnone fun b hb => (hsome b hb).1).length
    have hreplays := Buffer.Replays.prepared hready hnone hsome
    rw [Buffer.ensureSize_eq_setElementCount hlength] at hnew
    cases hnew
    intro count hle
    have hcount := Nat.le_max_left ready.elementCount (ready.format.elementsIn bytes)
    obtain ⟨r, hr, hpadded⟩ := hreplays count (Nat.le_trans hcount hle)
    refine ⟨r, ?_, hpadded.format, hpadded.elementCount, ?_⟩
    · rw [filterMap_data?_append]
      exact (List.append_nil _).symm ▸ hr
    · rw [hpadded.bytes]
      refine (resizeBytes_resizeBytes ?_ (Nat.mul_le_mul_right _ hle)).symm
      rw [hlength]
      exact Nat.mul_le_mul_right _ hcount

theorem History.replays {binding : Binding} {b : Buffer} {lines : List TestLine}
    (h : History binding (some b) lines) : b.Replays lines := by
  refine h.rec_some (motive := Buffer.Replays) ?_
  intro old? lines line new hold _ _ hstep ih
  refine hstep.replays hold.eq_nil ?_
  rintro b rfl
  exact ⟨hold.grown, ih b rfl⟩

/-- The commands of a loaded script that write to a storage or uniform buffer give its bytes when
they are carried out on a blank buffer of its format and size. -/
theorem Script.replay_writesTo {settings : Settings} {source : List Char} {script : Script}
    (hload : Script.load settings source = .ok script) {i : Nat} {b : Buffer}
    (hb : script.buffers[i]? = some b) (hkind : b.kind.IsBound) :
    ∃ r, ((Buffer.ofFormat b.kind b.format).setElementCount b.elementCount).replay
        (writesTo i script.commands) = .ok r ∧ r.bytes = b.bytes := by
  have htracks := (ensures_load settings source).property_of_eq_ok hload
  have hbound := (htracks.valid.inOrder b (List.mem_of_getElem? hb)).bound_iff.1 hkind
  obtain ⟨binding, hbinding⟩ := Option.ne_none_iff_exists'.1 hbound
  have hhistory := htracks.history_of_getElem? hb hbinding
  obtain ⟨r, hr, hpadded⟩ := hhistory.replays b.elementCount (Nat.le_refl _)
  rw [htracks.writes i b binding hb hbinding]
  refine ⟨r, hr, ?_⟩
  have hsize : b.elementCount * b.format.size = b.bytes.length := hhistory.grown.length.symm
  rw [hpadded.bytes, hsize, resizeBytes_self]

/-- A buffer that is asked for by sizes before and after its data. -/
theorem Script.replay_between_sizes :
    ∃ script b, Script.load {} ("[test]\nssbo 0 3\nssbo 0 subdata int16_t 4 1 -1\n" ++
        "ssbo 0 subdata int16_t 0 7\nssbo 0 9\n").toList = .ok script ∧
      script.buffers[1]? = some b ∧ b.kind.IsBound ∧ b.bytes = [7, 0, 0, 0, 1, 0, 255, 255, 0, 0] ∧
      ∃ r, ((Buffer.ofFormat b.kind b.format).setElementCount b.elementCount).replay
        (writesTo 1 script.commands) = .ok r ∧ r.bytes = b.bytes := by
  have hload : ∃ script, Script.load {} ("[test]\nssbo 0 3\nssbo 0 subdata int16_t 4 1 -1\n" ++
        "ssbo 0 subdata int16_t 0 7\nssbo 0 9\n").toList = .ok script ∧
      (script.buffers[1]?.map fun b => (b.kind, b.bytes)) =
        some (.storage, [7, 0, 0, 0, 1, 0, 255, 255, 0, 0]) := by
    rw [load_of_no_rules rfl]
    decide +kernel
  obtain ⟨script, hload, hbuffer⟩ := hload
  obtain ⟨b, hb, heq⟩ := Option.map_eq_some_iff.1 hbuffer
  obtain ⟨hkind, hbytes⟩ := Prod.mk.inj heq
  have hbound : b.kind.IsBound := .inl hkind
  exact ⟨script, b, hload, hb, hbound, hbytes, Script.replay_writesTo hload hb hbound⟩

end GpuScript
