import GpuScript.Proofs.BufferGrowth
import GpuScript.Proofs.LoadingRun

/-!
# The maximum size of a buffer

The maximum size is recorded only by data, and only if it needs more room than the buffer has. From
then on it is the most that any data needed, and a size that is asked for later does not raise it.
So the maximum falls behind the size exactly if some data led the lines before it, and some size is
beyond all data.
-/

namespace GpuScript

namespace Buffer

/-- Whether some line with data asks for more than every line before it. -/
def Leads (b : Buffer) (lines : List TestLine) : Prop :=
  ∃ before line after, lines = before ++ line :: after ∧ line.data? ≠ none ∧
    ∀ other ∈ before, b.elementsForLine other < b.elementsForLine line

/-- Whether the greatest size recorded is the most that data asked for, once some data led. -/
structure Records (b : Buffer) (lines : List TestLine) : Prop where
  leads_iff : b.Leads lines ↔ b.recordedMax ≠ 0
  upper : b.recordedMax ≠ 0 → ∀ line ∈ lines, line.data? ≠ none →
    b.elementsForLine line * b.format.size ≤ b.recordedMax
  attained : b.recordedMax ≠ 0 → ∃ line ∈ lines, line.data? ≠ none ∧
    b.elementsForLine line * b.format.size = b.recordedMax

variable {b ready new : Buffer} {lines : List TestLine} {line : TestLine}

theorem leads_congr (h : new.format = b.format) : new.Leads lines ↔ b.Leads lines := by
  simp only [Leads, elementsForLine_congr h]

theorem not_leads_of_data?_eq_none (h : ∀ line ∈ lines, line.data? = none) : ¬ b.Leads lines := by
  rintro ⟨before, line, after, rfl, hdata, -⟩
  exact hdata (h line (by simp))

theorem leads_append_iff : b.Leads (lines ++ [line]) ↔ b.Leads lines ∨
    line.data? ≠ none ∧ ∀ other ∈ lines, b.elementsForLine other < b.elementsForLine line := by
  constructor
  · rintro ⟨before, first, after, heq, hdata, hless⟩
    rcases List.eq_nil_or_concat after with rfl | ⟨more, last, rfl⟩
    · obtain ⟨rfl, hlast⟩ := List.append_inj' heq rfl
      cases hlast
      exact .inr ⟨hdata, hless⟩
    · rw [List.concat_eq_append, ← List.cons_append, ← List.append_assoc] at heq
      obtain ⟨rfl, -⟩ := List.append_inj' heq rfl
      exact .inl ⟨before, first, more, rfl, hdata, hless⟩
  · rintro (⟨before, first, after, rfl, hdata, hless⟩ | ⟨hdata, hless⟩)
    · exact ⟨before, first, after ++ [line], by simp, hdata, hless⟩
    · exact ⟨lines, line, [], rfl, hdata, hless⟩

/-- A buffer that is made ready has recorded as before. -/
theorem Records.prepared {kind : BufferKind} {binding : Binding} {format? : Option Format}
    {old? : Option Buffer} (hready : Prepared kind binding format? old? ready)
    (hnone : old? = none → lines = [])
    (hsome : ∀ b, old? = some b → b.Grown lines ∧ b.Records lines) : ready.Records lines := by
  have hempty : ∀ {b : Buffer}, (∀ line ∈ lines, line.data? = none) → b.recordedMax = 0 →
      b.Records lines := by
    intro b hdata hzero
    refine ⟨iff_of_false (not_leads_of_data?_eq_none hdata) (by simp [hzero]), ?_, ?_⟩
    · exact fun h => (h hzero).elim
    · exact fun h => (h hzero).elim
  cases hready with
  | fresh | placeholder =>
    refine hempty ?_ rfl
    rw [hnone rfl]
    simp
  | same | matching => exact (hsome _ rfl).2
  | settled b format _ hdefault =>
    obtain ⟨hgrown, hrecords⟩ := hsome b rfl
    have hdata := hgrown.data?_eq_none hdefault
    refine hempty hdata ?_
    by_contra hne
    exact not_leads_of_data?_eq_none hdata (hrecords.leads_iff.2 hne)

theorem Records.append_size (h : ready.Records lines) (hdata : line.data? = none)
    (hformat : new.format = ready.format) (hrecorded : new.recordedMax = ready.recordedMax) :
    new.Records (lines ++ [line]) := by
  have hsame : ∀ line, new.elementsForLine line = ready.elementsForLine line :=
    elementsForLine_congr hformat
  refine ⟨?_, ?_, ?_⟩
  · rw [leads_congr hformat, leads_append_iff, h.leads_iff, hrecorded]
    simp [hdata]
  · intro hne other hmem hother
    rw [hrecorded] at hne ⊢
    rw [hsame, hformat]
    rcases List.mem_append.1 hmem with hmem | hmem
    · exact h.upper hne other hmem hother
    · rw [List.mem_singleton.1 hmem] at hother
      exact (hother hdata).elim
  · intro hne
    rw [hrecorded] at hne ⊢
    obtain ⟨other, hmem, hother, heq⟩ := h.attained hne
    exact ⟨other, List.mem_append_left _ hmem, hother, by rw [hsame, hformat, heq]⟩

theorem Records.le_maxSize (h : b.Records lines) (hgrown : b.Grown lines) (hmem : line ∈ lines)
    (hdata : line.data? ≠ none) : b.elementsForLine line * b.format.size ≤ b.maxSize := by
  unfold maxSize
  split
  · exact Nat.mul_le_mul_right _ (hgrown.upper line hmem)
  · next hne => exact h.upper hne line hmem hdata

theorem Records.append_raised (h : ready.Records lines) (hgrown : ready.Grown lines)
    (hdata : line.data? ≠ none) (hformat : new.format = ready.format)
    (hneed : ready.maxSize < ready.elementsForLine line * ready.format.size)
    (hrecorded : new.recordedMax = ready.elementsForLine line * ready.format.size) :
    new.Records (lines ++ [line]) := by
  have hsame : ∀ line, new.elementsForLine line = ready.elementsForLine line :=
    elementsForLine_congr hformat
  have hne : new.recordedMax ≠ 0 := by
    rw [hrecorded]
    exact Nat.ne_of_gt (Nat.lt_of_le_of_lt (Nat.zero_le _) hneed)
  refine ⟨iff_of_true ?_ hne, ?_, ?_⟩
  · rw [leads_congr hformat, leads_append_iff]
    by_cases hzero : ready.recordedMax = 0
    -- With nothing recorded the maximum is the size, which no line before went beyond.
    · right
      refine ⟨hdata, ?_⟩
      intro other hmem
      rw [maxSize, if_pos hzero, size, Nat.mul_lt_mul_right ready.format.size_pos] at hneed
      exact Nat.lt_of_le_of_lt (hgrown.upper other hmem) hneed
    · exact .inl (h.leads_iff.2 hzero)
  · intro _ other hmem hother
    rw [hsame, hformat, hrecorded]
    rcases List.mem_append.1 hmem with hmem | hmem
    · exact Nat.le_trans (h.le_maxSize hgrown hmem hother) (Nat.le_of_lt hneed)
    · exact Nat.le_of_eq (by rw [List.mem_singleton.1 hmem])
  · intro _
    exact ⟨line, by simp, hdata, by rw [hsame, hformat, hrecorded]⟩

theorem Records.append_kept (h : ready.Records lines) (hgrown : ready.Grown lines)
    (hpos : 0 < ready.elementsForLine line) (hformat : new.format = ready.format)
    (hneed : ready.elementsForLine line * ready.format.size ≤ ready.maxSize)
    (hrecorded : new.recordedMax = ready.recordedMax) : new.Records (lines ++ [line]) := by
  have hsame : ∀ line, new.elementsForLine line = ready.elementsForLine line :=
    elementsForLine_congr hformat
  refine ⟨?_, ?_, ?_⟩
  · rw [leads_congr hformat, leads_append_iff, h.leads_iff, hrecorded]
    constructor
    · rintro (hne | ⟨-, hless⟩) hzero
      · exact hne hzero
      -- With nothing recorded the size is what some line asked for, so this one does not lead.
      · rw [maxSize, if_pos hzero, size] at hneed
        have hle := Nat.le_of_mul_le_mul_right hneed ready.format.size_pos
        rcases hgrown.attained with hnone | ⟨other, hmem, heq⟩
        · omega
        · have := hless other hmem
          omega
    · exact .inl
  · intro hne other hmem hother
    rw [hrecorded] at hne ⊢
    rw [hsame, hformat]
    rcases List.mem_append.1 hmem with hmem | hmem
    · exact h.upper hne other hmem hother
    · rw [List.mem_singleton.1 hmem]
      rwa [maxSize, if_neg hne] at hneed
  · intro hne
    rw [hrecorded] at hne ⊢
    obtain ⟨other, hmem, hother, heq⟩ := h.attained hne
    exact ⟨other, List.mem_append_left _ hmem, hother, by rw [hsame, hformat, heq]⟩

theorem Records.behind_iff (h : b.Records lines) (hgrown : b.Grown lines) :
    b.maxSize < b.size ↔ b.Leads lines ∧ ∃ line ∈ lines, ∀ other ∈ lines, other.data? ≠ none →
      b.elementsForLine other < b.elementsForLine line := by
  have hsize := b.format.size_pos
  constructor
  · intro hlt
    have hne : b.recordedMax ≠ 0 := by
      intro hzero
      rw [maxSize, if_pos hzero] at hlt
      exact Nat.lt_irrefl _ hlt
    refine ⟨h.leads_iff.2 hne, ?_⟩
    rcases hgrown.attained with hzero | ⟨line, hmem, heq⟩
    · rw [size, hzero, Nat.zero_mul] at hlt
      exact (Nat.not_lt_zero _ hlt).elim
    · refine ⟨line, hmem, ?_⟩
      intro other hother hdata
      have hle := Nat.lt_of_le_of_lt (h.le_maxSize hgrown hother hdata) hlt
      rw [heq]
      exact Nat.lt_of_mul_lt_mul_right hle
  · rintro ⟨hleads, line, hmem, hless⟩
    have hne := h.leads_iff.1 hleads
    obtain ⟨other, hother, hdata, heq⟩ := h.attained hne
    rw [maxSize, if_neg hne, ← heq, size, Nat.mul_lt_mul_right hsize]
    exact Nat.lt_of_lt_of_le (hless other hother hdata) (hgrown.upper line hmem)

end Buffer

theorem BoundStep.records {old? : Option Buffer} {line : TestLine} {new : Buffer}
    {lines : List TestLine} (h : BoundStep old? line new) (hread : line.WellRead)
    (hnone : old? = none → lines = [])
    (hsome : ∀ b, old? = some b → b.Grown lines ∧ b.Records lines) :
    new.Records (lines ++ [line]) := by
  cases h with
  | @subdata kind binding format offset values ready new hready hnew =>
    have hgrown := Buffer.Grown.prepared hready hnone fun b hb => (hsome b hb).1
    have hrecords := Buffer.Records.prepared hready hnone hsome
    obtain ⟨-, hne, haccepts, -⟩ := hread
    have hpos := Buffer.elementsForData_pos (haccepts.congr hready.segments_eq) hne offset
    obtain ⟨bytes, -, rfl⟩ := Buffer.exists_bytes_of_subdata hnew
    by_cases hneed : ready.maxSize <
        ready.elementsForData values.length offset * ready.format.size
    · refine hrecords.append_raised hgrown (by simp [TestLine.data?]) rfl hneed ?_
      simp only [Buffer.recordData, if_pos hneed]
      rfl
    · refine hrecords.append_kept hgrown hpos rfl (Nat.le_of_not_lt hneed) ?_
      simp only [Buffer.recordData, if_neg hneed]
  | @size kind binding bytes ready new hready hnew =>
    have hgrown := Buffer.Grown.prepared hready hnone fun b hb => (hsome b hb).1
    have hrecords := Buffer.Records.prepared hready hnone hsome
    rw [Buffer.ensureSize_eq_setElementCount hgrown.length] at hnew
    cases hnew
    exact hrecords.append_size rfl rfl rfl

theorem History.records {binding : Binding} {b : Buffer} {lines : List TestLine}
    (h : History binding (some b) lines) : b.Records lines := by
  refine h.rec_some (motive := Buffer.Records) ?_
  intro old? lines line new hold hread _ hstep ih
  refine hstep.records hread hold.eq_nil ?_
  rintro b rfl
  exact ⟨hold.grown, ih b rfl⟩

/-- The maximum size of a buffer of a loaded script is behind its size exactly if it is bound, some
data about its binding led the lines before it, and a line asks for more than all data. -/
theorem Script.maxSize_lt_size_iff {settings : Settings} {source : List Char} {script : Script}
    (hload : Script.load settings source = .ok script) {b : Buffer} (hmem : b ∈ script.buffers) :
    b.maxSize < b.size ↔ ∃ binding lines, b.binding = some binding ∧
      lines = linesOn binding (testLines settings source) ∧ b.Leads lines ∧
      ∃ line ∈ lines, ∀ other ∈ lines, other.data? ≠ none →
        b.elementsForLine other < b.elementsForLine line := by
  have htracks := (ensures_load settings source).property_of_eq_ok hload
  cases hbinding : b.binding with
  | none =>
    have hzero := (htracks.valid.inOrder b hmem).recorded hbinding
    simp [Buffer.maxSize, hzero]
  | some binding =>
    obtain ⟨i, hi⟩ := List.getElem?_of_mem hmem
    have hhistory := htracks.history_of_getElem? hi hbinding
    rw [hhistory.records.behind_iff hhistory.grown]
    constructor
    · intro h
      exact ⟨binding, _, rfl, rfl, h⟩
    · rintro ⟨other, lines, heq, rfl, h⟩
      cases heq
      exact h

/-- Data and then a greater size: the maximum stays at the data. -/
theorem Script.maxSize_lt_size_of_data_then_size :
    ∃ script b, Script.load {} "[test]\nssbo 0 subdata int 0 1\nssbo 0 8\n".toList = .ok script ∧
      b ∈ script.buffers ∧ ∃ binding lines, b.binding = some binding ∧
        lines = linesOn binding (testLines {} "[test]\nssbo 0 subdata int 0 1\nssbo 0 8\n".toList) ∧
        b.Leads lines ∧ ∃ line ∈ lines, ∀ other ∈ lines, other.data? ≠ none →
          b.elementsForLine other < b.elementsForLine line := by
  have hload : ∃ script,
      Script.load {} "[test]\nssbo 0 subdata int 0 1\nssbo 0 8\n".toList = .ok script ∧
        ∃ b ∈ script.buffers, b.maxSize < b.size := by
    rw [load_of_no_rules rfl]
    decide +kernel
  obtain ⟨script, hload, b, hmem, hlt⟩ := hload
  exact ⟨script, b, hload, hmem, (Script.maxSize_lt_size_iff hload hmem).1 hlt⟩

/-- The maximum size of a buffer of a loaded script can be less than its size. -/
theorem Script.not_size_le_maxSize :
    ¬ ∀ (settings : Settings) (source : List Char) (script : Script),
      Script.load settings source = .ok script → ∀ b ∈ script.buffers, b.size ≤ b.maxSize := by
  have hload : ∃ script,
      Script.load {} "[test]\nssbo 0 subdata int 0 1\nssbo 0 8\n".toList = .ok script ∧
        ∃ b ∈ script.buffers, b.size = 8 ∧ b.maxSize = 4 := by
    rw [load_of_no_rules rfl]
    decide +kernel
  obtain ⟨script, hload, b, hmem, hsize, hmax⟩ := hload
  intro h
  have hle := h _ _ script hload b hmem
  omega

end GpuScript
