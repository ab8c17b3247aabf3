import GpuScript.Proofs.BufferGrowth
import GpuScript.Proofs.LoadingRun

/-!
# Commands that write data

The commands of a loaded script that write data suit the buffers of the script as they are at the
end, whatever lines came after the one that gave the command.
-/

namespace GpuScript

/-- Whether values can be written at an offset of a bound buffer without it growing. -/
structure Buffer.Suits (b : Buffer) (offset : Nat) (values : List Value) : Prop where
  kind : b.kind.IsBound
  bound : b.binding ≠ none
  settled : b.formatIsDefault = false
  nonempty : values ≠ []
  accepts : b.format.Accepts values
  aligned : offset % (b.format.scalarAt 0).size = 0
  inside : ∀ place ∈ b.format.components offset (values.length / b.format.valuesPerElement),
    place.2 + place.1.size ≤ b.bytes.length

namespace Buffer

variable {b : Buffer} {lines : List TestLine}

theorem Grown.suits (h : b.Grown lines) (hkind : b.kind.IsBound) (hbound : b.binding ≠ none)
    {line : TestLine} (hmem : line ∈ lines) (hread : line.WellRead) {offset : Nat}
    {values : List Value} (hdata : line.data? = some (offset, values)) :
    b.Suits offset values := by
  cases line with
  | clear | size => cases hdata
  | subdata kind binding format offset values =>
    cases hdata
    obtain ⟨-, hnonempty, haccepts, haligned⟩ := hread
    obtain ⟨hsettled, hlayout⟩ := h.layout kind binding format _ _ hmem
    have haccepts := haccepts.congr hlayout
    rw [Format.scalarAt_congr hlayout] at haligned
    refine ⟨hkind, hbound, hsettled, hnonempty, haccepts, haligned, ?_⟩
    intro place hplace
    have hend := components_end_le_dataEnd haccepts.whole place hplace
    have hcount := h.upper _ hmem
    rw [elementsForLine, elementsForData_of_whole (List.length_pos_iff.2 hnonempty)
      haccepts.whole, Format.elementsIn_le_iff] at hcount
    rw [h.length]
    exact Nat.le_trans hend hcount

end Buffer

theorem Tracks.suits {buffers : List Buffer} {commands : List Command} {lines : List TestLine}
    (h : Tracks buffers commands lines) {i offset : Nat} {values : List Value}
    (hwrite : (offset, values) ∈ writesTo i commands) :
    ∃ b, buffers[i]? = some b ∧ b.Suits offset values := by
  obtain ⟨b, hb, hbound⟩ := h.written i (List.ne_nil_of_mem hwrite)
  obtain ⟨binding, hbinding⟩ := Option.ne_none_iff_exists'.1 hbound
  have hhistory := h.history_of_getElem? hb hbinding
  rw [h.writes i b binding hb hbinding] at hwrite
  obtain ⟨line, hmem, hdata⟩ := List.mem_filterMap.1 hwrite
  exact ⟨b, hb, hhistory.grown.suits hhistory.isBound hbound hmem
    (hhistory.wellRead line hmem) hdata⟩

theorem mem_writesTo {commands : List Command} {command : Command} (hmem : command ∈ commands)
    {i offset : Nat} {values : List Value}
    (hoperation : command.operation = .setBufferData i offset values) :
    (offset, values) ∈ writesTo i commands := by
  refine List.mem_filterMap.2 ⟨command, hmem, ?_⟩
  rw [hoperation, Operation.dataFor?, Operation.write?, Option.bind_some, if_pos rfl]

/-- Every command of a loaded script that writes data suits the buffer that it writes to. -/
theorem Script.suits_of_setBufferData {settings : Settings} {source : List Char} {script : Script}
    (hload : Script.load settings source = .ok script) {command : Command}
    (hmem : command ∈ script.commands) {i offset : Nat} {values : List Value}
    (hoperation : command.operation = .setBufferData i offset values) :
    ∃ b, script.buffers[i]? = some b ∧ b.Suits offset values := by
  have htracks := (ensures_load settings source).property_of_eq_ok hload
  exact htracks.suits (mem_writesTo hmem hoperation)

/-- A size first gives a buffer a placeholder format, which the data then replaces. -/
theorem Script.suits_of_size_then_data :
    ∃ script command, Script.load {} "[test]\nssbo 3 9\nssbo 3 subdata int 4 7 8\n".toList = .ok script ∧
      command ∈ script.commands ∧
      command.operation = .setBufferData 1 4 [.ofInt .int32 7, .ofInt .int32 8] ∧
      ∃ b, script.buffers[1]? = some b ∧ b.Suits 4 [.ofInt .int32 7, .ofInt .int32 8] := by
  have hload : ∃ script,
      Script.load {} "[test]\nssbo 3 9\nssbo 3 subdata int 4 7 8\n".toList = .ok script ∧
        script.commands = [⟨3, .setBufferData 1 4 [.ofInt .int32 7, .ofInt .int32 8]⟩] := by
    rw [load_of_no_rules rfl]
    decide +kernel
  obtain ⟨script, hload, hcommands⟩ := hload
  have hmem : ⟨3, .setBufferData 1 4 [.ofInt .int32 7, .ofInt .int32 8]⟩ ∈ script.commands := by
    rw [hcommands]
    exact List.mem_singleton_self _
  exact ⟨script, _, hload, hmem, rfl, Script.suits_of_setBufferData hload hmem rfl⟩

end GpuScript
