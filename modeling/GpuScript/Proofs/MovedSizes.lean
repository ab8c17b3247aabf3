import GpuScript.Proofs.DataReplay
import GpuScript.Proofs.ForwardPass
import GpuScript.Proofs.TestBodies

/-!
# Moved sizes

A line that asks for the size of a bound buffer can stand anywhere in the body of a test section. The
script loads or does not load either way, and what it leaves at the bindings is the same: a buffer is
given by the data written to it, in order, and by the most room that a line asks for.
-/

namespace GpuScript

/-- What a bound buffer is and what is in it. -/
def Buffer.contents (b : Buffer) : BufferKind × Format × Nat × List UInt8 :=
  (b.kind, b.format, b.elementCount, b.bytes)

def Script.bufferOn? (script : Script) (binding : Binding) : Option Buffer :=
  script.buffers.find? fun b => b.binding = some binding

theorem find?_binding_eq (buffers : List Buffer) (binding : Binding) :
    (buffers.find? fun b => b.binding = some binding) = buffers[bindingIndex buffers binding]? := by
  unfold bindingIndex indexOfBinding?
  induction buffers with
  | nil => rfl
  | cons b rest ih =>
    rw [List.find?_cons, List.findIdx?_cons]
    split
    · next hb => simp [hb]
    · next hb =>
      rw [ih, hb]
      cases List.findIdx? (fun b => decide (b.binding = some binding)) rest <;> simp

namespace History

variable {binding : Binding} {b c : Buffer} {lines others : List TestLine}

theorem format_eq (hb : History binding (some b) lines) (hc : History binding (some c) others)
    (huse : b.use = c.use) : b.format = c.format := by
  simp only [Buffer.use, BoundUse.mk.injEq] at huse
  obtain ⟨-, hformat⟩ := huse
  cases hdefault : b.formatIsDefault <;> cases hdefault' : c.formatIsDefault <;>
    simp [hdefault, hdefault'] at hformat
  · exact hformat
  · rw [(hb.grown.blank hdefault).1, (hc.grown.blank hdefault').1]

theorem bytes_eq (hb : History binding (some b) lines) (hc : History binding (some c) others)
    (hkind : b.kind = c.kind) (hformat : b.format = c.format)
    (hcount : b.elementCount = c.elementCount)
    (hdata : lines.filterMap TestLine.data? = others.filterMap TestLine.data?) :
    b.bytes = c.bytes := by
  obtain ⟨r, hr, hpadded⟩ := hb.replays b.elementCount (Nat.le_refl _)
  obtain ⟨r', hr', hpadded'⟩ := hc.replays c.elementCount (Nat.le_refl _)
  rw [hkind, hformat, hcount, hdata, hr'] at hr
  cases hr
  have hbytes : r.bytes = b.bytes := by
    rw [hpadded.bytes, ← Buffer.size, ← hb.grown.length, resizeBytes_self]
  have hbytes' : r.bytes = c.bytes := by
    rw [hpadded'.bytes, ← Buffer.size, ← hc.grown.length, resizeBytes_self]
  rw [← hbytes, hbytes']

/-- What is in a buffer depends on the data, in order, and on which other lines there are. -/
theorem contents_eq (hb : History binding (some b) lines) (hc : History binding (some c) others)
    (huse : b.use = c.use) (hlines : lines.Perm others)
    (hdata : lines.filterMap TestLine.data? = others.filterMap TestLine.data?) :
    b.contents = c.contents := by
  have hkind : b.kind = c.kind := congrArg BoundUse.kind huse
  have hformat := hb.format_eq hc huse
  have hneeded : ∀ line, b.elementsForLine line = c.elementsForLine line :=
    Buffer.elementsForLine_congr hformat
  have hcount : b.elementCount = c.elementCount := by
    apply Nat.le_antisymm
    · refine hb.grown.elementCount_le fun line hmem => ?_
      rw [hneeded]
      exact hc.grown.upper line (hlines.mem_iff.1 hmem)
    · refine hc.grown.elementCount_le fun line hmem => ?_
      rw [← hneeded]
      exact hb.grown.upper line (hlines.mem_iff.2 hmem)
  rw [Buffer.contents, Buffer.contents, hkind, hformat, hcount,
    hb.bytes_eq hc hkind hformat hcount hdata]

end History

section Lines

variable {settings : Settings} {line : TestLine} {body moved : List Char}

def testLinesOf (settings : Settings) (body : List Char) : List TestLine :=
  ((lineTexts body).map (readingOf settings)).filterMap Option.join

theorem MovesLine.perm (h : MovesLine settings line body moved) :
    (testLinesOf settings body).Perm (testLinesOf settings moved) := by
  obtain ⟨ahead, behind, front, back, hbody, hmoved, heq⟩ := h.readings
  rw [testLinesOf, testLinesOf, hbody, hmoved]
  refine List.Perm.filterMap _ ?_
  exact List.perm_middle.trans (heq ▸ List.perm_middle.symm)

theorem MovesLine.data_eq (h : MovesLine settings line body moved) (hdata : line.data? = none)
    (binding : Binding) :
    (linesOn binding (testLinesOf settings body)).filterMap TestLine.data? =
      (linesOn binding (testLinesOf settings moved)).filterMap TestLine.data? := by
  obtain ⟨ahead, behind, front, back, hbody, hmoved, heq⟩ := h.readings
  have hmiddle : ∀ first second : List (Option (Option TestLine)),
      (linesOn binding ((first ++ some (some line) :: second).filterMap Option.join)).filterMap
          TestLine.data? =
        (linesOn binding ((first ++ second).filterMap Option.join)).filterMap TestLine.data? := by
    intro first second
    by_cases hbinding : line.binding? = some binding <;>
      simp [linesOn, List.filterMap_append, List.filter_append, hbinding, hdata]
  rw [testLinesOf, testLinesOf, hbody, hmoved, hmiddle, hmiddle, heq]

theorem MovesLine.mem (h : MovesLine settings line body moved) :
    line ∈ testLinesOf settings body := by
  obtain ⟨ahead, behind, front, back, hbody, -, -⟩ := h.readings
  rw [testLinesOf, hbody]
  exact List.mem_filterMap.2 ⟨some (some line), by simp, rfl⟩

end Lines

namespace Loading

variable {settings : Settings} {kind : BufferKind} {binding : Binding} {bytes : Nat}
  {front body moved back : List Char} {state mid final : Loading} {lines : List TestLine}

theorem linesFrom_append_of_end (h : back = [] ∨ EndsLine body) (number : Nat) :
    linesFrom number (body ++ back) =
      linesFrom number body ++ linesFrom (number + (physicalLines body).length) back := by
  rcases h with rfl | h
  · rw [List.append_nil]
    exact (List.append_nil _).symm
  · exact linesFrom_append h number back

theorem run_body (h : state.InStep lines) (hcurrent : state.current = .test)
    (hbody : ∀ text ∈ lineTexts body, IsBodyLine settings text) (number : Nat) :
    ((lineTexts body).map (readingOf settings)).foldlM takeReading (usesOf state.script.buffers) =
        (state.run settings (linesFrom number body)).toOption.map
          (fun new => usesOf new.script.buffers) ∧
      ∀ new, state.run settings (linesFrom number body) = .ok new →
        state.Stays new ∧ state.asked settings (linesFrom number body) = testLinesOf settings body := by
  have hlines : ∀ line ∈ linesFrom number body, IsBodyLine settings line.text := by
    intro line hline
    refine hbody line.text ?_
    rw [← map_text_linesFrom number]
    exact List.mem_map_of_mem hline
  have hreadings : (lineTexts body).map (readingOf settings) =
      (linesFrom number body).map fun line => readingOf settings line.text := by
    rw [← map_text_linesFrom number, List.map_map]
    rfl
  rw [testLinesOf, hreadings]
  exact ⟨foldlM_takeReading_eq h hcurrent hlines, fun new => stays_of_run h hcurrent hlines⟩

theorem exists_run_moved (h : state.InStep lines) (hcurrent : state.current = .test)
    (hmoves : MovesLine settings (.size kind binding bytes) body moved) (number other : Nat)
    (hmid : state.run settings (linesFrom number body) = .ok mid) :
    ∃ next, state.run settings (linesFrom other moved) = .ok next ∧ mid.Alike next ∧
      state.asked settings (linesFrom number body) = testLinesOf settings body ∧
      state.asked settings (linesFrom other moved) = testLinesOf settings moved := by
  obtain ⟨huses, hstays⟩ := run_body h hcurrent hmoves.bodyLines number
  obtain ⟨huses', hstays'⟩ := run_body h hcurrent hmoves.movedLines other
  rw [hmoves.foldlM_eq, huses', hmid] at huses
  obtain ⟨next, hnext, hsame⟩ := exists_of_toOption_map_eq_some huses
  obtain ⟨hbody, hasked⟩ := hstays mid hmid
  obtain ⟨hmoved, hasked'⟩ := hstays' next hnext
  exact ⟨next, hnext, (Alike.refl h).stays hbody hmoved hsame.symm, hasked, hasked'⟩

/-- A text with the line in another place leads to a state that is alike, with the same test lines
before and behind the body. -/
theorem exists_after_moved (hfront : EndsLine front)
    (htest : ∀ state, after settings front = .ok state → state.current = .test)
    (hmoves : MovesLine settings (.size kind binding bytes) body moved)
    (hback : back = [] ∨ EndsLine body ∧ EndsLine moved)
    (h : after settings (front ++ (body ++ back)) = .ok final) :
    ∃ last, after settings (front ++ (moved ++ back)) = .ok last ∧ final.Alike last ∧
      ∃ ahead behind,
        Script.testLines settings (front ++ (body ++ back)) =
          ahead ++ (testLinesOf settings body ++ behind) ∧
        Script.testLines settings (front ++ (moved ++ back)) =
          ahead ++ (testLinesOf settings moved ++ behind) := by
  let number := 1 + (physicalLines front).length
  rw [after_append hfront] at h
  obtain ⟨state, hstate, h⟩ := exists_of_bind_eq_ok h
  rw [linesFrom_append_of_end (hback.imp id And.left), run_append] at h
  obtain ⟨mid, hmid, hfinal⟩ := exists_of_bind_eq_ok h
  have hin := inStep_of_after hstate
  obtain ⟨next, hnext, halike, hasked, hasked'⟩ :=
    exists_run_moved hin (htest state hstate) hmoves number number hmid
  have hsame := (map_text_linesFrom (number + (physicalLines body).length) back).trans
    (map_text_linesFrom (number + (physicalLines moved).length) back).symm
  obtain ⟨last, hlast, halike', hbehind⟩ := halike.run
    ((ensures_run settings hin _).property_of_eq_ok hmid)
    ((ensures_run settings hin _).property_of_eq_ok hnext) hsame hfinal
  refine ⟨last, ?_, halike', Script.testLines settings front,
    mid.asked settings (linesFrom (number + (physicalLines body).length) back), ?_, ?_⟩
  · rw [after_append hfront, hstate]
    change state.run settings _ = _
    rw [linesFrom_append_of_end (hback.imp id And.right), run_append, hnext]
    exact hlast
  · rw [testLines_append hfront hstate, linesFrom_append_of_end (hback.imp id And.left),
      asked_append hmid, hasked]
  · rw [testLines_append hfront hstate, linesFrom_append_of_end (hback.imp id And.right),
      asked_append hnext, hasked', hbehind]

theorem contents_of_alike {last : Loading} {others : List TestLine} (h : final.InStep lines)
    (hlast : last.InStep others) (halike : final.Alike last) (hlines : lines.Perm others)
    (hdata : (linesOn binding lines).filterMap TestLine.data? =
      (linesOn binding others).filterMap TestLine.data?) :
    (final.script.buffers[bindingIndex final.script.buffers binding]?).map Buffer.contents =
      (last.script.buffers[bindingIndex last.script.buffers binding]?).map Buffer.contents := by
  have huse := congrFun halike.uses binding
  have hhistory := h.tracks.history binding
  have hhistory' := hlast.tracks.history binding
  unfold usesOf at huse
  cases hb : final.script.buffers[bindingIndex final.script.buffers binding]? with
  | none =>
    rw [hb] at huse
    rw [Option.map_eq_none_iff.1 huse.symm]
  | some b =>
    rw [hb] at huse hhistory
    obtain ⟨c, hc, hsame⟩ := Option.map_eq_some_iff.1 huse.symm
    rw [hc] at hhistory' ⊢
    exact congrArg some (hhistory.contents_eq hhistory' hsame.symm (hlines.filter _) hdata)

end Loading

open Loading

namespace Script

variable {settings : Settings} {kind : BufferKind} {binding : Binding} {bytes : Nat}
  {front body moved back : List Char}

theorem bufferOn?_eq (final : Loading) (binding : Binding) :
    final.endSection.script.bufferOn? binding =
      final.script.buffers[bindingIndex final.script.buffers binding]? := by
  rw [bufferOn?, find?_binding_eq, (endSection_frame final).1]

theorem exists_load_moved (hfront : EndsLine front)
    (htest : ∀ state, after settings front = .ok state → state.current = .test)
    (hmoves : MovesLine settings (.size kind binding bytes) body moved)
    (hback : back = [] ∨ EndsLine body ∧ EndsLine moved) {script : Script}
    (h : load settings (front ++ (body ++ back)) = .ok script) :
    ∃ other, load settings (front ++ (moved ++ back)) = .ok other := by
  rw [load_eq] at h
  obtain ⟨final, hfinal, -⟩ := exists_of_map_eq_ok h
  obtain ⟨last, hlast, -⟩ := exists_after_moved hfront htest hmoves hback hfinal
  exact ⟨_, by rw [load_eq, hlast]; rfl⟩

/-- A line of a test section that asks for a size can be moved among the lines of the section. The
script loads as before, with the same buffers at the bindings, and each buffer is as large as the
line about it that needs the most room. -/
theorem contents_of_moved_size (hfront : EndsLine front)
    (htest : ∀ state, after settings front = .ok state → state.current = .test)
    (hmoves : MovesLine settings (.size kind binding bytes) body moved)
    (hback : back = [] ∨ EndsLine body ∧ EndsLine moved) :
    ((∃ script, load settings (front ++ body ++ back) = .ok script) ↔
        ∃ script, load settings (front ++ moved ++ back) = .ok script) ∧
      ∀ a b, load settings (front ++ body ++ back) = .ok a →
        load settings (front ++ moved ++ back) = .ok b →
        (∀ other, (a.bufferOn? other).map Buffer.contents =
          (b.bufferOn? other).map Buffer.contents) ∧
        (∀ other buffer, a.bufferOn? other = some buffer → buffer.elementCount =
          buffer.elementsForLines (linesOn other (testLines settings (front ++ body ++ back)))) ∧
        ∃ buffer, a.bufferOn? binding = some buffer := by
  simp only [List.append_assoc]
  refine ⟨⟨?_, ?_⟩, ?_⟩
  · rintro ⟨script, h⟩
    exact exists_load_moved hfront htest hmoves hback h
  · rintro ⟨script, h⟩
    exact exists_load_moved hfront htest hmoves.symm (hback.imp id And.symm) h
  · intro a b ha hb
    rw [load_eq] at ha hb
    obtain ⟨final, hfinal, rfl⟩ := exists_of_map_eq_ok ha
    obtain ⟨last, hlast, rfl⟩ := exists_of_map_eq_ok hb
    obtain ⟨other, hother, halike, ahead, behind, hlines, hlines'⟩ :=
      exists_after_moved hfront htest hmoves hback hfinal
    obtain rfl := Except.ok.inj (hlast.symm.trans hother)
    have hin := inStep_of_after hfinal
    have hin' := inStep_of_after hlast
    have hgrown : ∀ other buffer, final.endSection.script.bufferOn? other = some buffer →
        History other (some buffer) (linesOn other
          (testLines settings (front ++ (body ++ back)))) := by
      intro other buffer hbuffer
      rw [bufferOn?_eq] at hbuffer
      exact hbuffer ▸ hin.tracks.history other
    refine ⟨?_, fun other buffer hbuffer => (hgrown other buffer hbuffer).grown.elementCount_eq, ?_⟩
    · intro binding
      rw [bufferOn?_eq, bufferOn?_eq]
      refine contents_of_alike hin hin' halike ?_ ?_
      · rw [hlines, hlines']
        exact (hmoves.perm.append_right behind).append_left ahead
      · rw [hlines, hlines']
        simp only [linesOn, List.filter_append, List.filterMap_append]
        have hdata := hmoves.data_eq rfl binding
        unfold linesOn at hdata
        rw [hdata]
    · rw [bufferOn?_eq]
      refine Option.ne_none_iff_exists'.1 ?_
      intro hnone
      have hempty := (hin.tracks.history binding).eq_nil hnone
      have hmem : TestLine.size kind binding bytes ∈
          linesOn binding (testLines settings (front ++ (body ++ back))) := by
        rw [hlines]
        refine List.mem_filter.2 ⟨?_, by simp [TestLine.binding?]⟩
        simp [hmoves.mem]
      rw [hempty] at hmem
      cases hmem

/-- A size that is asked for before the data of a buffer, and at the end of the text instead. -/
theorem contents_of_size_moved_last :
    MovesLine {} (.size .storage ⟨0, 2⟩ 9)
        "ssbo 2 9\nclear\nssbo 2 subdata int16_t 4 1 -1".toList
        "clear\nssbo 2 subdata int16_t 4 1 -1\nssbo 2 9".toList ∧
      ∃ a b, load {} ("[test]\n".toList ++
          "ssbo 2 9\nclear\nssbo 2 subdata int16_t 4 1 -1".toList ++ []) = .ok a ∧
        load {} ("[test]\n".toList ++
          "clear\nssbo 2 subdata int16_t 4 1 -1\nssbo 2 9".toList ++ []) = .ok b ∧
        (a.bufferOn? ⟨0, 2⟩).map Buffer.bytes = some [0, 0, 0, 0, 1, 0, 255, 255, 0, 0] ∧
        (a.bufferOn? ⟨0, 2⟩).map Buffer.contents = (b.bufferOn? ⟨0, 2⟩).map Buffer.contents := by
  have hrules : ({} : Settings).rules = [] := rfl
  have hfront : EndsLine "[test]\n".toList := by
    decide +kernel
  have htest : ∀ state, Loading.after {} "[test]\n".toList = .ok state → state.current = .test := by
    have hafter : ∃ state, Loading.after {} "[test]\n".toList = .ok state ∧ state.current = .test := by
      simp only [Loading.after, run_of_no_rules hrules]
      decide +kernel
    obtain ⟨state, hstate, hcurrent⟩ := hafter
    intro other hother
    exact Except.ok.inj (hstate.symm.trans hother) ▸ hcurrent
  have hmoves : MovesLine {} (.size .storage ⟨0, 2⟩ 9)
      "ssbo 2 9\nclear\nssbo 2 subdata int16_t 4 1 -1".toList
      "clear\nssbo 2 subdata int16_t 4 1 -1\nssbo 2 9".toList := by
    have hbody : ∀ line ∈ lineTexts "ssbo 2 9\nclear\nssbo 2 subdata int16_t 4 1 -1".toList,
        line.head? ≠ some '[' := by
      decide +kernel
    have hmoved : ∀ line ∈ lineTexts "clear\nssbo 2 subdata int16_t 4 1 -1\nssbo 2 9".toList,
        line.head? ≠ some '[' := by
      decide +kernel
    let others : List (Option (Option TestLine)) :=
      (lineTexts "clear\nssbo 2 subdata int16_t 4 1 -1".toList).map
        fun line => (readTestLine line).toOption
    refine ⟨fun line hline => isBodyLine_of_no_rules hrules (hbody line hline),
      fun line hline => isBodyLine_of_no_rules hrules (hmoved line hline),
      [], others, others, [], ?_, ?_, (List.append_nil _).symm⟩
    · rw [readingOf_of_no_rules hrules]
      decide +kernel
    · rw [readingOf_of_no_rules hrules]
      decide +kernel
  have hloads : ∃ a, load {} ("[test]\n".toList ++
          "ssbo 2 9\nclear\nssbo 2 subdata int16_t 4 1 -1".toList ++ []) = .ok a ∧
        (a.bufferOn? ⟨0, 2⟩).map Buffer.bytes = some [0, 0, 0, 0, 1, 0, 255, 255, 0, 0] := by
    simp only [load_of_no_rules hrules]
    decide +kernel
  obtain ⟨a, ha, hbytes⟩ := hloads
  obtain ⟨hiff, hsame⟩ := contents_of_moved_size hfront htest hmoves (.inl rfl)
  obtain ⟨b, hb⟩ := hiff.1 ⟨a, ha⟩
  exact ⟨hmoves, a, b, ha, hb, hbytes, (hsame a b ha hb).1 ⟨0, 2⟩⟩

end Script

end GpuScript
