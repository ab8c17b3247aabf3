import GpuScript.Proofs.KeptColumns
import GpuScript.Proofs.ValueRoundTrip

/-!
# Index buffers

There is at most one buffer of indices, and it holds all the indices that were given in order:
further ones are added behind those it has, and the first ones of all bring the buffer about. Lines
of other sections neither change it nor add another one.
-/

namespace GpuScript

def indexBuffers (buffers : List Buffer) : List Buffer := buffers.filter (·.kind = .index)

def indexValue (index : UInt16) : Value := Value.ofInt .uint16 index.toNat

/-- Whether a table has no buffer of indices but one that holds some indices, if there are any. -/
structure HoldsIndices (buffers : List Buffer) (indices : List UInt16) : Prop where
  none : indices = [] → indexBuffers buffers = []
  one : indices ≠ [] → ∃ b, indexBuffers buffers = [b] ∧ Format.named "R16_UINT" = .ok b.format ∧
    b.bytes.length = b.size ∧ b.values = .ok (indices.map indexValue)

namespace Buffer

variable {b : Buffer} {values old : List Value}

/-- Without half floats the values that are written at the end of a buffer follow those it has. -/
theorem exists_setData_append (hhalf : Scalar.float16 ∉ b.format.scalars)
    (hlength : b.bytes.length = b.size) (hold : b.values = .ok old) (hne : values ≠ [])
    (hwhole : values.length % b.format.valuesPerElement = 0)
    (hscalars : ∀ k v, values[k]? = some v → v.scalar = b.format.scalarAt k) :
    ∃ after, b.setData values b.size = .ok after ∧ after.kind = b.kind ∧
      after.format = b.format ∧ after.bytes.length = after.size ∧
      after.values = .ok (old ++ values) := by
  obtain ⟨count, bytes, hcount, hwrite, hafter⟩ := exists_setData_aligned
    (Format.accepts_of_scalars hhalf hwhole hscalars) hne b.elementCount
  have hroom : count = b.elementCount + values.length / b.format.valuesPerElement :=
    hcount.trans (Nat.max_eq_right (Nat.le_add_right ..))
  have hlengthAfter : bytes.length = count * b.format.size := by
    rw [Format.length_of_writeData hwrite, length_resizeBytes]
  refine ⟨_, hafter, rfl, rfl, hlengthAfter, ?_⟩
  obtain rfl := Except.ok.inj ((values_eq hlength).symm.trans hold)
  refine (values_eq hlengthAfter).trans (congrArg Except.ok (List.ext_getElem? fun j => ?_))
  have hpos := b.format.valuesPerElement_pos
  have holdLength : ((b.format.components 0 b.elementCount).map (Value.stored b.bytes)).length =
      b.elementCount * b.format.valuesPerElement := by
    rw [List.length_map, Format.length_components]
  have hnewLength : ((b.format.components 0 count).map (Value.stored bytes)).length =
      b.elementCount * b.format.valuesPerElement + values.length := by
    rw [List.length_map, Format.length_components, hroom, Nat.add_mul,
      Nat.div_mul_cancel (Nat.dvd_of_mod_eq_zero hwhole)]
  rcases Nat.lt_or_ge j (b.elementCount * b.format.valuesPerElement) with hj | hj
  · have hbefore : j / b.format.valuesPerElement < b.elementCount :=
      (Nat.div_lt_iff_lt_mul hpos).2 hj
    rw [List.getElem?_append_left (by omega)]
    exact stored_of_outside hlength hwhole (by omega) hwrite hj (.inl hbefore)
  · obtain ⟨k, rfl⟩ := Nat.exists_eq_add_of_le hj
    rw [List.getElem?_append_right (by omega), holdLength, Nat.add_sub_cancel_left]
    rcases Nat.lt_or_ge k values.length with hk | hk
    · exact stored_of_writeData hhalf hwhole hscalars (by omega) hwrite hk
    · rw [List.getElem?_eq_none hk]
      exact List.getElem?_eq_none
        (Nat.le_trans (Nat.le_of_eq hnewLength) (Nat.add_le_add_left hk _))

end Buffer

theorem scalarAt_indexFormat (k : Nat) : indexFormat.scalarAt k = .uint16 := by
  simp [Format.scalarAt, Format.scalars, Format.valuesPerElement, indexFormat, scalarsOf,
    Segment.scalar?]

namespace Buffer

variable {b : Buffer} {indices more : List UInt16}

theorem exists_setData_indices (hformat : b.format = indexFormat)
    (hlength : b.bytes.length = b.size) (hold : b.values = .ok (indices.map indexValue))
    (hmore : more ≠ []) :
    ∃ after, b.setData (more.map indexValue) b.size = .ok after ∧ after.kind = b.kind ∧
      after.format = indexFormat ∧ after.bytes.length = after.size ∧
      after.values = .ok ((indices ++ more).map indexValue) := by
  have hhalf : Scalar.float16 ∉ b.format.scalars := by
    rw [hformat]
    decide
  have hwhole : (more.map indexValue).length % b.format.valuesPerElement = 0 := by
    rw [hformat]
    exact Nat.mod_one _
  have hscalars : ∀ k v, (more.map indexValue)[k]? = some v → v.scalar = b.format.scalarAt k := by
    intro k v hv
    obtain ⟨index, -, rfl⟩ := List.mem_map.1 (List.mem_of_getElem? hv)
    rw [hformat, scalarAt_indexFormat]
    rfl
  obtain ⟨after, hafter, hkind, hsame, hlengthAfter, hvalues⟩ :=
    exists_setData_append hhalf hlength hold (mt List.map_eq_nil_iff.1 hmore) hwhole hscalars
  exact ⟨after, hafter, hkind, hsame.trans hformat, hlengthAfter, by rw [hvalues, List.map_append]⟩

end Buffer

section Tables

variable {buffers new : List Buffer}

theorem eq_take_append_drop {i : Nat} {b : Buffer} (h : buffers[i]? = some b) :
    buffers = buffers.take i ++ b :: buffers.drop (i + 1) := by
  obtain ⟨hi, rfl⟩ := List.getElem?_eq_some_iff.1 h
  rw [← List.drop_eq_getElem_cons hi, List.take_append_drop]

theorem indexBuffers_append (buffers more : List Buffer) :
    indexBuffers (buffers ++ more) = indexBuffers buffers ++ indexBuffers more :=
  List.filter_append ..

theorem indexBuffers_cons_of_ne {b : Buffer} (h : b.kind ≠ .index) (rest : List Buffer) :
    indexBuffers (b :: rest) = indexBuffers rest :=
  List.filter_cons_of_neg (by simpa using h)

theorem indexBuffers_cons_of_eq {b : Buffer} (h : b.kind = .index) (rest : List Buffer) :
    indexBuffers (b :: rest) = b :: indexBuffers rest :=
  List.filter_cons_of_pos (by simpa using h)

theorem indexBuffers_set {i : Nat} {old b : Buffer} (hi : buffers[i]? = some old)
    (hold : old.kind ≠ .index) (hnew : b.kind ≠ .index) :
    indexBuffers (buffers.set i b) = indexBuffers buffers := by
  have hsplit := congrArg indexBuffers (eq_take_append_drop hi)
  rw [indexBuffers_append, indexBuffers_cons_of_ne hold, ← indexBuffers_append] at hsplit
  rw [← putAt_of_lt (List.getElem?_eq_some_iff.1 hi).1, putAt, indexBuffers_append,
    indexBuffers_cons_of_ne hnew, ← indexBuffers_append, hsplit]

theorem indexBuffers_append_of_ne {more : List Buffer} (h : ∀ b ∈ more, b.kind ≠ .index) :
    indexBuffers (buffers ++ more) = indexBuffers buffers := by
  have hmore : indexBuffers more = [] :=
    List.filter_eq_nil_iff.2 fun b hb => by simpa using h b hb
  rw [indexBuffers_append, hmore, List.append_nil]

theorem indexBuffers_map {change : Buffer → Buffer} (hkind : ∀ b, (change b).kind = b.kind)
    (hsame : ∀ b, b.kind = .index → change b = b) :
    indexBuffers (buffers.map change) = indexBuffers buffers := by
  induction buffers with
  | nil => rfl
  | cons b rest ih =>
    rw [List.map_cons]
    by_cases h : b.kind = .index
    · rw [hsame b h, indexBuffers_cons_of_eq h, indexBuffers_cons_of_eq h, ih]
    · rw [indexBuffers_cons_of_ne (by rwa [hkind]), indexBuffers_cons_of_ne h, ih]

theorem indexBuffers_put (hvalid : ValidTable buffers) {binding : Binding} {b : Buffer}
    (hkind : b.kind.IsBound) :
    indexBuffers (putAt buffers (bindingIndex buffers binding) b) = indexBuffers buffers := by
  have hnew : b.kind ≠ .index := fun h => by simp [h, BufferKind.IsBound] at hkind
  cases hold : buffers[bindingIndex buffers binding]? with
  | some old =>
    have hbound := binding_of_getElem?_bindingIndex hold
    have holdKind : old.kind ≠ .index := by
      intro h
      have hnone := hvalid.binding_eq_none hold (by simp [h, BufferKind.IsBound])
      rw [hbound] at hnone
      cases hnone
    rw [putAt_of_lt (List.getElem?_eq_some_iff.1 hold).1]
    exact indexBuffers_set hold holdKind hnew
  | none =>
    have hindex : bindingIndex buffers binding = buffers.length :=
      Nat.le_antisymm (bindingIndex_le ..) (List.getElem?_eq_none_iff.1 hold)
    rw [hindex, putAt_length]
    exact indexBuffers_append_of_ne (List.forall_mem_singleton.2 hnew)

theorem indexBuffers_eq_nil (h : indexOfKind? buffers .index = none) :
    indexBuffers buffers = [] :=
  List.filter_eq_nil_iff.2 fun b hb => Bool.eq_false_iff.1 (List.findIdx?_eq_none_iff.1 h b hb)

theorem indexBuffers_set_index {i : Nat} {b c : Buffer}
    (hbuffers : indexBuffers buffers = [b]) (hi : indexOfKind? buffers .index = some i)
    (hc : c.kind = .index) :
    buffers[i]? = some b ∧ indexBuffers (buffers.set i c) = [c] := by
  obtain ⟨old, hold, hkind⟩ := exists_of_findIdx?_eq_some hi
  have hold' : old.kind = .index := of_decide_eq_true hkind
  have hsplit := congrArg indexBuffers (eq_take_append_drop hold)
  rw [hbuffers, indexBuffers_append, indexBuffers_cons_of_eq hold'] at hsplit
  obtain ⟨hleft, hrest⟩ := List.append_eq_singleton_iff.1 hsplit.symm |>.resolve_right
    fun h => List.cons_ne_nil _ _ h.2
  obtain ⟨rfl, hright⟩ := List.cons.inj hrest
  refine ⟨hold, ?_⟩
  rw [← putAt_of_lt (List.getElem?_eq_some_iff.1 hold).1, putAt, indexBuffers_append,
    indexBuffers_cons_of_eq hc, hleft, hright, List.nil_append]

namespace HoldsIndices

variable {indices more : List UInt16}

theorem congr (h : HoldsIndices buffers indices)
    (hsame : indexBuffers new = indexBuffers buffers) : HoldsIndices new indices :=
  ⟨fun hnil => hsame.trans (h.none hnil), fun hne => by rw [hsame]; exact h.one hne⟩

theorem of_singleton {b : Buffer} (hbuffers : indexBuffers buffers = [b])
    (hformat : b.format = indexFormat) (hlength : b.bytes.length = b.size)
    (hvalues : b.values = .ok (indices.map indexValue)) (hne : indices ≠ []) :
    HoldsIndices buffers indices :=
  ⟨fun hnil => (hne hnil).elim,
    fun _ => ⟨b, hbuffers, by rw [hformat]; exact named_indexFormat, hlength, hvalues⟩⟩

theorem eq_nil (h : HoldsIndices buffers indices) (hi : indexOfKind? buffers .index = .none) :
    indices = [] := by
  by_contra hheld
  obtain ⟨b, hb, -⟩ := h.one hheld
  rw [indexBuffers_eq_nil hi] at hb
  cases hb

theorem ne_nil {i : Nat} (h : HoldsIndices buffers indices)
    (hi : indexOfKind? buffers .index = some i) : indices ≠ [] := by
  obtain ⟨old, hold, hkind⟩ := exists_of_findIdx?_eq_some hi
  intro hnil
  exact List.filter_eq_nil_iff.1 (h.none hnil) old (List.mem_of_getElem? hold) hkind

theorem exists_appendIndices_first (hi : indexOfKind? buffers .index = .none) (hmore : more ≠ []) :
    ∃ new, appendIndices buffers (more.map indexValue) = .ok new ∧ HoldsIndices new more := by
  have hempty : (Buffer.ofFormat .index indexFormat).values =
      .ok (([] : List UInt16).map indexValue) := rfl
  obtain ⟨after, hafter, hkind, hformat, hlength, hvalues⟩ :=
    Buffer.exists_setData_indices rfl rfl hempty hmore
  have hset : (buffers ++ [Buffer.ofFormat .index indexFormat]).set buffers.length after =
      buffers ++ [after] := by
    rw [List.set_append_right _ _ (Nat.le_refl _), Nat.sub_self]
    rfl
  refine ⟨buffers ++ [after], ?_, of_singleton (b := after) ?_ hformat hlength hvalues hmore⟩
  · unfold appendIndices
    rw [hi]
    dsimp only
    rw [named_indexFormat]
    exact (updateAt_eq List.getElem?_concat_length hafter).trans (congrArg Except.ok hset)
  · rw [indexBuffers_append, indexBuffers_eq_nil hi, indexBuffers_cons_of_eq hkind]
    rfl

/-- Further indices are added behind those that the table holds. -/
theorem exists_appendIndices (h : HoldsIndices buffers indices) (hmore : more ≠ []) :
    ∃ new, appendIndices buffers (more.map indexValue) = .ok new ∧
      HoldsIndices new (indices ++ more) := by
  have hne : indices ++ more ≠ [] := fun hnil => hmore (List.append_eq_nil_iff.1 hnil).2
  cases hi : indexOfKind? buffers .index with
  | none =>
    obtain rfl := h.eq_nil hi
    exact exists_appendIndices_first hi hmore
  | some i =>
    obtain ⟨b, hbuffers, hnamed, hlength, hvalues⟩ := h.one (h.ne_nil hi)
    have hformat : b.format = indexFormat :=
      Except.ok.inj (hnamed.symm.trans named_indexFormat)
    obtain ⟨after, hafter, hsame, hformat', hlength', hvalues'⟩ :=
      Buffer.exists_setData_indices hformat hlength hvalues hmore
    have hindex : b.kind = .index := by
      have hmem : b ∈ indexBuffers buffers := hbuffers ▸ List.mem_singleton_self b
      exact of_decide_eq_true (List.mem_filter.1 hmem).2
    obtain ⟨hb, hset⟩ := indexBuffers_set_index hbuffers hi (hsame.trans hindex)
    refine ⟨buffers.set i after, ?_, of_singleton hset hformat' hlength' hvalues' hne⟩
    unfold appendIndices
    rw [hi]
    exact updateAt_eq hb hafter

end HoldsIndices

theorem indexBuffers_of_updateAt {i : Nat} {change : Buffer → Except (Failure BufferError) Buffer}
    (h : updateAt buffers i change = .ok new)
    (hold : ∀ b, buffers[i]? = some b → b.kind ≠ .index)
    (hchange : ∀ b c, change b = .ok c → c.kind = b.kind) :
    indexBuffers new = indexBuffers buffers := by
  obtain ⟨b, c, hb, hc, rfl⟩ := exists_of_updateAt h
  have hkind := hold b hb
  exact indexBuffers_set hb hkind (by rwa [hchange b c hc])

theorem indexBuffers_of_setDepthFormat {format : Format}
    (h : setDepthFormat buffers format = .ok new) : indexBuffers new = indexBuffers buffers := by
  unfold setDepthFormat at h
  split at h
  · next i hi =>
    refine indexBuffers_of_updateAt h (fun b hb => ?_) fun b c hc => by cases hc; rfl
    rw [kind_of_indexOfKind? hi b hb]
    decide
  · obtain ⟨color, -, h⟩ := exists_of_bind_eq_ok h
    cases h
    exact indexBuffers_append_of_ne (List.forall_mem_singleton.2 (by simp [Buffer.ofFormat]))

theorem indexBuffers_setFramebufferSize (width height : Nat) :
    indexBuffers (setFramebufferSize buffers width height) = indexBuffers buffers := by
  refine indexBuffers_map (fun b => ?_) fun b hb => if_neg (by simp [hb])
  split <;> rfl

theorem indexBuffers_addColumns (columns : List (Nat × Format)) :
    indexBuffers (buffers ++ columns.map columnBuffer) = indexBuffers buffers := by
  refine indexBuffers_append_of_ne ?_
  intro b hb
  obtain ⟨column, -, rfl⟩ := List.mem_map.1 hb
  simp [columnBuffer, Buffer.ofFormat]

theorem indexBuffers_of_appendRow {cells : List (Nat × List Value)}
    (h : appendRow cells buffers = .ok new)
    (hcells : ∀ p ∈ cells, ∀ b, buffers[p.1]? = some b → b.kind = .vertex) :
    indexBuffers new = indexBuffers buffers := by
  induction cells generalizing buffers with
  | nil => rw [Except.ok.inj h]
  | cons p rest ih =>
    obtain ⟨hp, hrest⟩ := List.forall_mem_cons.1 hcells
    obtain ⟨mid, hmid, h⟩ := exists_of_bind_eq_ok h
    obtain ⟨b, c, hb, hc, rfl⟩ := exists_of_updateAt hmid
    obtain ⟨-, bytes, -, rfl⟩ := Buffer.setData_eq_ok_iff.1 hc
    have hkind : b.kind ≠ .index := by simp [hp b hb]
    have hmore := ih h fun q hq x hx => by
      -- The cell before may have gone to the same buffer.
      by_cases hsame : p.1 = q.1
      · rw [← hsame, List.getElem?_set_self (List.getElem?_eq_some_iff.1 hb).1] at hx
        cases hx
        exact hp b hb
      · rw [List.getElem?_set_ne hsame] at hx
        exact hrest q hq x hx
    exact hmore.trans (indexBuffers_set hb hkind hkind)

theorem indexBuffers_of_runTestLine (hvalid : ValidTable buffers) {line : TestLine}
    (hread : line.WellRead) {operation? : Option Operation}
    (h : runTestLine line buffers = .ok (new, operation?)) :
    indexBuffers new = indexBuffers buffers := by
  cases (ensures_runTestLine hread).property_of_eq_ok h with
  | clear operation => rfl
  | bound hbinding hstep => exact indexBuffers_put hvalid (hstep.isBound hread)

end Tables

namespace Loading

variable {state new : Loading} {lines : List TestLine}

theorem indexBuffers_of_takeRequireLine (hvalid : ValidTable state.script.buffers)
    {line : List Char} (h : state.takeRequireLine line = .ok new) :
    indexBuffers new.script.buffers = indexBuffers state.script.buffers := by
  obtain ⟨asked, -, h⟩ := exists_of_bind_eq_ok h
  cases asked with
  | none =>
    cases h
    rfl
  | some asked =>
    cases asked with
    | framebuffer format =>
      obtain ⟨buffers, hbuffers, h⟩ := exists_of_bind_eq_ok h
      cases h
      obtain ⟨color, hcolor, hkind⟩ := hvalid.color
      refine indexBuffers_of_updateAt hbuffers (fun b hb => ?_) fun b c hc => by cases hc; rfl
      rw [hcolor] at hb
      cases hb
      simp [hkind]
    | depthStencil format =>
      obtain ⟨buffers, hbuffers, h⟩ := exists_of_bind_eq_ok h
      cases h
      exact indexBuffers_of_setDepthFormat hbuffers
    | framebufferSize width height =>
      cases h
      exact indexBuffers_setFramebufferSize width height
    | fenceTimeout | requirement =>
      cases h
      rfl

theorem indexBuffers_of_takeVertexLine (hstate : state.InStep lines) {line : List Char}
    (h : state.takeVertexLine line = .ok new) :
    indexBuffers new.script.buffers = indexBuffers state.script.buffers := by
  unfold takeVertexLine at h
  split at h
  · cases h
    rfl
  · next columns _ hcolumns =>
    obtain ⟨formats, -, h⟩ := exists_of_bind_eq_ok h
    obtain ⟨row, -, h⟩ := exists_of_bind_eq_ok h
    obtain ⟨buffers, hbuffers, h⟩ := exists_of_bind_eq_ok h
    cases h
    refine indexBuffers_of_appendRow hbuffers fun p hp b hb => ?_
    obtain ⟨format, c, hc, hkind, -⟩ := hstate.columns columns hcolumns p.1 (List.of_mem_zip hp).1
    rw [hb] at hc
    cases hc
    exact hkind
  · obtain ⟨columns, -, h⟩ := exists_of_bind_eq_ok h
    cases h
    exact indexBuffers_addColumns columns

theorem indexBuffers_of_takeTestLine (hvalid : ValidTable state.script.buffers) {number : Nat}
    {line : List Char} (h : state.takeTestLine number line = .ok new) :
    indexBuffers new.script.buffers = indexBuffers state.script.buffers := by
  obtain ⟨asked, hasked, h⟩ := exists_of_bind_eq_ok h
  cases asked with
  | none =>
    cases h
    rfl
  | some asked =>
    obtain ⟨⟨buffers, operation?⟩, hbuffers, h⟩ := exists_of_bind_eq_ok h
    cases h
    exact indexBuffers_of_runTestLine hvalid
      (wellRead_of_readTestLine (orInvalid_eq_ok_iff.1 hasked)) hbuffers

theorem indexBuffers_of_takeBodyLine (hstate : state.InStep lines)
    (hcurrent : state.current ≠ .indices) {number : Nat} {line : List Char}
    (h : state.takeBodyLine number line = .ok new) :
    indexBuffers new.script.buffers = indexBuffers state.script.buffers := by
  unfold takeBodyLine at h
  split at h
  · split at h <;> cases h
    rfl
  · cases h
    rfl
  · exact indexBuffers_of_takeRequireLine hstate.tracks.valid h
  · obtain ⟨body, -, h⟩ := exists_of_bind_eq_ok h
    cases h
    rfl
  · exact indexBuffers_of_takeVertexLine hstate h
  · next hindices => exact (hcurrent hindices).elim
  · exact indexBuffers_of_takeTestLine hstate.tracks.valid h

end Loading

end GpuScript
