import GpuScript.BufferTable
import GpuScript.Proofs.DataWriting
import GpuScript.Proofs.ReadLines

/-!
# Edits of the table of buffers

What the lines outside of test sections do to the buffers. They only add unbound buffers or change
unbound ones in place, they never change what a buffer is for, and only the framebuffer is given
other formats. A table in order therefore stays in order, and no edit of it fails.
-/

namespace GpuScript

def indexFormat : Format :=
  ⟨some "R16_UINT", none, [⟨.r, 16, .uint⟩], [.component .uint .uint16], by decide⟩

def byteFormat : Format :=
  ⟨some "R8_UINT", none, [⟨.r, 8, .uint⟩], [.component .uint .uint8], by decide⟩

theorem named_indexFormat : Format.named "R16_UINT" = .ok indexFormat := by
  decide +kernel

theorem placeholderFormat_eq : placeholderFormat = .ok byteFormat := by
  decide +kernel

theorem size_byteFormat : byteFormat.size = 1 := rfl

theorem accepts_indexFormat {values : List Value} (h : ∀ v ∈ values, v.scalar = .uint16) :
    indexFormat.Accepts values := by
  refine ⟨Nat.mod_one _, ?_⟩
  intro k v hv
  have hscalar : indexFormat.scalarAt k = .uint16 := by
    simp [Format.scalarAt, Format.scalars, Format.valuesPerElement, indexFormat, scalarsOf,
      Segment.scalar?]
  rw [hscalar]
  exact h v (List.mem_of_getElem? hv)

/-- Whether a buffer is what its kind asks for. Exactly the storage and uniform buffers are bound,
only bound ones record a size, and the index buffer is made of indices. -/
structure Buffer.InOrder (b : Buffer) : Prop where
  bound_iff : b.kind.IsBound ↔ b.binding ≠ none
  recorded : b.binding = none → b.recordedMax = 0
  indices : b.kind = .index → b.format = indexFormat

/-- Whether a table starts with the colour buffer, has each binding at most once, and every buffer
in it is in order. -/
structure ValidTable (buffers : List Buffer) : Prop where
  color : ∃ b, buffers[0]? = some b ∧ b.kind = .color
  inOrder : ∀ b ∈ buffers, b.InOrder
  unique : ∀ (i j : Nat) (b c : Buffer), buffers[i]? = some b → buffers[j]? = some c →
    b.binding ≠ none → b.binding = c.binding → i = j

/-- Whether a buffer is another one after an edit. -/
structure Edited (old new : Buffer) : Prop where
  kind : new.kind = old.kind
  binding : new.binding = old.binding
  recordedMax : new.recordedMax = old.recordedMax
  format : old.kind ≠ .color → old.kind ≠ .depth → new.format = old.format
  bound : old.binding ≠ none → new = old

/-- Whether a table is another one after edits: its buffers edited, and some unbound ones added. -/
structure KeepsBound (old new : List Buffer) : Prop where
  kept : ∀ (i : Nat) (b : Buffer), old[i]? = some b → ∃ c, new[i]? = some c ∧ Edited b c
  added : ∀ (i : Nat) (c : Buffer), new[i]? = some c → old[i]? = none →
    c.InOrder ∧ c.binding = none

namespace Edited

variable {a b c : Buffer}

theorem refl (b : Buffer) : Edited b b := ⟨rfl, rfl, rfl, fun _ _ => rfl, fun _ => rfl⟩

theorem trans (h : Edited a b) (h' : Edited b c) : Edited a c := by
  refine ⟨h'.kind.trans h.kind, h'.binding.trans h.binding, h'.recordedMax.trans h.recordedMax,
    ?_, ?_⟩
  · intro hcolor hdepth
    rw [← h.format hcolor hdepth]
    exact h'.format (by rwa [h.kind]) (by rwa [h.kind])
  · intro hbound
    rw [← h.bound hbound]
    exact h'.bound (by rwa [h.binding])

theorem inOrder (h : Edited a b) (ha : a.InOrder) : b.InOrder := by
  refine ⟨?_, ?_, ?_⟩
  · rw [h.kind, h.binding]
    exact ha.bound_iff
  · rw [h.binding, h.recordedMax]
    exact ha.recorded
  · intro hkind
    rw [h.kind] at hkind
    rw [h.format (by simp [hkind]) (by simp [hkind])]
    exact ha.indices hkind

end Edited

namespace KeepsBound

variable {a b c : List Buffer}

theorem refl (buffers : List Buffer) : KeepsBound buffers buffers := by
  refine ⟨fun i b h => ⟨b, h, .refl b⟩, ?_⟩
  intro i c h hnone
  rw [h] at hnone
  cases hnone

theorem trans (h : KeepsBound a b) (h' : KeepsBound b c) : KeepsBound a c := by
  constructor
  · intro i x hx
    obtain ⟨y, hy, hxy⟩ := h.kept i x hx
    obtain ⟨z, hz, hyz⟩ := h'.kept i y hy
    exact ⟨z, hz, hxy.trans hyz⟩
  · intro i z hz hnone
    cases hb : b[i]? with
    | none => exact h'.added i z hz hb
    | some y =>
      obtain ⟨w, hw, hyw⟩ := h'.kept i y hb
      rw [hz] at hw
      cases hw
      obtain ⟨hy, hunbound⟩ := h.added i y hb hnone
      exact ⟨hyw.inOrder hy, hyw.binding.trans hunbound⟩

theorem set {buffers : List Buffer} {i : Nat} {old new : Buffer} (hi : buffers[i]? = some old)
    (h : Edited old new) : KeepsBound buffers (buffers.set i new) := by
  constructor
  · intro j x hx
    by_cases hj : i = j
    · subst hj
      rw [hi] at hx
      cases hx
      exact ⟨new, List.getElem?_set_self (List.getElem?_eq_some_iff.1 hi).1, h⟩
    · exact ⟨x, by rw [List.getElem?_set_ne hj, hx], .refl x⟩
  · intro j x hx hnone
    have hlength := (List.getElem?_eq_some_iff.1 hx).1
    rw [List.length_set] at hlength
    have := List.getElem?_eq_none_iff.1 hnone
    omega

theorem append {buffers more : List Buffer} (h : ∀ c ∈ more, c.InOrder ∧ c.binding = none) :
    KeepsBound buffers (buffers ++ more) := by
  constructor
  · intro i x hx
    exact ⟨x, by rw [List.getElem?_append_left (List.getElem?_eq_some_iff.1 hx).1, hx], .refl x⟩
  · intro i x hx hnone
    rw [List.getElem?_append_right (List.getElem?_eq_none_iff.1 hnone)] at hx
    exact h x (List.mem_of_getElem? hx)

theorem map {buffers : List Buffer} {change : Buffer → Buffer}
    (h : ∀ b ∈ buffers, Edited b (change b)) : KeepsBound buffers (buffers.map change) := by
  constructor
  · intro i x hx
    exact ⟨change x, by rw [List.getElem?_map, hx, Option.map_some], h x (List.mem_of_getElem? hx)⟩
  · intro i x hx hnone
    rw [List.getElem?_map, hnone] at hx
    cases hx

/-- Edits leave the bound buffers where they are. -/
theorem getElem?_eq_some_iff (h : KeepsBound a b) {i : Nat} {x : Buffer} (hx : x.binding ≠ none) :
    b[i]? = some x ↔ a[i]? = some x := by
  constructor
  · intro hb
    cases ha : a[i]? with
    | none => exact (hx (h.added i x hb ha).2).elim
    | some y =>
      obtain ⟨z, hz, hedit⟩ := h.kept i y ha
      rw [hb] at hz
      cases hz
      rw [hedit.bound (by rwa [← hedit.binding])]
  · intro ha
    obtain ⟨y, hy, hedit⟩ := h.kept i x ha
    rwa [hedit.bound hx] at hy

end KeepsBound

theorem Edited.of_unbound {old new : Buffer} (hold : old.InOrder) (hkind : ¬ old.kind.IsBound)
    (hnew : new.kind = old.kind) (hbinding : new.binding = old.binding)
    (hrecorded : new.recordedMax = old.recordedMax)
    (hformat : old.kind ≠ .color → old.kind ≠ .depth → new.format = old.format) :
    Edited old new :=
  ⟨hnew, hbinding, hrecorded, hformat, fun h => (hkind (hold.bound_iff.2 h)).elim⟩

theorem Buffer.inOrder_ofFormat {kind : BufferKind} {format : Format} (hkind : ¬ kind.IsBound)
    (hindex : kind = .index → format = indexFormat) : (Buffer.ofFormat kind format).InOrder :=
  ⟨⟨fun h => (hkind h).elim, fun h => (h rfl).elim⟩, fun _ => rfl, hindex⟩

namespace ValidTable

variable {buffers new : List Buffer}

theorem binding_eq_none (hvalid : ValidTable buffers) {i : Nat} {b : Buffer}
    (hb : buffers[i]? = some b) (hkind : ¬ b.kind.IsBound) : b.binding = none := by
  by_contra hbound
  exact hkind ((hvalid.inOrder b (List.mem_of_getElem? hb)).bound_iff.2 hbound)

theorem keepsBound (hvalid : ValidTable buffers) (h : KeepsBound buffers new) :
    ValidTable new := by
  refine ⟨?_, ?_, ?_⟩
  · obtain ⟨b, hb, hcolor⟩ := hvalid.color
    obtain ⟨c, hc, hedit⟩ := h.kept 0 b hb
    exact ⟨c, hc, hedit.kind.trans hcolor⟩
  · intro c hc
    obtain ⟨i, hi⟩ := List.getElem?_of_mem hc
    cases hb : buffers[i]? with
    | none => exact (h.added i c hi hb).1
    | some b =>
      obtain ⟨d, hd, hedit⟩ := h.kept i b hb
      rw [hi] at hd
      cases hd
      exact hedit.inOrder (hvalid.inOrder b (List.mem_of_getElem? hb))
  · intro i j b c hb hc hbound hsame
    exact hvalid.unique i j b c ((h.getElem?_eq_some_iff hbound).1 hb)
      ((h.getElem?_eq_some_iff (hsame ▸ hbound)).1 hc) hbound hsame

end ValidTable

section Edits

variable {buffers : List Buffer}

theorem bufferAt_eq {i : Nat} {b : Buffer} (h : buffers[i]? = some b) :
    bufferAt buffers i = .ok b := by
  rw [bufferAt, h]

theorem updateAt_eq {i : Nat} {b c : Buffer}
    {change : Buffer → Except (Failure BufferError) Buffer} (h : buffers[i]? = some b)
    (hc : change b = .ok c) : updateAt buffers i change = .ok (buffers.set i c) := by
  rw [updateAt, bufferAt_eq h]
  simp only [bind, Except.bind]
  rw [hc]
  rfl

theorem exists_of_updateAt {i : Nat} {change : Buffer → Except (Failure BufferError) Buffer}
    (h : updateAt buffers i change = .ok new) :
    ∃ b c, buffers[i]? = some b ∧ change b = .ok c ∧ new = buffers.set i c := by
  obtain ⟨b, hb, h⟩ := exists_of_bind_eq_ok h
  obtain ⟨c, hc, h⟩ := exists_of_bind_eq_ok h
  cases h
  refine ⟨b, c, ?_, onBuffer_eq_ok_iff.1 hc, rfl⟩
  unfold bufferAt at hb
  split at hb <;> cases hb
  assumption

theorem exists_of_findIdx?_eq_some {p : Buffer → Bool} {i : Nat}
    (h : buffers.findIdx? p = some i) : ∃ b, buffers[i]? = some b ∧ p b = true := by
  obtain ⟨hi, hp, -⟩ := List.findIdx?_eq_some_iff_getElem.1 h
  exact ⟨buffers[i], List.getElem?_eq_getElem hi, hp⟩

theorem exists_updateAt_setFormat (hvalid : ValidTable buffers) {i : Nat} {b : Buffer}
    (hb : buffers[i]? = some b) (hkind : b.kind = .color ∨ b.kind = .depth) (format : Format) :
    ∃ new, updateAt buffers i (fun buffer => .ok (buffer.setFormat format)) = .ok new ∧
      KeepsBound buffers new := by
  have hunbound : ¬ b.kind.IsBound := by
    rcases hkind with h | h <;> simp [h, BufferKind.IsBound]
  have hedit : Edited b (b.setFormat format) := by
    refine .of_unbound (hvalid.inOrder b (List.mem_of_getElem? hb)) hunbound rfl rfl rfl ?_
    intro hcolor hdepth
    exact (hkind.elim hcolor hdepth).elim
  exact ⟨_, updateAt_eq hb rfl, .set hb hedit⟩

theorem exists_setDepthFormat (hvalid : ValidTable buffers) (format : Format) :
    ∃ new, setDepthFormat buffers format = .ok new ∧ KeepsBound buffers new := by
  unfold setDepthFormat
  split
  · next i hi =>
    obtain ⟨b, hb, hkind⟩ := exists_of_findIdx?_eq_some hi
    exact exists_updateAt_setFormat hvalid hb (.inr (of_decide_eq_true hkind)) format
  · obtain ⟨color, hcolor, -⟩ := hvalid.color
    rw [bufferAt_eq hcolor]
    refine ⟨_, rfl, .append ?_⟩
    intro c hc
    rw [List.mem_singleton.1 hc]
    have hnew : (Buffer.ofFormat .depth format).InOrder :=
      Buffer.inOrder_ofFormat (by simp [BufferKind.IsBound]) (by simp)
    exact ⟨⟨hnew.bound_iff, hnew.recorded, hnew.indices⟩, rfl⟩

theorem keepsBound_setFramebufferSize (hvalid : ValidTable buffers) (width height : Nat) :
    KeepsBound buffers (setFramebufferSize buffers width height) := by
  refine .map ?_
  intro b hb
  split
  · next hkind =>
    have hunbound : ¬ b.kind.IsBound := by
      rcases hkind with h | h <;> simp [h, BufferKind.IsBound]
    exact .of_unbound (hvalid.inOrder b hb) hunbound rfl rfl rfl fun _ _ => rfl
  · exact .refl b

theorem exists_appendAt (hvalid : ValidTable buffers) {i : Nat} {b : Buffer}
    (hb : buffers[i]? = some b) (hkind : ¬ b.kind.IsBound) {values : List Value}
    (h : b.format.Accepts values) :
    ∃ new, appendAt buffers i values = .ok new ∧ KeepsBound buffers new := by
  obtain ⟨c, hc⟩ := Buffer.exists_setData h (.inr (Nat.le_refl b.size))
  refine ⟨_, updateAt_eq hb hc, .set hb ?_⟩
  obtain ⟨-, bytes, -, rfl⟩ := Buffer.setData_eq_ok_iff.1 hc
  exact .of_unbound (hvalid.inOrder b (List.mem_of_getElem? hb)) hkind rfl rfl rfl fun _ _ => rfl

theorem exists_appendIndices (hvalid : ValidTable buffers) {values : List Value}
    (h : ∀ v ∈ values, v.scalar = .uint16) :
    ∃ new, appendIndices buffers values = .ok new ∧ KeepsBound buffers new := by
  unfold appendIndices
  split
  · next i hi =>
    obtain ⟨b, hb, hkind⟩ := exists_of_findIdx?_eq_some hi
    have hindex : b.kind = .index := of_decide_eq_true hkind
    have hformat := (hvalid.inOrder b (List.mem_of_getElem? hb)).indices hindex
    refine exists_appendAt hvalid hb (by simp [hindex, BufferKind.IsBound]) ?_
    rw [hformat]
    exact accepts_indexFormat h
  · rw [named_indexFormat]
    have hadded : KeepsBound buffers (buffers ++ [Buffer.ofFormat .index indexFormat]) := by
      refine .append ?_
      intro c hc
      rw [List.mem_singleton.1 hc]
      exact ⟨Buffer.inOrder_ofFormat (by simp [BufferKind.IsBound]) fun _ => rfl, rfl⟩
    obtain ⟨new, hnew, hkeeps⟩ := exists_appendAt (hvalid.keepsBound hadded)
      (b := Buffer.ofFormat .index indexFormat) List.getElem?_concat_length
      (by simp [Buffer.ofFormat, BufferKind.IsBound]) (accepts_indexFormat h)
    exact ⟨new, hnew, hadded.trans hkeeps⟩

/-- Whether an index is that of a buffer of vertex data with a format. -/
def IsColumn (buffers : List Buffer) (i : Nat) (format : Format) : Prop :=
  ∃ b, buffers[i]? = some b ∧ b.kind = .vertex ∧ b.format = format

theorem IsColumn.keepsBound {new : List Buffer} {i : Nat} {format : Format}
    (h : IsColumn buffers i format) (hkeeps : KeepsBound buffers new) :
    IsColumn new i format := by
  obtain ⟨b, hb, hkind, rfl⟩ := h
  obtain ⟨c, hc, hedit⟩ := hkeeps.kept i b hb
  exact ⟨c, hc, hedit.kind.trans hkind, hedit.format (by simp [hkind]) (by simp [hkind])⟩

theorem formatsAt_eq {columns : List Nat} {formats : List Format}
    (h : List.Forall₂ (IsColumn buffers) columns formats) :
    formatsAt buffers columns = .ok formats := by
  refine mapM_eq_ok_iff.2 (h.imp ?_)
  rintro i _ ⟨b, hb, -, rfl⟩
  rw [bufferAt_eq hb]
  rfl

theorem exists_formatsAt {columns : List Nat} (h : ∀ i ∈ columns, ∃ f, IsColumn buffers i f) :
    ∃ formats, formatsAt buffers columns = .ok formats ∧
      List.Forall₂ (IsColumn buffers) columns formats := by
  induction columns with
  | nil => exact ⟨[], rfl, .nil⟩
  | cons i rest ih =>
    obtain ⟨format, hcolumn⟩ := h i (List.mem_cons_self ..)
    obtain ⟨formats, -, hcolumns⟩ := ih fun j hj => h j (List.mem_cons_of_mem i hj)
    exact ⟨format :: formats, formatsAt_eq (.cons hcolumn hcolumns), .cons hcolumn hcolumns⟩

theorem exists_format_of_mem_zip {columns : List Nat} {formats : List Format}
    {row : List (List Value)} (hcolumns : List.Forall₂ (IsColumn buffers) columns formats)
    (hrow : List.Forall₂ Format.Accepts formats row) :
    ∀ p ∈ columns.zip row, ∃ format, IsColumn buffers p.1 format ∧ format.Accepts p.2 := by
  induction hcolumns generalizing row with
  | nil => simp
  | cons hcolumn hcolumns ih =>
    cases hrow with
    | cons hvalues hrow =>
      intro p hp
      rcases List.mem_cons.1 hp with rfl | hp
      · exact ⟨_, hcolumn, hvalues⟩
      · exact ih hrow p hp

theorem exists_appendRow (hvalid : ValidTable buffers) {cells : List (Nat × List Value)}
    (h : ∀ p ∈ cells, ∃ format, IsColumn buffers p.1 format ∧ format.Accepts p.2) :
    ∃ new, appendRow cells buffers = .ok new ∧ KeepsBound buffers new := by
  induction cells generalizing buffers with
  | nil => exact ⟨buffers, rfl, .refl buffers⟩
  | cons p rest ih =>
    obtain ⟨i, values⟩ := p
    obtain ⟨format, ⟨b, hb, hkind, rfl⟩, haccepts⟩ := h _ (List.mem_cons_self ..)
    obtain ⟨mid, hmid, hkeeps⟩ := exists_appendAt hvalid hb
      (by simp [hkind, BufferKind.IsBound]) haccepts
    obtain ⟨new, hnew, hrest⟩ := ih (hvalid.keepsBound hkeeps) fun q hq => by
      obtain ⟨format, hcolumn, hq⟩ := h q (List.mem_cons_of_mem _ hq)
      exact ⟨format, hcolumn.keepsBound hkeeps, hq⟩
    refine ⟨new, ?_, hkeeps.trans hrest⟩
    rw [appendRow, hmid]
    exact hnew

theorem exists_appendRow_of_readRow (hvalid : ValidTable buffers) {columns : List Nat}
    {formats : List Format} (hcolumns : List.Forall₂ (IsColumn buffers) columns formats)
    {tokens : List (List Char)} {row : List (List Value)} (hrow : readRow formats tokens = .ok row) :
    ∃ new, appendRow (columns.zip row) buffers = .ok new ∧ KeepsBound buffers new :=
  exists_appendRow hvalid (exists_format_of_mem_zip hcolumns (accepts_of_readRow hrow))

theorem keepsBound_addColumns (columns : List (Nat × Format)) :
    KeepsBound buffers (buffers ++ columns.map columnBuffer) := by
  refine .append ?_
  intro c hc
  obtain ⟨column, -, rfl⟩ := List.mem_map.1 hc
  have hnew : (Buffer.ofFormat .vertex column.2).InOrder :=
    Buffer.inOrder_ofFormat (by simp [BufferKind.IsBound]) (by simp)
  exact ⟨⟨hnew.bound_iff, hnew.recorded, hnew.indices⟩, rfl⟩

theorem isColumn_addColumns {columns : List (Nat × Format)} {k : Nat} (hk : k < columns.length) :
    IsColumn (buffers ++ columns.map columnBuffer) (buffers.length + k) columns[k].2 := by
  refine ⟨columnBuffer columns[k], ?_, rfl, rfl⟩
  rw [List.getElem?_append_right (Nat.le_add_right ..), Nat.add_sub_cancel_left,
    List.getElem?_map, List.getElem?_eq_getElem hk, Option.map_some]

end Edits

end GpuScript
