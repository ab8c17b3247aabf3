import GpuScript.Proofs.ElementEncoding
import GpuScript.Proofs.KeptColumns
import GpuScript.Proofs.RowCells
import Mathlib.Data.List.Nodup

/-!
# Rows of vertex data

After the header of the vertex data each column has an element for every row so far, in order. A row
adds one element to each column and is refused exactly if its words are not cells of the columns; no
other line changes a column.
-/

namespace GpuScript

/-- Some buffers with values put at the ends of them in turn, up to one that does not take its
values. -/
def appendCells :
    List (Nat × List Value) → List Buffer → List Buffer × Option (Failure LoadCause)
  | [], buffers => (buffers, none)
  | (index, values) :: rest, buffers =>
    match appendAt buffers index values with
    | .ok buffers => appendCells rest buffers
    | .error failure => (buffers, some failure)

/-- What becomes of some buffers when a row is put in place, and why the row is refused if it is. -/
def rowInPlace (columns : List Nat) (text : List Char) (buffers : List Buffer) :
    List Buffer × Option (Failure LoadCause) :=
  match formatsAt buffers columns with
  | .error failure => (buffers, some failure)
  | .ok formats =>
    match readRow formats (words text) with
    | .error error => (buffers, some (.error (.invalid error)))
    | .ok row => appendCells (columns.zip row) buffers

section Cells

variable {cells : List (Nat × List Value)} {buffers new : List Buffer}

theorem appendRow_eq_settle (cells : List (Nat × List Value)) (buffers : List Buffer) :
    appendRow cells buffers = settle (appendCells cells buffers) := by
  induction cells generalizing buffers with
  | nil => rfl
  | cons p rest ih =>
    simp only [appendRow, appendCells]
    cases appendAt buffers p.1 p.2 with
    | ok mid => exact ih mid
    | error failure => rfl

theorem appendCells_of_appendRow (h : appendRow cells buffers = .ok new) :
    appendCells cells buffers = (new, none) := by
  rw [appendRow_eq_settle] at h
  unfold settle at h
  split at h
  · next heq =>
    rw [heq, Except.ok.inj h]
  · cases h

theorem getElem?_of_appendRow (h : appendRow cells buffers = .ok new) {i : Nat}
    (hi : i ∉ cells.map Prod.fst) : new[i]? = buffers[i]? := by
  induction cells generalizing buffers with
  | nil => rw [Except.ok.inj h]
  | cons p rest ih =>
    obtain ⟨mid, hmid, hrest⟩ := exists_of_bind_eq_ok h
    obtain ⟨b, c, -, -, rfl⟩ := exists_of_updateAt hmid
    rw [List.map_cons, List.mem_cons, not_or] at hi
    rw [ih hrest hi.2, List.getElem?_set_ne (Ne.symm hi.1)]

theorem exists_of_appendRow (h : appendRow cells buffers = .ok new)
    (hnodup : (cells.map Prod.fst).Nodup) {p : Nat × List Value} (hp : p ∈ cells) :
    ∃ b c, buffers[p.1]? = some b ∧ b.setData p.2 b.size = .ok c ∧ new[p.1]? = some c := by
  induction cells generalizing buffers with
  | nil => cases hp
  | cons q rest ih =>
    obtain ⟨mid, hmid, hrest⟩ := exists_of_bind_eq_ok h
    obtain ⟨b, c, hb, hc, rfl⟩ := exists_of_updateAt hmid
    obtain ⟨hfirst, hnodup⟩ := List.nodup_cons.1 hnodup
    rcases List.mem_cons.1 hp with rfl | hp
    · refine ⟨b, c, hb, hc, ?_⟩
      rw [getElem?_of_appendRow hrest hfirst]
      exact List.getElem?_set_self (List.getElem?_eq_some_iff.1 hb).1
    · obtain ⟨d, e, hd, he, hnew⟩ := ih hrest hnodup hp
      have hne : q.1 ≠ p.1 := fun heq => hfirst (heq ▸ List.mem_map_of_mem hp)
      exact ⟨d, e, by rwa [List.getElem?_set_ne hne] at hd, he, hnew⟩

end Cells

namespace Loading

variable {state next : Loading}

theorem takeRow_eq_settle (state : Loading) (columns : List Nat) (text : List Char) :
    state.takeRow columns text =
      (settle (rowInPlace columns text state.script.buffers)).map state.setBuffers := by
  unfold takeRow rowInPlace
  cases formatsAt state.script.buffers columns with
  | error failure => rfl
  | ok formats =>
    cases hrow : readRow formats (words text) with
    | error error =>
      simp only [bind, Except.bind, hrow]
      rfl
    | ok row =>
      simp only [bind, Except.bind, hrow, orInvalid, appendRow_eq_settle]
      rfl

def columnIndices (first : Nat) (columns : List (Nat × Format)) : List Nat :=
  (List.range columns.length).map (first + ·)

theorem nodup_columnIndices (first : Nat) (columns : List (Nat × Format)) :
    (columnIndices first columns).Nodup :=
  List.Nodup.map (fun _ _ => Nat.add_left_cancel) List.nodup_range

theorem getElem?_columnIndices {first k : Nat} {columns : List (Nat × Format)}
    (hk : k < columns.length) : (columnIndices first columns)[k]? = some (first + k) := by
  rw [columnIndices, List.getElem?_map, List.getElem?_range hk, Option.map_some]

/-- Whether the columns of vertex data stand behind a number of other buffers, each with one element
for every row so far. -/
structure HoldsRows (first : Nat) (columns : List (Nat × Format))
    (rows : List (List (List Value))) (state : Loading) : Prop where
  vertexData : state.vertexData = .rows (columnIndices first columns)
  column : ∀ (k : Nat) (column : Nat × Format), columns[k]? = some column →
    ∃ bytes, column.2.encodeElements (rows.map fun row => row.getD k []) = .ok bytes ∧
      bytes.length = rows.length * column.2.size ∧
      state.script.buffers[first + k]? =
        some { columnBuffer column with elementCount := rows.length, bytes := bytes }

namespace HoldsRows

variable {first : Nat} {columns : List (Nat × Format)} {rows : List (List (List Value))}

theorem keepsColumns (h : state.HoldsRows first columns rows) (hkeeps : state.KeepsColumns next) :
    next.HoldsRows first columns rows := by
  refine ⟨hkeeps.vertexData.trans h.vertexData, ?_⟩
  intro k column hcolumn
  obtain ⟨bytes, hbytes, hlength, hbuffer⟩ := h.column k column hcolumn
  exact ⟨bytes, hbytes, hlength, hkeeps.buffers _ _ hbuffer rfl⟩

theorem isColumns (h : state.HoldsRows first columns rows) :
    List.Forall₂ (IsColumn state.script.buffers) (columnIndices first columns)
      (columns.map Prod.snd) := by
  refine List.forall₂_iff_get.2 ⟨by simp [columnIndices], ?_⟩
  intro k hk hk'
  rw [List.length_map] at hk'
  obtain ⟨bytes, -, -, hbuffer⟩ := h.column k _ (List.getElem?_eq_getElem hk')
  refine ⟨{ columnBuffer columns[k] with elementCount := rows.length, bytes := bytes }, ?_, rfl, ?_⟩
  · simpa [columnIndices] using hbuffer
  · simp [columnBuffer, Buffer.ofFormat]

theorem formatsAt_eq (h : state.HoldsRows first columns rows) :
    formatsAt state.script.buffers (columnIndices first columns) =
      .ok (columns.map Prod.snd) :=
  GpuScript.formatsAt_eq h.isColumns

theorem exists_appendRow (h : state.HoldsRows first columns rows)
    (hvalid : ValidTable state.script.buffers) {tokens : List (List Char)}
    {row : List (List Value)} (hrow : readRow (columns.map Prod.snd) tokens = .ok row) :
    ∃ buffers, appendRow ((columnIndices first columns).zip row) state.script.buffers =
      .ok buffers := by
  obtain ⟨buffers, hbuffers, -⟩ := exists_appendRow_of_readRow hvalid h.isColumns hrow
  exact ⟨buffers, hbuffers⟩

theorem exists_takeRow_iff (h : state.HoldsRows first columns rows)
    (hvalid : ValidTable state.script.buffers) (text : List Char) :
    (∃ next, state.takeRow (columnIndices first columns) text = .ok next) ↔
      ∃ row, IsRow (columns.map Prod.snd) (words text) row := by
  constructor
  · rintro ⟨next, htake⟩
    obtain ⟨formats, hformats, htake⟩ := exists_of_bind_eq_ok htake
    obtain ⟨row, hrow, -⟩ := exists_of_bind_eq_ok htake
    obtain rfl := Except.ok.inj (h.formatsAt_eq.symm.trans hformats)
    exact ⟨row, readRow_eq_ok_iff.1 (orInvalid_eq_ok_iff.1 hrow)⟩
  · rintro ⟨row, hrow⟩
    rw [← readRow_eq_ok_iff] at hrow
    obtain ⟨next, hnext, -⟩ := Loading.exists_takeRow hvalid h.isColumns hrow
    exact ⟨next, hnext⟩

theorem eq_of_rowInPlace (h : state.HoldsRows first columns rows)
    (hvalid : ValidTable state.script.buffers) {text : List Char} {buffers : List Buffer}
    {failure : Failure LoadCause}
    (hplace : rowInPlace (columnIndices first columns) text state.script.buffers =
      (buffers, some failure)) : buffers = state.script.buffers := by
  rw [rowInPlace, h.formatsAt_eq] at hplace
  cases hrow : readRow (columns.map Prod.snd) (words text) with
  | error error =>
    simp only [hrow] at hplace
    exact (Prod.mk.inj hplace).1.symm
  | ok row =>
    obtain ⟨new, hnew⟩ := h.exists_appendRow hvalid hrow
    simp only [hrow, appendCells_of_appendRow hnew] at hplace
    cases hplace

/-- A row adds an element to each column. -/
theorem takeRow (h : state.HoldsRows first columns rows)
    (hunpadded : ∀ column ∈ columns, Unpadded column.2.segments) {text : List Char}
    (htake : state.takeRow (columnIndices first columns) text = .ok next) :
    ∃ row, IsRow (columns.map Prod.snd) (words text) row ∧
      next.HoldsRows first columns (rows ++ [row]) := by
  obtain ⟨formats, hformats, htake⟩ := exists_of_bind_eq_ok htake
  obtain ⟨row, hrow, htake⟩ := exists_of_bind_eq_ok htake
  obtain ⟨buffers, hbuffers, htake⟩ := exists_of_bind_eq_ok htake
  cases htake
  rw [h.formatsAt_eq] at hformats
  cases hformats
  rw [orInvalid_eq_ok_iff] at hrow
  refine ⟨row, readRow_eq_ok_iff.1 hrow, h.vertexData, ?_⟩
  intro k column hcolumn
  obtain ⟨bytes, hbytes, hlength, hbuffer⟩ := h.column k column hcolumn
  obtain ⟨hk, rfl⟩ := List.getElem?_eq_some_iff.1 hcolumn
  have hfor := isFor_of_readRow hrow
  have hcount : row.length = columns.length := by
    rw [← hfor.length_eq, List.length_map]
  have hvalues := hfor.get (i := k) (by rwa [List.length_map]) (hcount ▸ hk)
  rw [List.get_eq_getElem, List.getElem_map] at hvalues
  have hcell : (first + k, row[k]) ∈ (columnIndices first columns).zip row :=
    List.mem_of_getElem? (List.getElem?_zip_eq_some.2
      ⟨getElem?_columnIndices hk, List.getElem?_eq_getElem (hcount ▸ hk)⟩)
  have hnodup : (((columnIndices first columns).zip row).map Prod.fst).Nodup := by
    rw [List.map_fst_zip (by simp [columnIndices, hcount])]
    exact nodup_columnIndices first columns
  obtain ⟨b, c, hb, hc, hnew⟩ := exists_of_appendRow hbuffers hnodup hcell
  obtain rfl := Option.some.inj (hbuffer.symm.trans hb)
  obtain ⟨more, hmore, hmoreLength, hset⟩ := Buffer.exists_setData_at_end
    (b := { columnBuffer columns[k] with elementCount := rows.length, bytes := bytes })
    (hunpadded _ (List.getElem_mem hk)) hlength hvalues
  obtain rfl := Except.ok.inj (hset.symm.trans hc)
  refine ⟨bytes ++ more, ?_, ?_, ?_⟩
  · rw [List.map_append, List.map_singleton, List.getD_eq_getElem?_getD,
      List.getElem?_eq_getElem (hcount ▸ hk), Option.getD_some]
    exact Format.encodeElements_concat hbytes hmore
  · rw [List.length_append, hlength, hmoreLength, List.length_append, List.length_singleton,
      Nat.succ_mul]
    rfl
  · rw [List.length_append]
    exact hnew

end HoldsRows

/-- The words of a line whose tokens were replaced, if it is a row of vertex data. -/
def rowWords? (state : Loading) (text : List Char) : Option (List (List Char)) :=
  if text.head? = some '[' ∨ state.current ≠ .vertexData then none
  else
    match state.vertexData with
    | .rows _ => (content? text).map words
    | _ => none

/-- The rows of vertex data among some logical lines, up to a line that cannot be taken in. -/
def vertexRows (settings : Settings) : Loading → List NumberedLine → List (List (List Char))
  | _, [] => []
  | state, line :: rest =>
    match state.step settings line with
    | .ok next =>
      let here := (replaceTokens settings.rules replacementLimit line.text).bind state.rowWords?
      here.toList ++ next.vertexRows settings rest
    | .error _ => []

namespace HoldsRows

variable {first : Nat} {columns : List (Nat × Format)} {rows : List (List (List Value))}

theorem of_not_row {text : List Char} (h : next.HoldsRows first columns rows)
    (hrow : state.rowWords? text = none) :
    ∃ more, List.Forall₂ (IsRow (columns.map Prod.snd)) (state.rowWords? text).toList more ∧
      next.HoldsRows first columns (rows ++ more) := by
  refine ⟨[], ?_, ?_⟩
  · rw [hrow]
    exact .nil
  · rwa [List.append_nil]

theorem takeVertexLine (h : state.HoldsRows first columns rows)
    (hunpadded : ∀ column ∈ columns, Unpadded column.2.segments)
    (hcurrent : state.current = .vertexData) {text : List Char} (hbracket : text.head? ≠ some '[')
    (htake : state.takeVertexLine text = .ok next) :
    ∃ more, List.Forall₂ (IsRow (columns.map Prod.snd)) (state.rowWords? text).toList more ∧
      next.HoldsRows first columns (rows ++ more) := by
  have hwords : state.rowWords? text = (content? text).map words := by
    rw [rowWords?, if_neg (by simp [hcurrent, hbracket]), h.vertexData]
  rw [Loading.takeVertexLine, h.vertexData] at htake
  cases hcontent : content? text with
  | none =>
    rw [hcontent] at htake hwords
    cases htake
    exact h.of_not_row hwords
  | some row =>
    rw [hcontent] at htake hwords
    obtain ⟨values, hvalues, hnext⟩ := h.takeRow hunpadded htake
    refine ⟨[values], ?_, hnext⟩
    rw [hwords]
    exact .cons hvalues .nil

/-- A line adds a row if it is one, and leaves the columns otherwise. -/
theorem takeLine (h : state.HoldsRows first columns rows)
    (hunpadded : ∀ column ∈ columns, Unpadded column.2.segments)
    (hvalid : ValidTable state.script.buffers) {number : Nat} {text : List Char}
    (htake : state.takeLine number text = .ok next) :
    ∃ more, List.Forall₂ (IsRow (columns.map Prod.snd)) (state.rowWords? text).toList more ∧
      next.HoldsRows first columns (rows ++ more) := by
  unfold Loading.takeLine at htake
  split at htake
  · refine (h.keepsColumns (keepsColumns_of_takeHeader ?_ htake)).of_not_row (by simp [rowWords?])
    simp [h.vertexData]
  · next htext =>
    by_cases hcurrent : state.current = .vertexData
    · rw [takeBodyLine, hcurrent] at htake
      refine h.takeVertexLine hunpadded hcurrent ?_ htake
      intro hhead
      obtain ⟨rest, hrest⟩ := List.head?_eq_some_iff.1 hhead
      exact htext rest hrest
    · exact (h.keepsColumns (keepsColumns_of_takeBodyLine hvalid hcurrent htake)).of_not_row
        (by simp [rowWords?, hcurrent])

/-- A run over further lines adds the rows among them. -/
theorem run {settings : Settings} {asked : List TestLine} (h : state.HoldsRows first columns rows)
    (hunpadded : ∀ column ∈ columns, Unpadded column.2.segments) (hstate : state.InStep asked)
    {lines : List NumberedLine} {after : Loading} (hrun : state.run settings lines = .ok after) :
    ∃ more, List.Forall₂ (IsRow (columns.map Prod.snd)) (state.vertexRows settings lines) more ∧
      after.HoldsRows first columns (rows ++ more) := by
  induction lines generalizing state rows asked with
  | nil =>
    cases hrun
    exact ⟨[], .nil, by rwa [List.append_nil]⟩
  | cons line rest ih =>
    obtain ⟨next, hstep, hrun⟩ := exists_of_bind_eq_ok hrun
    obtain ⟨text, htext, htake⟩ := step_eq_ok_iff.1 hstep
    have hnext := (ensures_step settings hstate line).property_of_eq_ok hstep
    obtain ⟨here, hhere, hrows⟩ := h.takeLine hunpadded hstate.tracks.valid htake
    obtain ⟨more, hmore, hafter⟩ := ih hrows hnext hrun
    refine ⟨here ++ more, ?_, List.append_assoc .. ▸ hafter⟩
    rw [vertexRows, hstep, htext]
    exact List.rel_append hhere hmore

end HoldsRows

theorem holdsRows_of_takeColumns {names : List Char} {columns : List (Nat × Format)}
    (hcolumns : readColumns names = .ok columns) (htake : state.takeColumns names = .ok next) :
    next.HoldsRows state.script.buffers.length columns [] := by
  rw [takeColumns, hcolumns] at htake
  cases htake
  refine ⟨rfl, ?_⟩
  intro k column hcolumn
  refine ⟨[], rfl, (Nat.zero_mul _).symm, ?_⟩
  have hbuffer : (state.script.buffers ++ columns.map columnBuffer)[
      state.script.buffers.length + k]? = some (columnBuffer column) := by
    rw [List.getElem?_append_right (Nat.le_add_right ..), Nat.add_sub_cancel_left,
      List.getElem?_map, hcolumn, Option.map_some]
  exact hbuffer

theorem HoldsRows.prefix_column {first : Nat} {columns : List (Nat × Format)}
    {rows more : List (List (List Value))} (h : state.HoldsRows first columns rows)
    (hnext : next.HoldsRows first columns (rows ++ more)) {k : Nat} (hk : k < columns.length) :
    ∃ old new, state.script.buffers[first + k]? = some old ∧
      next.script.buffers[first + k]? = some new ∧ old.bytes <+: new.bytes := by
  obtain ⟨bytes, hbytes, -, hold⟩ := h.column k _ (List.getElem?_eq_getElem hk)
  obtain ⟨all, hall, -, hnew⟩ := hnext.column k _ (List.getElem?_eq_getElem hk)
  rw [List.map_append, Format.encodeElements_append hbytes] at hall
  obtain ⟨added, -, rfl⟩ := exists_of_map_eq_ok hall
  exact ⟨_, _, hold, hnew, List.prefix_append ..⟩

/-- Whether a line of a section of vertex data has some content, which is not a header. -/
structure IsDataLine (settings : Settings) (state : Loading) (line : NumberedLine)
    (content : List Char) : Prop where
  current : state.current = .vertexData
  content : ∃ text, replaceTokens settings.rules replacementLimit line.text = some text ∧
    text.head? ≠ some '[' ∧ content? text = some content

section Data

variable {settings : Settings} {line : NumberedLine} {content : List Char}

namespace IsDataLine

theorem exists_text (h : state.IsDataLine settings line content) :
    ∃ text, content? text = some content ∧
      (state.step settings line = .ok next ↔ state.takeVertexLine text = .ok next) := by
  obtain ⟨hcurrent, text, htext, hbracket, hcontent⟩ := h
  refine ⟨text, hcontent, ?_⟩
  simp only [Loading.step_eq_ok_iff, htext, Option.some.injEq, exists_eq_left',
    takeLine_of_ne_bracket hbracket, takeBodyLine, hcurrent]

theorem step_eq_ok_iff_of_header (h : state.IsDataLine settings line content)
    (hdata : state.vertexData = .header) :
    state.step settings line = .ok next ↔ state.takeColumns content = .ok next := by
  obtain ⟨text, htext, hstep⟩ := h.exists_text
  rw [hstep, takeVertexLine, htext, hdata]

theorem step_eq_ok_iff_of_rows (h : state.IsDataLine settings line content)
    {columns : List Nat} (hdata : state.vertexData = .rows columns) :
    state.step settings line = .ok next ↔ state.takeRow columns content = .ok next := by
  obtain ⟨text, htext, hstep⟩ := h.exists_text
  rw [hstep, takeVertexLine, htext, hdata]

theorem rowWords?_of_header (h : state.IsDataLine settings line content)
    (hdata : state.vertexData = .header) :
    (replaceTokens settings.rules replacementLimit line.text).bind state.rowWords? = none := by
  obtain ⟨-, text, htext, -, -⟩ := h
  rw [htext, Option.bind_some, rowWords?, hdata]
  exact ite_self _

end IsDataLine

end Data

end Loading

/-- Once a header of vertex data has been taken in, its columns hold an element for every row that
followed, in order. A further line keeps the bytes that are there; one with content is taken in
exactly if its words are cells for the components of the columns, and if it is put in place and
refused, no buffer has changed. -/
theorem Loading.holdsRows_of_run {settings : Settings} {start opened after : Loading}
    {before lines : List NumberedLine} {header : NumberedLine} {names : List Char}
    {columns : List (Nat × Format)} (hstart : Loading.start settings = .ok start)
    (hbefore : start.run settings before = .ok opened) (hawaited : opened.vertexData = .header)
    (hheader : opened.IsDataLine settings header names)
    (hcolumns : readColumns names = .ok columns)
    (hrun : opened.run settings (header :: lines) = .ok after) :
    ∃ rows : List (List (List Value)),
      List.Forall₂ (IsRow (columns.map Prod.snd)) (opened.vertexRows settings (header :: lines))
        rows ∧
      after.HoldsRows opened.script.buffers.length columns rows ∧
      (∀ line next, after.step settings line = .ok next → ∀ k < columns.length, ∃ old new : Buffer,
        after.script.buffers[opened.script.buffers.length + k]? = some old ∧
        next.script.buffers[opened.script.buffers.length + k]? = some new ∧
        old.bytes <+: new.bytes) ∧
      ∀ (line : NumberedLine) (content : List Char), after.IsDataLine settings line content →
        ((∃ next, after.step settings line = .ok next) ↔
          (words content).length = (columns.map fun column => column.2.valuesPerElement).sum ∧
          ∀ (k : Nat) (component : Bool × Scalar) (word : List Char),
            (rowComponents (columns.map Prod.snd))[k]? = some component →
            (words content)[k]? = some word → ∃ value, IsCell component word value) ∧
        (∀ next, after.step settings line = .ok next ↔
          (settle (rowInPlace (columnIndices opened.script.buffers.length columns) content
            after.script.buffers)).map after.setBuffers = .ok next) ∧
        ∀ buffers failure,
          rowInPlace (columnIndices opened.script.buffers.length columns) content
            after.script.buffers = (buffers, some failure) → buffers = after.script.buffers := by
  obtain ⟨state, hstate, hsteps⟩ := exists_start settings
  obtain rfl := Except.ok.inj (hstart.symm.trans hstate)
  have hopened := (ensures_run settings hsteps before).property_of_eq_ok hbefore
  have hafter := (ensures_run settings hopened (header :: lines)).property_of_eq_ok hrun
  have hunpadded := unpadded_of_readColumns hcolumns
  obtain ⟨table, htable, hlines⟩ := exists_of_bind_eq_ok hrun
  have hnext := (ensures_step settings hopened header).property_of_eq_ok htable
  have hempty := holdsRows_of_takeColumns hcolumns
    ((hheader.step_eq_ok_iff_of_header hawaited).1 htable)
  obtain ⟨rows, hrows, hholds⟩ := hempty.run hunpadded hnext hlines
  rw [List.nil_append] at hholds
  refine ⟨rows, ?_, hholds, ?_, ?_⟩
  · rwa [vertexRows, htable, hheader.rowWords?_of_header hawaited]
  · intro line next hstep k hk
    obtain ⟨text, -, htake⟩ := step_eq_ok_iff.1 hstep
    obtain ⟨more, -, hmore⟩ := hholds.takeLine hunpadded hafter.tracks.valid htake
    exact hholds.prefix_column hmore hk
  · intro line content hdata
    have hstep : ∀ {next}, after.step settings line = .ok next ↔ _ :=
      hdata.step_eq_ok_iff_of_rows hholds.vertexData
    refine ⟨?_, ?_, fun buffers failure => hholds.eq_of_rowInPlace hafter.tracks.valid⟩
    · simp only [hstep]
      rw [hholds.exists_takeRow_iff hafter.tracks.valid, exists_isRow_iff, List.map_map]
      rfl
    · intro next
      rw [hstep, takeRow_eq_settle]

/-- Two rows for a column of two bytes and one of packed words, which alone take base sixteen. -/
theorem Loading.holdsRows_of_packed_column :
    ∃ start opened after columns, Loading.start {} = .ok start ∧
      start.run {} [⟨1, "[vertex data]\n".toList⟩] = .ok opened ∧ opened.vertexData = .header ∧
      opened.IsDataLine {} ⟨2, "0/R8G8_UINT 1/R5G6B5_UNORM_PACK16\n".toList⟩
        "0/R8G8_UINT 1/R5G6B5_UNORM_PACK16".toList ∧
      readColumns "0/R8G8_UINT 1/R5G6B5_UNORM_PACK16".toList = .ok columns ∧
      opened.run {} [⟨2, "0/R8G8_UINT 1/R5G6B5_UNORM_PACK16\n".toList⟩,
        ⟨3, "1 2 0x0304\n".toList⟩, ⟨4, "# none\n".toList⟩, ⟨5, "5 6 7 # last\n".toList⟩] =
          .ok after ∧
      after.script.buffers.map Buffer.bytes = [[], [1, 2, 5, 6], [4, 3, 7, 0]] ∧
      (∃ rows, after.HoldsRows opened.script.buffers.length columns rows) ∧
      after.IsDataLine {} ⟨6, "1 0x2 3\n".toList⟩ "1 0x2 3".toList ∧
      ¬ ∃ next, after.step {} ⟨6, "1 0x2 3\n".toList⟩ = .ok next := by
  have hrules : ({} : Settings).rules = [] := rfl
  have hread : ∃ columns, readColumns "0/R8G8_UINT 1/R5G6B5_UNORM_PACK16".toList = .ok columns ∧
      (rowComponents (columns.map Prod.snd))[1]? = some (false, .uint8) := by
    decide +kernel
  have hruns : ∃ start, Loading.start {} = .ok start ∧
      ∃ opened, start.run {} [⟨1, "[vertex data]\n".toList⟩] = .ok opened ∧
      opened.vertexData = .header ∧ opened.current = .vertexData ∧
      ∃ after, opened.run {} [⟨2, "0/R8G8_UINT 1/R5G6B5_UNORM_PACK16\n".toList⟩,
        ⟨3, "1 2 0x0304\n".toList⟩, ⟨4, "# none\n".toList⟩, ⟨5, "5 6 7 # last\n".toList⟩] =
          .ok after ∧
      after.script.buffers.map Buffer.bytes = [[], [1, 2, 5, 6], [4, 3, 7, 0]] ∧
      after.current = .vertexData := by
    simp only [run_of_no_rules hrules]
    decide +kernel
  obtain ⟨columns, hcolumns, hcomponent⟩ := hread
  obtain ⟨start, hstart, opened, hopened, hawaited, hcurrent, after, hafter, hbytes, hlast⟩ := hruns
  have hheader : opened.IsDataLine {} ⟨2, "0/R8G8_UINT 1/R5G6B5_UNORM_PACK16\n".toList⟩
      "0/R8G8_UINT 1/R5G6B5_UNORM_PACK16".toList :=
    ⟨hcurrent, _, replaceTokens_nil .., by decide +kernel, by decide +kernel⟩
  have hline : after.IsDataLine {} ⟨6, "1 0x2 3\n".toList⟩ "1 0x2 3".toList :=
    ⟨hlast, _, replaceTokens_nil .., by decide +kernel, by decide +kernel⟩
  obtain ⟨rows, -, hholds, -, hrow⟩ :=
    Loading.holdsRows_of_run hstart hopened hawaited hheader hcolumns hafter
  refine ⟨start, opened, after, columns, hstart, hopened, hawaited, hheader, hcolumns, hafter,
    hbytes, ⟨rows, hholds⟩, hline, ?_⟩
  intro hnext
  obtain ⟨-, hcells⟩ := (hrow _ _ hline).1.1 hnext
  obtain ⟨value, hcell⟩ := hcells 1 _ "0x2".toList hcomponent (by decide +kernel)
  exact absurd hcell.1 (by decide +kernel)

end GpuScript
