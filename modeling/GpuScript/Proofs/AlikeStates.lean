import GpuScript.Proofs.BindingUses
import GpuScript.Proofs.KeptColumns

/-!
# States that take in the same lines

What a state takes in depends on its sections, its shaders, the formats of its columns and the uses
of its bindings, and not on where the buffers stand or what is in them. Two states that are alike in
these take in the same lines and stay alike.
-/

namespace GpuScript

/-- Whether vertex data has been read as far with one table as with another, with rows for columns of
the same formats. -/
inductive SameProgress (buffers others : List Buffer) : VertexProgress → VertexProgress → Prop
  | absent : SameProgress buffers others .absent .absent
  | header : SameProgress buffers others .header .header
  | rows {columns indices : List Nat} {formats : List Format}
      (hcolumns : List.Forall₂ (IsColumn buffers) columns formats)
      (hindices : List.Forall₂ (IsColumn others) indices formats) :
      SameProgress buffers others (.rows columns) (.rows indices)

theorem SameProgress.imp {buffers others new more : List Buffer} {progress other : VertexProgress}
    (h : SameProgress buffers others progress other)
    (hnew : ∀ i format, IsColumn buffers i format → IsColumn new i format)
    (hmore : ∀ i format, IsColumn others i format → IsColumn more i format) :
    SameProgress new more progress other := by
  cases h with
  | absent => exact .absent
  | header => exact .header
  | rows hcolumns hindices => exact .rows (hcolumns.imp hnew) (hindices.imp hmore)

theorem forall₂_isColumn_addColumns (buffers : List Buffer) (columns : List (Nat × Format)) :
    List.Forall₂ (IsColumn (buffers ++ columns.map columnBuffer))
      ((List.range columns.length).map (buffers.length + ·)) (columns.map Prod.snd) := by
  refine List.forall₂_iff_get.2 ⟨by simp, ?_⟩
  intro k hk _
  have hk : k < columns.length := by simpa using hk
  simpa using isColumn_addColumns hk

namespace Loading

/-- Whether two states take in the same lines. -/
structure Alike (s t : Loading) : Prop where
  current : s.current = t.current
  begun : s.begun = t.begun
  shaders : s.script.shaders = t.script.shaders
  vertexData : SameProgress s.script.buffers t.script.buffers s.vertexData t.vertexData
  uses : usesOf s.script.buffers = usesOf t.script.buffers

/-- Whether a state is another one after a line that leaves the section and the columns. -/
structure Stays (old new : Loading) : Prop where
  current : new.current = old.current
  begun : new.begun = old.begun
  shaders : new.script.shaders = old.script.shaders
  vertexData : new.vertexData = old.vertexData
  columns : ∀ i format, IsColumn old.script.buffers i format → IsColumn new.script.buffers i format

variable {s t new more : Loading} {lines others : List TestLine} {text : List Char}

theorem Stays.refl (state : Loading) : state.Stays state := ⟨rfl, rfl, rfl, rfl, fun _ _ => id⟩

theorem Stays.trans (h : s.Stays t) (h' : t.Stays new) : s.Stays new :=
  ⟨h'.current.trans h.current, h'.begun.trans h.begun, h'.shaders.trans h.shaders,
    h'.vertexData.trans h.vertexData, fun i format hi => h'.columns i format (h.columns i format hi)⟩

theorem Edits.stays (h : s.Edits new) : s.Stays new :=
  ⟨h.current, h.begun, h.shaders, h.vertexData, fun _ _ hcolumn => hcolumn.keepsBound h.buffers⟩

namespace Alike

theorem refl (h : s.InStep lines) : s.Alike s := by
  refine ⟨rfl, rfl, rfl, ?_, rfl⟩
  cases hdata : s.vertexData with
  | absent => exact .absent
  | header => exact .header
  | rows columns =>
    obtain ⟨formats, -, hformats⟩ := exists_formatsAt (h.columns columns hdata)
    exact .rows hformats hformats

theorem stays (h : s.Alike t) (hnew : s.Stays new) (hmore : t.Stays more)
    (huses : usesOf new.script.buffers = usesOf more.script.buffers) : new.Alike more := by
  refine ⟨?_, ?_, ?_, ?_, huses⟩
  · rw [hnew.current, hmore.current, h.current]
  · rw [hnew.begun, hmore.begun, h.begun]
  · rw [hnew.shaders, hmore.shaders, h.shaders]
  · rw [hnew.vertexData, hmore.vertexData]
    exact h.vertexData.imp hnew.columns hmore.columns

theorem edits (h : s.Alike t) (hs : ValidTable s.script.buffers) (ht : ValidTable t.script.buffers)
    (hnew : s.Edits new) (hmore : t.Edits more) : new.Alike more := by
  refine h.stays hnew.stays hmore.stays ?_
  rw [usesOf_keepsBound hs hnew.buffers, usesOf_keepsBound ht hmore.buffers, h.uses]

theorem endSection (h : s.Alike t) : s.endSection.Alike t.endSection := by
  obtain ⟨hcurrent, hbegun, hshaders, hdata, huses⟩ := h
  unfold Loading.endSection
  rw [← hcurrent]
  split
  · refine ⟨rfl, hbegun, ?_, hdata, huses⟩
    simp only [Script.addShader, hshaders]
  · exact ⟨rfl, hbegun, hshaders, hdata, huses⟩

theorem canLink_eq (h : s.Alike t) (stage : Stage) (shader : Shader) :
    s.script.canLink stage shader = t.script.canLink stage shader := by
  rw [Script.canLink, Script.canLink, Script.shadersOf, Script.shadersOf, h.shaders]

theorem absent_iff (h : s.Alike t) : s.vertexData = .absent ↔ t.vertexData = .absent := by
  generalize hs : s.vertexData = progress
  generalize ht : t.vertexData = other
  have hdata := h.vertexData
  rw [hs, ht] at hdata
  cases hdata <;> simp

theorem enter (h : s.Alike t) {header : Header} (hnew : s.enter header = .ok new) :
    ∃ more, t.enter header = .ok more ∧ new.Alike more := by
  have ⟨hcurrent, hbegun, hshaders, hdata, huses⟩ := h
  cases header with
  | comment =>
    cases hnew
    exact ⟨_, rfl, rfl, hbegun, hshaders, hdata, huses⟩
  | test | indices =>
    cases hnew
    exact ⟨_, rfl, rfl, rfl, hshaders, hdata, huses⟩
  | require =>
    simp only [Loading.enter] at hnew ⊢
    rw [← hbegun]
    split at hnew <;> cases hnew
    next hfirst =>
    exact ⟨_, if_neg hfirst, rfl, rfl, hshaders, hdata, huses⟩
  | vertexData =>
    simp only [Loading.enter] at hnew ⊢
    split at hnew <;> cases hnew
    next hfirst =>
    exact ⟨_, if_neg (mt (mt h.absent_iff.1) hfirst), rfl, rfl, hshaders, .header, huses⟩
  | shader stage shader =>
    simp only [Loading.enter] at hnew ⊢
    rw [← h.canLink_eq]
    split at hnew
    · cases hnew
    · next hlink =>
      rw [if_neg hlink]
      cases shader with
      | body body =>
        cases hnew
        exact ⟨_, rfl, rfl, rfl, hshaders, hdata, huses⟩
      | passthrough =>
        cases hnew
        refine ⟨_, rfl, rfl, rfl, ?_, hdata, huses⟩
        simp only [Script.addShader, hshaders]

theorem takeHeader (h : s.Alike t) (hnew : s.takeHeader text = .ok new) :
    ∃ more, t.takeHeader text = .ok more ∧ new.Alike more := by
  obtain ⟨header, hheader, hnew⟩ := exists_of_bind_eq_ok hnew
  obtain ⟨more, hmore, halike⟩ := h.endSection.enter (orInvalid_eq_ok_iff.1 hnew)
  refine ⟨more, ?_, halike⟩
  rw [Loading.takeHeader, hheader]
  exact orInvalid_eq_ok_iff.2 hmore

theorem takeRequireLine (h : s.Alike t) (hs : ValidTable s.script.buffers)
    (ht : ValidTable t.script.buffers) (hnew : s.takeRequireLine text = .ok new) :
    ∃ more, t.takeRequireLine text = .ok more ∧ new.Alike more := by
  obtain ⟨asked, hasked, hnew⟩ := exists_of_bind_eq_ok hnew
  rw [Loading.takeRequireLine, hasked]
  cases asked with
  | none =>
    cases hnew
    exact ⟨t, rfl, h⟩
  | some asked =>
    obtain ⟨other, hother, hedits⟩ := exists_runRequireLine hs asked
    obtain rfl := Except.ok.inj (hnew.symm.trans hother)
    obtain ⟨more, hmore, hedits'⟩ := exists_runRequireLine ht asked
    exact ⟨more, hmore, h.edits hs ht hedits hedits'⟩

theorem takeShaderLine (h : s.Alike t) {stage : Stage} {body : ShaderBody}
    (hnew : s.takeShaderLine stage body text = .ok new) :
    ∃ more, t.takeShaderLine stage body text = .ok more ∧ new.Alike more := by
  obtain ⟨after, hafter, hnew⟩ := exists_of_bind_eq_ok hnew
  cases hnew
  rw [Loading.takeShaderLine, hafter]
  exact ⟨_, rfl, rfl, h.begun, h.shaders, h.vertexData, h.uses⟩

theorem takeColumns (h : s.Alike t) (hs : ValidTable s.script.buffers)
    (ht : ValidTable t.script.buffers) (hnew : s.takeColumns text = .ok new) :
    ∃ more, t.takeColumns text = .ok more ∧ new.Alike more := by
  obtain ⟨columns, hcolumns, hnew⟩ := exists_of_bind_eq_ok hnew
  cases hnew
  rw [Loading.takeColumns, hcolumns]
  refine ⟨_, rfl, h.current, h.begun, h.shaders, ?_, ?_⟩
  · exact .rows (forall₂_isColumn_addColumns _ columns) (forall₂_isColumn_addColumns _ columns)
  · exact (usesOf_keepsBound hs (keepsBound_addColumns columns)).trans
      (h.uses.trans (usesOf_keepsBound ht (keepsBound_addColumns columns)).symm)

theorem takeRow (h : s.Alike t) (hs : ValidTable s.script.buffers)
    (ht : ValidTable t.script.buffers) {columns indices : List Nat} {formats : List Format}
    (hcolumns : List.Forall₂ (IsColumn s.script.buffers) columns formats)
    (hindices : List.Forall₂ (IsColumn t.script.buffers) indices formats)
    (hnew : s.takeRow columns text = .ok new) :
    ∃ more, t.takeRow indices text = .ok more ∧ new.Alike more := by
  obtain ⟨read, hread, hrest⟩ := exists_of_bind_eq_ok hnew
  obtain rfl := Except.ok.inj ((formatsAt_eq hcolumns).symm.trans hread)
  obtain ⟨row, hrow, -⟩ := exists_of_bind_eq_ok hrest
  rw [orInvalid_eq_ok_iff] at hrow
  obtain ⟨other, hother, hedits⟩ := Loading.exists_takeRow hs hcolumns hrow
  obtain rfl := Except.ok.inj (hnew.symm.trans hother)
  obtain ⟨more, hmore, hedits'⟩ := Loading.exists_takeRow ht hindices hrow
  exact ⟨more, hmore, h.edits hs ht hedits hedits'⟩

theorem takeVertexLine (h : s.Alike t) (hs : ValidTable s.script.buffers)
    (ht : ValidTable t.script.buffers) (hnew : s.takeVertexLine text = .ok new) :
    ∃ more, t.takeVertexLine text = .ok more ∧ new.Alike more := by
  have hdata := h.vertexData
  unfold Loading.takeVertexLine at hnew ⊢
  cases hcontent : content? text with
  | none =>
    rw [hcontent] at hnew
    cases hnew
    exact ⟨t, rfl, h⟩
  | some content =>
    rw [hcontent] at hnew
    generalize s.vertexData = progress at hnew hdata
    generalize t.vertexData = other at hdata ⊢
    cases hdata with
    | absent | header => exact h.takeColumns hs ht hnew
    | rows hcolumns hindices => exact h.takeRow hs ht hcolumns hindices hnew

theorem takeIndexLine (h : s.Alike t) (hs : ValidTable s.script.buffers)
    (ht : ValidTable t.script.buffers) (hnew : s.takeIndexLine text = .ok new) :
    ∃ more, t.takeIndexLine text = .ok more ∧ new.Alike more := by
  cases hcontent : content? text with
  | none =>
    rw [Loading.takeIndexLine, hcontent] at hnew
    cases hnew
    exact ⟨t, by rw [Loading.takeIndexLine, hcontent], h⟩
  | some content =>
    have hrest := hnew
    rw [Loading.takeIndexLine, hcontent] at hrest
    obtain ⟨values, hvalues, -⟩ := exists_of_bind_eq_ok hrest
    rw [orInvalid_eq_ok_iff] at hvalues
    obtain ⟨other, hother, hedits⟩ := exists_takeIndexLine hs hcontent hvalues
    obtain rfl := Except.ok.inj (hnew.symm.trans hother)
    obtain ⟨more, hmore, hedits'⟩ := exists_takeIndexLine ht hcontent hvalues
    exact ⟨more, hmore, h.edits hs ht hedits hedits'⟩

end Alike

theorem takeAsked_eq (h : s.InStep lines) (number : Nat) {asked? : Option TestLine}
    (hread : readTestLine text = .ok asked?) :
    takeAsked asked? (usesOf s.script.buffers) =
      (s.takeTestLine number text).toOption.map fun new => usesOf new.script.buffers := by
  rw [takeTestLine, hread]
  cases asked? with
  | none => rfl
  | some line =>
    rw [takeAsked, takeUse_eq h.tracks (wellRead_of_readTestLine hread)]
    simp only [orInvalid, bind, Except.bind]
    cases runTestLine line s.script.buffers <;> rfl

theorem stays_of_takeTestLine (h : s.InStep lines) {number : Nat}
    (hnew : s.takeTestLine number text = .ok new) : s.Stays new := by
  obtain ⟨hkeeps, hdata⟩ := keepsColumns_of_takeTestLine h.tracks.valid hnew
  have hcolumns : ∀ i format, IsColumn s.script.buffers i format →
      IsColumn new.script.buffers i format := fun _ _ hcolumn => hcolumn.keepsVertex hkeeps
  obtain ⟨asked?, -, hnew⟩ := exists_of_bind_eq_ok hnew
  cases asked? with
  | none =>
    cases hnew
    exact .refl s
  | some line =>
    obtain ⟨r, -, hnew⟩ := exists_of_bind_eq_ok hnew
    cases hnew
    exact ⟨rfl, rfl, rfl, hdata, hcolumns⟩

namespace Alike

theorem takeTestLine (h : s.Alike t) (hs : s.InStep lines) (ht : t.InStep others)
    {number : Nat} (hnew : s.takeTestLine number text = .ok new) (other : Nat) :
    ∃ more, t.takeTestLine other text = .ok more ∧ new.Alike more := by
  obtain ⟨asked?, hread, -⟩ := exists_of_bind_eq_ok hnew
  rw [orInvalid_eq_ok_iff] at hread
  have htaken := takeAsked_eq hs number hread
  rw [hnew, h.uses, takeAsked_eq ht other hread] at htaken
  obtain ⟨more, hmore, huses⟩ := exists_of_toOption_map_eq_some htaken
  exact ⟨more, hmore, h.stays (stays_of_takeTestLine hs hnew) (stays_of_takeTestLine ht hmore)
    huses.symm⟩

theorem takeBodyLine (h : s.Alike t) (hs : s.InStep lines) (ht : t.InStep others)
    {number : Nat} (hnew : s.takeBodyLine number text = .ok new) (other : Nat) :
    ∃ more, t.takeBodyLine other text = .ok more ∧ new.Alike more := by
  have hvalid := hs.tracks.valid
  have hvalid' := ht.tracks.valid
  unfold Loading.takeBodyLine at hnew ⊢
  rw [← h.current]
  split at hnew
  · split at hnew <;> cases hnew
    exact ⟨t, rfl, h⟩
  · cases hnew
    exact ⟨t, rfl, h⟩
  · exact h.takeRequireLine hvalid hvalid' hnew
  · exact h.takeShaderLine hnew
  · exact h.takeVertexLine hvalid hvalid' hnew
  · exact h.takeIndexLine hvalid hvalid' hnew
  · exact h.takeTestLine hs ht hnew other

theorem takeLine (h : s.Alike t) (hs : s.InStep lines) (ht : t.InStep others)
    {number : Nat} (hnew : s.takeLine number text = .ok new) (other : Nat) :
    ∃ more, t.takeLine other text = .ok more ∧ new.Alike more := by
  unfold Loading.takeLine at hnew ⊢
  split at hnew
  · exact h.takeHeader hnew
  · exact h.takeBodyLine hs ht hnew other

variable {settings : Settings}

theorem step (h : s.Alike t) (hs : s.InStep lines) (ht : t.InStep others)
    {line other : NumberedLine} (hsame : line.text = other.text)
    (hnew : s.step settings line = .ok new) :
    ∃ more, t.step settings other = .ok more ∧ new.Alike more := by
  obtain ⟨text, htext, htake⟩ := step_eq_ok_iff.1 hnew
  obtain ⟨more, hmore, halike⟩ := h.takeLine hs ht htake other.number
  exact ⟨more, step_eq_ok_iff.2 ⟨text, hsame ▸ htext, hmore⟩, halike⟩

theorem asked?_eq (h : s.Alike t) (text : List Char) : s.asked? text = t.asked? text := by
  rw [asked?, asked?, h.current]

/-- Lines that one of two alike states takes in, the other takes in as well, whatever their numbers,
and the same test lines are among them. -/
theorem run (h : s.Alike t) (hs : s.InStep lines) (ht : t.InStep others)
    {ahead behind : List NumberedLine}
    (hsame : ahead.map NumberedLine.text = behind.map NumberedLine.text)
    (hnew : s.run settings ahead = .ok new) :
    ∃ more, t.run settings behind = .ok more ∧ new.Alike more ∧
      s.asked settings ahead = t.asked settings behind := by
  induction ahead generalizing behind s t lines others with
  | nil =>
    cases List.map_eq_nil_iff.1 hsame.symm
    cases hnew
    exact ⟨t, rfl, h, rfl⟩
  | cons line rest ih =>
    obtain ⟨other, left, rfl, htext, hrest⟩ := List.map_eq_cons_iff.1 hsame.symm
    obtain ⟨mid, hmid, hnew⟩ := exists_of_bind_eq_ok hnew
    obtain ⟨next, hnext, halike⟩ := h.step hs ht htext.symm hmid
    obtain ⟨more, hmore, hlast, hasked⟩ := ih halike
      ((ensures_step settings hs line).property_of_eq_ok hmid)
      ((ensures_step settings ht other).property_of_eq_ok hnext) hrest.symm hnew
    refine ⟨more, ?_, hlast, ?_⟩
    · rw [Loading.run, hnext]
      exact hmore
    · have hhere : t.asked? = s.asked? := funext fun text => (h.asked?_eq text).symm
      rw [asked_cons hmid, asked_cons hnext, htext, hhere, hasked]

end Alike

end Loading

end GpuScript
