import GpuScript.Proofs.AlikeStates
import GpuScript.Proofs.IndexWords
import GpuScript.Proofs.ShaderSections

/-!
# Index sections

The rows of all index sections of a script together are its list of indices. However the indices are
spread over lines and sections, and whatever other sections stand between, the script has them all
in order in one buffer. A script without its rows of indices takes in the same other lines, so a
valid script stays valid when rows of numbers are put into its index sections.
-/

namespace GpuScript

def opensIndices : List Char → Bool
  | '[' :: text => decide (readHeader text = .ok .indices)
  | _ => false

/-- The lines of index sections among some lines, the first of which may be in such a section. -/
def indexRows : Bool → List (List Char) → List (List Char)
  | _, [] => []
  | inside, line :: rest =>
    if isHeader line then indexRows (opensIndices line) rest
    else if inside then line :: indexRows inside rest
    else indexRows inside rest

/-- The headers and the lines of other sections among some lines. -/
def withoutIndexRows : Bool → List (List Char) → List (List Char)
  | _, [] => []
  | inside, line :: rest =>
    if isHeader line then line :: withoutIndexRows (opensIndices line) rest
    else if inside then withoutIndexRows inside rest
    else line :: withoutIndexRows inside rest

theorem indexRows_cons_of_row {line : List Char} (h : isHeader line = false)
    (rest : List (List Char)) :
    indexRows true (line :: rest) = line :: indexRows true rest ∧
      withoutIndexRows true (line :: rest) = withoutIndexRows true rest := by
  rw [indexRows, withoutIndexRows, h]
  exact ⟨rfl, rfl⟩

theorem indexRows_cons_of_other {inside : Bool} {line : List Char}
    (h : isHeader line = true ∨ inside = false) (rest : List (List Char)) :
    indexRows inside (line :: rest) = indexRows (isHeader line && opensIndices line) rest ∧
      withoutIndexRows inside (line :: rest) =
        line :: withoutIndexRows (isHeader line && opensIndices line) rest := by
  rw [indexRows, withoutIndexRows]
  cases hheader : isHeader line with
  | true => exact ⟨rfl, rfl⟩
  | false =>
    rw [h.resolve_left (by simp [hheader])]
    exact ⟨rfl, rfl⟩

/-- Whether the words of some lines without their comments are decimal numbers of sixteen bits. -/
def AreIndexRows (lines : List (List Char)) (indices : List UInt16) : Prop :=
  List.Forall₂ (fun word index => wholeNatural? 10 16 word = some index.toNat)
    (lines.flatMap fun line => words (line.takeWhile (· ≠ '#'))) indices

theorem AreIndexRows.exists_split {line : List Char} {lines : List (List Char)}
    {indices : List UInt16} (h : AreIndexRows (line :: lines) indices) :
    ∃ first more, indices = first ++ more ∧
      AreIndices (words (line.takeWhile (· ≠ '#'))) first ∧ AreIndexRows lines more := by
  rw [AreIndexRows, List.flatMap_cons] at h
  have hfirst := List.forall₂_take (words (line.takeWhile (· ≠ '#'))).length h
  have hmore := List.forall₂_drop (words (line.takeWhile (· ≠ '#'))).length h
  rw [List.take_left] at hfirst
  rw [List.drop_left] at hmore
  exact ⟨_, _, (List.take_append_drop _ _).symm,
    hfirst.imp fun _ _ => decimal?_of_wholeNatural?, hmore⟩

namespace Loading

variable {state new : Loading} {lines : List TestLine} {number : Nat}

theorem current_of_takeHeader {text : List Char} (h : state.takeHeader text = .ok new) :
    decide (new.current = .indices) = opensIndices ('[' :: text) := by
  obtain ⟨header, hheader, h⟩ := exists_of_bind_eq_ok h
  rw [orInvalid_eq_ok_iff] at hheader h
  rw [opensIndices, hheader]
  cases header with
  | comment | test | indices =>
    cases h
    rfl
  | require =>
    simp only [enter] at h
    split at h <;> cases h
    rfl
  | vertexData =>
    simp only [enter] at h
    split at h <;> cases h
    rfl
  | shader stage shader =>
    simp only [enter] at h
    split at h
    · cases h
    · split at h <;> cases h <;> rfl

theorem current_of_takeBodyLine (hcurrent : state.current ≠ .indices) {line : List Char}
    (h : state.takeBodyLine number line = .ok new) : new.current ≠ .indices := by
  cases afterBodyLine_of_takeBodyLine h with
  | shader _ _ _ hnew => simp [hnew]
  | other _ _ hsame => rwa [hsame]

/-- Whether a state holds some indices and is otherwise like one that has taken in no rows of
them. -/
structure AddsIndices (plain state : Loading) (held : List UInt16) : Prop where
  alike : plain.Alike state
  plainInStep : ∃ lines, plain.InStep lines
  inStep : ∃ lines, state.InStep lines
  holds : HoldsIndices state.script.buffers held

namespace AddsIndices

variable {plain next final : Loading} {held indices : List UInt16}

theorem exists_takeLine (h : AddsIndices plain state held) {text : List Char}
    (hline : isHeader text = true ∨ state.current ≠ .indices)
    (hnext : plain.takeLine number text = .ok next) (other : Nat) :
    ∃ new, state.takeLine other text = .ok new ∧ AddsIndices next new held ∧
      decide (new.current = .indices) = (isHeader text && opensIndices text) := by
  obtain ⟨before, hplain⟩ := h.plainInStep
  obtain ⟨after, hstate⟩ := h.inStep
  obtain ⟨new, hnew, halike⟩ := h.alike.takeLine hplain hstate hnext other
  have hsame : indexBuffers new.script.buffers = indexBuffers state.script.buffers ∧
      decide (new.current = .indices) = (isHeader text && opensIndices text) := by
    by_cases hhead : text.head? = some '['
    · obtain ⟨rest, rfl⟩ := List.head?_eq_some_iff.1 hhead
      have hheader : state.takeHeader rest = .ok new := hnew
      refine ⟨?_, current_of_takeHeader hheader⟩
      obtain ⟨header, -, henter⟩ := exists_of_bind_eq_ok hheader
      rw [(keepsScript_of_header (orInvalid_eq_ok_iff.1 henter)).buffers]
    · have hheader : isHeader text = false := decide_eq_false hhead
      have hcurrent : state.current ≠ .indices := hline.resolve_left (by simp [hheader])
      rw [takeLine_of_ne_bracket hhead] at hnew
      refine ⟨indexBuffers_of_takeBodyLine hstate hcurrent hnew, ?_⟩
      rw [hheader, Bool.false_and]
      exact decide_eq_false (current_of_takeBodyLine hcurrent hnew)
  exact ⟨new, hnew, ⟨halike, ⟨_, (ensures_takeLine hplain number text).property_of_eq_ok hnext⟩,
    ⟨_, (ensures_takeLine hstate other text).property_of_eq_ok hnew⟩, h.holds.congr hsame.1⟩,
    hsame.2⟩

theorem exists_takeRow (h : AddsIndices plain state held) (hcurrent : state.current = .indices)
    {line : List Char} {rest : List (List Char)} (hheader : isHeader line = false)
    (hrows : AreIndexRows (line :: rest) indices) (number : Nat) :
    ∃ first more new, indices = first ++ more ∧ AreIndexRows rest more ∧
      state.takeLine number line = .ok new ∧ AddsIndices plain new (held ++ first) ∧
      new.current = .indices := by
  obtain ⟨first, more, rfl, hfirst, hmore⟩ := hrows.exists_split
  obtain ⟨before, hplain⟩ := h.plainInStep
  obtain ⟨after, hstate⟩ := h.inStep
  obtain ⟨new, hnew, hholds⟩ := exists_takeIndexLine_of_areIndices h.holds hfirst
  have hedits := (ensures_takeIndexLine hstate.tracks.valid line).property_of_eq_ok hnew
  refine ⟨first, more, new, rfl, hmore, ?_, ⟨?_, h.plainInStep, ?_, hholds⟩,
    hedits.current.trans hcurrent⟩
  · rw [takeLine_of_ne_bracket (of_decide_eq_false hheader), takeBodyLine, hcurrent]
    exact hnew
  · exact h.alike.edits hplain.tracks.valid hstate.tracks.valid (.refl plain) hedits
  · exact ⟨after, hstate.advances hedits.advances⟩

theorem exists_foldlM (h : AddsIndices plain state held) {lines others : List NumberedLine}
    (hothers : others.map NumberedLine.text =
      withoutIndexRows (decide (state.current = .indices)) (lines.map NumberedLine.text))
    (hrows : AreIndexRows
      (indexRows (decide (state.current = .indices)) (lines.map NumberedLine.text)) indices)
    (hfinal : others.foldlM takeNumbered plain = .ok final) :
    ∃ new, lines.foldlM takeNumbered state = .ok new ∧
      HoldsIndices new.script.buffers (held ++ indices) := by
  induction lines generalizing others plain state held indices with
  | nil =>
    obtain rfl : indices = [] := List.forall₂_nil_left_iff.1 hrows
    refine ⟨state, rfl, ?_⟩
    rw [List.append_nil]
    exact h.holds
  | cons line rest ih =>
    rw [List.map_cons] at hothers hrows
    by_cases hrow : isHeader line.text = true ∨ state.current ≠ .indices
    · have houtside : isHeader line.text = true ∨ decide (state.current = .indices) = false :=
        hrow.imp_right decide_eq_false
      obtain ⟨hindexRows, hwithout⟩ :=
        indexRows_cons_of_other houtside (rest.map NumberedLine.text)
      rw [hindexRows] at hrows
      rw [hwithout] at hothers
      obtain ⟨other, more, rfl, htext, hmore⟩ := List.map_eq_cons_iff.1 hothers
      rw [List.foldlM_cons] at hfinal
      obtain ⟨next, hnext, hfinal⟩ := exists_of_bind_eq_ok hfinal
      have htake := takeLine_of_takeNumbered hnext
      rw [htext] at htake
      obtain ⟨new, hnew, hadds, hinside⟩ := h.exists_takeLine hrow htake line.number
      rw [← hinside] at hrows hmore
      obtain ⟨last, hlast, hholds⟩ := ih hadds hmore hrows hfinal
      refine ⟨last, ?_, hholds⟩
      rw [List.foldlM_cons, takeNumbered_of_takeLine hnew]
      exact hlast
    · obtain ⟨hheader, hcurrent⟩ := not_or.1 hrow
      rw [Bool.not_eq_true] at hheader
      rw [not_not] at hcurrent
      obtain ⟨hindexRows, hwithout⟩ :=
        indexRows_cons_of_row hheader (rest.map NumberedLine.text)
      rw [decide_eq_true hcurrent, hindexRows] at hrows
      rw [decide_eq_true hcurrent, hwithout] at hothers
      obtain ⟨first, more, new, rfl, hmore, hnew, hadds, hinside⟩ :=
        h.exists_takeRow hcurrent hheader hrows line.number
      rw [← decide_eq_true hinside] at hothers hmore
      obtain ⟨last, hlast, hholds⟩ := ih hadds hothers hmore hfinal
      refine ⟨last, ?_, by rwa [List.append_assoc] at hholds⟩
      rw [List.foldlM_cons, takeNumbered_of_takeLine hnew]
      exact hlast

end AddsIndices

end Loading

theorem Loading.indexBuffers_of_start {settings : Settings} {start : Loading}
    (h : Loading.start settings = .ok start) : indexBuffers start.script.buffers = [] := by
  obtain ⟨format, -, rfl⟩ := exists_of_map_eq_ok h
  rfl

namespace Script

variable {settings : Settings} {source rest : List Char} {lines others : List NumberedLine}
  {indices : List UInt16}

/-- A text whose rows of indices are decimal numbers is loaded if the text without these rows is.
Its only buffer of indices holds all the numbers in order, and there is none without numbers. -/
theorem exists_load_of_indexRows {plain : Script}
    (hlines : scannedLines settings source = some lines)
    (hothers : scannedLines settings rest = some others)
    (hwithout : others.map NumberedLine.text =
      withoutIndexRows false (lines.map NumberedLine.text))
    (hrows : AreIndexRows (indexRows false (lines.map NumberedLine.text)) indices)
    (hplain : load settings rest = .ok plain) :
    ∃ script, load settings source = .ok script ∧ HoldsIndices script.buffers indices := by
  obtain ⟨state, hstart, hstate⟩ := Loading.exists_start settings
  obtain ⟨start, scanned, final, hstart', hscanned, hfinal, -⟩ := exists_scannedLines_of_load hplain
  obtain rfl := Except.ok.inj (hstart.symm.trans hstart')
  obtain rfl := Option.some.inj (hothers.symm.trans hscanned)
  have hnone := Loading.indexBuffers_of_start hstart
  have houtside : decide (state.current = .indices) = false := by
    rw [(Loading.of_start hstart).2]
    rfl
  have hadds : Loading.AddsIndices state state [] :=
    ⟨.refl hstate, ⟨_, hstate⟩, ⟨_, hstate⟩, fun _ => hnone, fun hne => (hne rfl).elim⟩
  rw [← houtside] at hwithout hrows
  obtain ⟨new, hnew, hholds⟩ := hadds.exists_foldlM hwithout hrows hfinal
  refine ⟨_, load_of_scannedLines hstart hlines hnew, ?_⟩
  rw [new.endSection_frame.1]
  exact hholds

/-- Three index sections around others, one of them without a number, with signs, leading zeros,
comments and blank lines. -/
theorem exists_load_of_spread_indices :
    ∃ script, load {} ("[require]\nwideLines\n[indices]\n1 +2 # 9\n\n007\n[test]\nssbo 0 8\n" ++
      "[indices]\n# 5\n[vertex data]\n0/R8_UINT\n4\n[indices]\n65535 1\n1").toList = .ok script ∧
      HoldsIndices script.buffers [1, 2, 7, 65535, 1, 1] := by
  have hrules : ({} : Settings).rules = [] := rfl
  have hload : ∃ plain, load {} ("[require]\nwideLines\n[indices]\n[test]\nssbo 0 8\n" ++
      "[indices]\n[vertex data]\n0/R8_UINT\n4\n[indices]\n").toList = .ok plain ∧
      plain.requirements.features = ["wideLines"] := by
    rw [load_of_no_rules hrules]
    decide +kernel
  obtain ⟨plain, hplain, -⟩ := hload
  have hwithout : (logicalLines ("[require]\nwideLines\n[indices]\n[test]\nssbo 0 8\n" ++
      "[indices]\n[vertex data]\n0/R8_UINT\n4\n[indices]\n").toList).map NumberedLine.text =
        withoutIndexRows false ((logicalLines ("[require]\nwideLines\n[indices]\n1 +2 # 9\n\n007\n" ++
          "[test]\nssbo 0 8\n[indices]\n# 5\n[vertex data]\n0/R8_UINT\n4\n" ++
          "[indices]\n65535 1\n1").toList).map NumberedLine.text) := by
    decide +kernel
  have hrows : indexRows false ((logicalLines ("[require]\nwideLines\n[indices]\n1 +2 # 9\n\n007\n" ++
      "[test]\nssbo 0 8\n[indices]\n# 5\n[vertex data]\n0/R8_UINT\n4\n" ++
      "[indices]\n65535 1\n1").toList).map NumberedLine.text) =
        ["1 +2 # 9\n".toList, "\n".toList, "007\n".toList, "# 5\n".toList, "65535 1\n".toList,
          "1".toList] := by
    decide +kernel
  have hnumbers : AreIndexRows ["1 +2 # 9\n".toList, "\n".toList, "007\n".toList, "# 5\n".toList,
      "65535 1\n".toList, "1".toList] [1, 2, 7, 65535, 1, 1] := by
    rw [AreIndexRows]
    decide +kernel
  exact exists_load_of_indexRows (mapM_scan?_of_no_rules hrules _) (mapM_scan?_of_no_rules hrules _)
    hwithout (hrows ▸ hnumbers) hplain

end Script

end GpuScript
