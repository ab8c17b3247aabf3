import GpuScript.Proofs.BufferRoles

/-!
# One pass forward

A script is loaded in one pass that never looks back. What whole lines fail with, every longer text
fails with; and what they leave, every longer text that loads goes on from: its commands and its
requirements come behind theirs, and each of their buffers is still there, for the same and no
shorter.
-/

namespace GpuScript

/-- Whether a buffer is for the same as another one and no shorter. -/
structure Buffer.Extends (new old : Buffer) : Prop where
  kind : new.kind = old.kind
  location : new.location = old.location
  binding : new.binding = old.binding
  length : old.bytes.length ≤ new.bytes.length

/-- Whether each buffer of a table is at its index in another one, for the same and no shorter. -/
def TableExtends (new old : List Buffer) : Prop :=
  ∀ (i : Nat) (b : Buffer), old[i]? = some b → ∃ c, new[i]? = some c ∧ c.Extends b

/-- Whether a script has all of another one, and what else it has comes behind that. -/
structure Script.Extends (new old : Script) : Prop where
  commands : old.commands <+: new.commands
  requirements : old.requirements.Extended new.requirements
  buffers : TableExtends new.buffers old.buffers

theorem Buffer.Extends.refl (b : Buffer) : b.Extends b := ⟨rfl, rfl, rfl, Nat.le_refl _⟩

theorem Buffer.Extends.trans {a b c : Buffer} (h : a.Extends b) (h' : b.Extends c) :
    a.Extends c :=
  ⟨h.kind.trans h'.kind, h.location.trans h'.location, h.binding.trans h'.binding,
    Nat.le_trans h'.length h.length⟩

theorem Buffer.Revised.extends {old new : Buffer} (h : old.Revised new)
    (hlength : old.bytes.length = old.size) : new.Extends old :=
  ⟨h.kind, h.location, h.binding, (h.length hlength).2⟩

namespace TableExtends

variable {a b c : List Buffer}

theorem refl (buffers : List Buffer) : TableExtends buffers buffers :=
  fun _ b hb => ⟨b, hb, .refl b⟩

theorem trans (h : TableExtends a b) (h' : TableExtends b c) : TableExtends a c := by
  intro i z hz
  obtain ⟨y, hy, hyz⟩ := h' i z hz
  obtain ⟨x, hx, hxy⟩ := h i y hy
  exact ⟨x, hx, hxy.trans hyz⟩

end TableExtends

theorem TableChange.extends {old new : List Buffer} (h : TableChange old new)
    (hroles : HasRoles old) : TableExtends new old := by
  cases h with
  | @revise i b c hold hrevised =>
    intro j x hx
    by_cases hij : i = j
    · subst hij
      rw [hold] at hx
      cases hx
      exact ⟨c, List.getElem?_set_self (List.getElem?_eq_some_iff.1 hold).1,
        hrevised.extends (hroles.whole (List.mem_of_getElem? hold))⟩
    · exact ⟨x, (List.getElem?_set_ne hij).trans hx, .refl x⟩
  | resize width height =>
    intro i x hx
    refine ⟨_, by rw [setFramebufferSize, List.getElem?_map, hx, Option.map_some], ?_⟩
    split <;> exact ⟨rfl, rfl, rfl, Nat.le_refl _⟩
  | add =>
    intro i x hx
    exact ⟨x, (List.getElem?_append_left (List.getElem?_eq_some_iff.1 hx).1).trans hx, .refl x⟩

/-- Buffers are as long as their elements need at any time, so no change makes one shorter. -/
theorem TableChanges.extends {old new : List Buffer} (h : TableChanges old new)
    (hroles : HasRoles old) : TableExtends new old := by
  induction h with
  | refl => exact .refl old
  | tail hfirst hlast ih => exact (hlast.extends (hroles.changes hfirst)).trans ih

namespace Loading

variable {settings : Settings} {state final : Loading}

theorem extends_of_run (hroles : HasRoles state.script.buffers) {lines : List NumberedLine}
    (h : state.run settings lines = .ok final) : final.script.Extends state.script := by
  obtain ⟨added, hadded, -⟩ := commands_of_run h
  exact ⟨⟨added, hadded.symm⟩, requirements_of_run h, (changes_of_run h).extends hroles⟩

theorem extends_endSection (h : final.script.Extends state.script) :
    final.endSection.script.Extends state.endSection.script := by
  obtain ⟨hcommands, hrequirements, hbuffers⟩ := h
  obtain ⟨hfinal, hfinal', -⟩ := endSection_frame final
  obtain ⟨hstate, hstate', -⟩ := endSection_frame state
  refine ⟨?_, ?_, ?_⟩
  · rw [hfinal', hstate']
    exact hcommands
  · rw [requirements_endSection, requirements_endSection]
    exact hrequirements
  · rw [hfinal, hstate]
    exact hbuffers

theorem hasRoles_of_after {text : List Char} (h : after settings text = .ok state) :
    HasRoles state.script.buffers := by
  obtain ⟨start, hstart, -⟩ := exists_start settings
  rw [after_eq_run hstart] at h
  exact hasRoles_of_run hstart h

end Loading

/-- Text behind whole lines cannot make up for an error in them, and if all of it loads, it takes
nothing away from what they leave. -/
theorem Script.load_append {settings : Settings} {s : List Char} (hs : EndsLine s)
    (t : List Char) :
    (∀ failure, load settings s = .error failure → load settings (s ++ t) = .error failure) ∧
      ∀ a b, load settings s = .ok a → load settings (s ++ t) = .ok b → b.Extends a := by
  rw [load_eq, load_eq, Loading.after_append hs]
  constructor
  · intro failure h
    cases hafter : Loading.after settings s with
    | ok state =>
      rw [hafter] at h
      cases h
    | error other =>
      rw [hafter] at h
      exact h
  · intro a b ha hb
    obtain ⟨state, hstate, rfl⟩ := exists_of_map_eq_ok ha
    rw [hstate] at hb
    obtain ⟨final, hfinal, rfl⟩ := exists_of_map_eq_ok hb
    exact Loading.extends_endSection
      (Loading.extends_of_run (Loading.hasRoles_of_after hstate) hfinal)

/-- A buffer of three bytes whose format is settled to be longer only in the text behind. -/
theorem Script.load_append_resized :
    EndsLine "[test]\nssbo 0 3\nclear\n".toList ∧
      ∃ a b, load {} "[test]\nssbo 0 3\nclear\n".toList = .ok a ∧
        load {} ("[test]\nssbo 0 3\nclear\n".toList ++ "ssbo 0 subdata int 0 7\n".toList) = .ok b ∧
        a.buffers.map (fun buffer => buffer.bytes.length) = [0, 3] ∧
        b.buffers.map (fun buffer => buffer.bytes.length) = [0, 4] ∧
        b.Extends a := by
  have hs : EndsLine "[test]\nssbo 0 3\nclear\n".toList := by
    decide +kernel
  have hloads : ∃ a, load {} "[test]\nssbo 0 3\nclear\n".toList = .ok a ∧
      a.buffers.map (fun buffer => buffer.bytes.length) = [0, 3] ∧ ∃ b,
        load {} ("[test]\nssbo 0 3\nclear\n".toList ++ "ssbo 0 subdata int 0 7\n".toList) = .ok b ∧
        b.buffers.map (fun buffer => buffer.bytes.length) = [0, 4] := by
    simp only [load_of_no_rules (show ({} : Settings).rules = [] from rfl)]
    decide +kernel
  obtain ⟨a, ha, hbefore, b, hb, hbehind⟩ := hloads
  exact ⟨hs, a, b, ha, hb, hbefore, hbehind, (Script.load_append hs _).2 a b ha hb⟩

end GpuScript
