import GpuScript.Proofs.BufferGrowth
import Mathlib.Logic.Function.Basic

/-!
# Uses of bindings

Whether a test line can be carried out depends on how the buffer at its binding is used: the kind of
the buffer, and its format unless that is a placeholder. A line that asks for a size agrees with any
format, so it can change places with every other line as far as uses go.
-/

namespace GpuScript

abbrev Uses : Type := Binding → Option BoundUse

def usesOf (buffers : List Buffer) : Uses :=
  fun binding => buffers[bindingIndex buffers binding]?.map Buffer.use

/-- The use of a buffer that is asked for when it has a use or is not there yet, unless the two do
not agree. -/
def BoundUse.take (asked : BoundUse) : Option BoundUse → Option BoundUse
  | none => some asked
  | some present =>
    if present.kind ≠ asked.kind then none
    else
      match asked.format?, present.format? with
      | none, _ => some present
      | some _, none => some asked
      | some format, some settled => if settled.sameLayout format then some present else none

/-- The uses after one is asked for at a binding, unless it does not agree with the one there. -/
def Uses.take (uses : Uses) (binding : Binding) (asked : BoundUse) : Option Uses :=
  (asked.take (uses binding)).map fun use => Function.update uses binding (some use)

/-- The uses after a line, unless it asks for one that does not agree. -/
def TestLine.takeUse (line : TestLine) (uses : Uses) : Option Uses :=
  match line.use? with
  | none => some uses
  | some (binding, asked) => uses.take binding asked

/-- The uses after a line that may be blank. -/
def takeAsked (asked? : Option TestLine) (uses : Uses) : Option Uses :=
  match asked? with
  | none => some uses
  | some line => line.takeUse uses

namespace BoundUse

theorem take_use (kind : BufferKind) (binding : Binding) (format? : Option Format) (b : Buffer) :
    take ⟨kind, format?⟩ (some b.use) =
      (matchBound kind binding format? b).toOption.map Buffer.use := by
  by_cases hkind : b.kind = kind
  · subst hkind
    cases format? with
    | none => simp [take, Buffer.use, matchBound, Except.toOption]
    | some format =>
      cases hdefault : b.formatIsDefault
      · simp only [take, Buffer.use, matchBound, hdefault, ne_eq, not_true_eq_false, if_false,
          Bool.false_eq_true]
        split <;> simp [Except.toOption, Buffer.use, hdefault]
      · simp [take, Buffer.use, matchBound, hdefault, Except.toOption, Buffer.setFormat,
          Buffer.setElementCount]
  · simp [take, Buffer.use, matchBound, hkind, Except.toOption]

theorem take_no_format (kind : BufferKind) (present : BoundUse) :
    take ⟨kind, none⟩ (some present) = if present.kind = kind then some present else none := by
  simp [take]

theorem kind_of_take {asked present use : BoundUse} (h : asked.take (some present) = some use) :
    use.kind = present.kind := by
  simp only [take] at h
  split at h
  · cases h
  · next hkind =>
    split at h
    · cases h
      rfl
    · cases h
      exact (Decidable.not_not.1 hkind).symm
    · split at h <;> cases h
      rfl

/-- Asking for no format changes places with asking for any use. -/
theorem take_comm (kind : BufferKind) (asked : BoundUse) (present? : Option BoundUse) :
    ((take ⟨kind, none⟩ present?).bind fun use => asked.take (some use)) =
      (asked.take present?).bind fun use => take ⟨kind, none⟩ (some use) := by
  simp only [take_no_format]
  cases present? with
  | none =>
    obtain ⟨other, format?⟩ := asked
    by_cases hkind : kind = other
    · subst hkind
      cases format? <;> simp [take]
    · simp [take, hkind, Ne.symm hkind]
  | some present =>
    rw [take_no_format]
    cases htake : asked.take (some present) with
    | none => split <;> simp [htake]
    | some use => split <;> simp [kind_of_take htake, *]

end BoundUse

namespace Uses

variable (uses : Uses) (binding : Binding)

theorem take_take_self (first second : BoundUse) :
    ((uses.take binding first).bind fun after => after.take binding second) =
      ((first.take (uses binding)).bind fun use => second.take (some use)).map
        fun use => Function.update uses binding (some use) := by
  simp only [take]
  cases first.take (uses binding) <;> simp

theorem take_take_of_ne {other : Binding} (h : other ≠ binding) (first second : BoundUse) :
    ((uses.take binding first).bind fun after => after.take other second) =
      (uses.take other second).bind fun after => after.take binding first := by
  simp only [take]
  cases hfirst : first.take (uses binding) <;> cases hsecond : second.take (uses other) <;>
    simp [Function.update_of_ne h, Function.update_of_ne h.symm, hfirst, hsecond]
  exact Function.update_comm h.symm _ _ _

end Uses

theorem TestLine.takeUse_comm (kind : BufferKind) (binding : Binding) (bytes : Nat)
    (line : TestLine) (uses : Uses) :
    ((TestLine.size kind binding bytes).takeUse uses).bind line.takeUse =
      (line.takeUse uses).bind (TestLine.size kind binding bytes).takeUse := by
  have hsize : (TestLine.size kind binding bytes).takeUse =
      fun uses => uses.take binding ⟨kind, none⟩ := rfl
  cases hline : line.use? with
  | none =>
    have htake : line.takeUse = some := funext fun uses => by rw [takeUse, hline]
    rw [htake, hsize, Option.bind_some]
    exact Option.bind_fun_some _
  | some use =>
    obtain ⟨other, asked⟩ := use
    have htake : line.takeUse = fun uses => uses.take other asked :=
      funext fun uses => by rw [takeUse, hline]
    rw [htake, hsize]
    by_cases hsame : other = binding
    · subst hsame
      rw [Uses.take_take_self, Uses.take_take_self, BoundUse.take_comm]
    · exact Uses.take_take_of_ne uses binding hsame _ _

section Tables

variable {buffers new : List Buffer} {commands : List Command} {lines : List TestLine}

theorem usesOf_keepsBound (hvalid : ValidTable buffers) (h : KeepsBound buffers new) :
    usesOf new = usesOf buffers := by
  funext binding
  rw [usesOf, usesOf, getElem?_bindingIndex_congr hvalid (hvalid.keepsBound h)]
  exact fun i b hb => h.getElem?_eq_some_iff (by simp [hb])

theorem usesOf_put (hvalid : ValidTable buffers) {binding : Binding} {b : Buffer}
    (horder : b.InOrder) (hbinding : b.binding = some binding) :
    usesOf (putAt buffers (bindingIndex buffers binding) b) =
      Function.update (usesOf buffers) binding (some b.use) := by
  funext other
  rw [usesOf, getElem?_bindingIndex_put hvalid horder hbinding, Function.update_apply]
  split <;> rfl

/-- A buffer is made ready at a binding exactly if what is asked for agrees with the use there. -/
theorem take_usesOf (buffers : List Buffer) (kind : BufferKind) (binding : Binding)
    (format? : Option Format) :
    (usesOf buffers).take binding ⟨kind, format?⟩ =
      ((bindBuffer kind binding format? buffers).toOption.bind fun r => r.2[r.1]?).map
        fun ready => Function.update (usesOf buffers) binding (some ready.use) := by
  have hget : ∀ ready, (putAt buffers (bindingIndex buffers binding) ready)[bindingIndex buffers
      binding]? = some ready :=
    fun ready => by rw [getElem?_putAt (bindingIndex_le ..), if_pos rfl]
  cases hold : buffers[bindingIndex buffers binding]? with
  | some b =>
    rw [bindBuffer_of_some hold, Uses.take, usesOf, hold, Option.map_some,
      BoundUse.take_use kind binding, Option.map_map]
    cases matchBound kind binding format? b with
    | error => rfl
    | ok ready => exact (congrArg (Option.map _) (hget ready)).symm
  | none =>
    obtain ⟨ready, hready, hfresh⟩ := @boundBuffer_eq kind binding format?
    rw [bindBuffer_of_none hold, Uses.take, usesOf, hold, hready]
    refine Eq.trans ?_ (congrArg (Option.map _) (hget ready)).symm
    cases hfresh <;> rfl

/-- A line that was read is carried out exactly if the use it asks for agrees with the one there. -/
theorem takeUse_eq (h : Tracks buffers commands lines) {line : TestLine} (hread : line.WellRead) :
    line.takeUse (usesOf buffers) =
      (runTestLine line buffers).toOption.map fun r => usesOf r.1 := by
  cases hasked : line.use? with
  | none =>
    cases line <;> cases hasked
    rfl
  | some use =>
    obtain ⟨binding, kind, format?⟩ := use
    rw [TestLine.takeUse, hasked]
    dsimp only
    rw [take_usesOf]
    cases hbind : bindBuffer kind binding format? buffers with
    | error failure =>
      rw [runTestLine_of_refused hasked hbind]
      rfl
    | ok r =>
      obtain ⟨ready, hready, rfl⟩ := (ensures_bindBuffer ..).property_of_eq_ok hbind
      obtain ⟨new, hstep, huse, hrun⟩ := exists_runTestLine hread hasked hready hbind
      have hnext := History.next (h.history binding) hread (TestLine.binding?_of_use? hasked) hstep
      rw [hrun, Except.toOption, Option.bind_some, getElem?_putAt (bindingIndex_le ..), if_pos rfl,
        Option.map_some, Except.toOption, Option.map_some, ← huse]
      exact congrArg some (usesOf_put h.valid hnext.inOrder hnext.binding_eq).symm

end Tables

end GpuScript
