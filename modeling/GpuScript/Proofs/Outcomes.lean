import GpuScript.LineError
import Mathlib.Data.List.Forall2

/-!
# Outcomes of steps

What a successful chain of steps consists of, and the outcomes that a step is allowed to have: a
result with a property or an error of some form, but never a fault. What is wrong with a line is
such an error of a form.
-/

namespace GpuScript

/-- What a change in place comes to: the result, or the reason why it stopped. -/
def settle {ε α : Type} : α × Option ε → Except ε α
  | (a, none) => .ok a
  | (_, some e) => .error e

section Success

variable {ε α β : Type}

theorem settle_eq_ok_iff {r : α × Option ε} {a : α} : settle r = .ok a ↔ r = (a, none) := by
  obtain ⟨b, _ | e⟩ := r <;> simp [settle]

theorem exists_of_bind_eq_ok {x : Except ε α} {next : α → Except ε β} {b : β}
    (h : x >>= next = .ok b) : ∃ a, x = .ok a ∧ next a = .ok b := by
  cases x with
  | error e => cases h
  | ok a => exact ⟨a, rfl, h⟩

theorem exists_of_map_eq_ok {x : Except ε α} {f : α → β} {b : β} (h : x.map f = .ok b) :
    ∃ a, x = .ok a ∧ f a = b := by
  cases x with
  | error e => cases h
  | ok a => exact ⟨a, rfl, Except.ok.inj h⟩

theorem exists_of_toOption_map_eq_some {x : Except ε α} {f : α → β} {b : β}
    (h : x.toOption.map f = some b) : ∃ a, x = .ok a ∧ f a = b := by
  cases x with
  | error e => cases h
  | ok a => exact ⟨a, rfl, Option.some.inj h⟩

theorem mapM_eq_ok_iff {f : α → Except ε β} {as : List α} {bs : List β} :
    as.mapM f = .ok bs ↔ List.Forall₂ (fun a b => f a = .ok b) as bs := by
  induction as generalizing bs with
  | nil => cases bs <;> simp [pure, Except.pure]
  | cons a as ih =>
    rw [List.mapM_cons]
    constructor
    · intro h
      obtain ⟨b, hb, h⟩ := exists_of_bind_eq_ok h
      obtain ⟨rest, hrest, h⟩ := exists_of_bind_eq_ok h
      cases h
      exact .cons hb (ih.1 hrest)
    · intro h
      cases h with
      | cons hb hrest =>
        rw [hb, ih.2 hrest]
        rfl

theorem forall₂_of_mapM_eq_some {f : α → Option β} {as : List α} {bs : List β}
    (h : as.mapM f = some bs) : List.Forall₂ (fun a b => f a = some b) as bs := by
  induction as generalizing bs with
  | nil =>
    cases h
    exact .nil
  | cons a as ih =>
    rw [List.mapM_cons] at h
    obtain ⟨b, hb, h⟩ := Option.bind_eq_some_iff.1 h
    obtain ⟨rest, hrest, h⟩ := Option.bind_eq_some_iff.1 h
    cases h
    exact .cons hb (ih hrest)

/-- A list of steps fails for the first of them that does. -/
theorem mapM_eq_error_iff {f : α → Except ε β} {as : List α} {e : ε} :
    as.mapM f = .error e ↔ ∃ before a after, as = before ++ a :: after ∧
      (∀ b ∈ before, ∃ c, f b = .ok c) ∧ f a = .error e := by
  constructor
  · intro h
    induction as with
    | nil => cases h
    | cons a as ih =>
      rw [List.mapM_cons] at h
      cases ha : f a with
      | error own =>
        rw [ha] at h
        cases h
        exact ⟨[], a, as, rfl, List.forall_mem_nil _, ha⟩
      | ok b =>
        rw [ha] at h
        cases hrest : as.mapM f with
        | ok rest =>
          rw [hrest] at h
          cases h
        | error own =>
          rw [hrest] at h
          cases h
          obtain ⟨before, c, after, rfl, hbefore, hc⟩ := ih hrest
          exact ⟨a :: before, c, after, rfl, List.forall_mem_cons.2 ⟨⟨b, ha⟩, hbefore⟩, hc⟩
  · rintro ⟨before, a, after, rfl, hbefore, ha⟩
    induction before with
    | nil =>
      rw [List.nil_append, List.mapM_cons, ha]
      rfl
    | cons b before ih =>
      obtain ⟨⟨c, hc⟩, hbefore⟩ := List.forall_mem_cons.1 hbefore
      rw [List.cons_append, List.mapM_cons, hc, ih hbefore]
      rfl

theorem map_eq_error_iff {x : Except ε α} {f : α → β} {e : ε} :
    x.map f = .error e ↔ x = .error e := by
  cases x <;> simp [Except.map]

theorem orFault_eq_ok_iff {x : Except Fault α} {a : α} :
    (orFault x : Except (Failure ε) α) = .ok a ↔ x = .ok a := by
  cases x <;> simp [orFault]

theorem orInvalid_eq_ok_iff {x : Except LineError α} {a : α} :
    orInvalid x = .ok a ↔ x = .ok a := by
  cases x <;> simp [orInvalid, reject, refuse]

theorem onBuffer_eq_ok_iff {x : Except (Failure BufferError) α} {a : α} :
    onBuffer x = .ok a ↔ x = .ok a := by
  unfold onBuffer
  split <;> simp [refuse]

instance decidableExistsOk {p : α → Prop} [DecidablePred p] :
    (x : Except ε α) → Decidable (∃ a, x = .ok a ∧ p a)
  | .ok a => decidable_of_iff (p a) ⟨fun h => ⟨a, rfl, h⟩, fun ⟨_, heq, h⟩ => by cases heq; exact h⟩
  | .error _ => isFalse fun ⟨_, heq, _⟩ => by cases heq

end Success

/-- Whether two steps fail for one reason or give related results. -/
inductive SameOutcome {ε α β : Type} (related : α → β → Prop) : Except ε α → Except ε β → Prop
  | error (e : ε) : SameOutcome related (.error e) (.error e)
  | ok {a : α} {b : β} (h : related a b) : SameOutcome related (.ok a) (.ok b)

namespace SameOutcome

variable {ε α β γ δ : Type} {related : α → β → Prop} {later : γ → δ → Prop} {x : Except ε α}
  {y : Except ε β}

theorem bind {f : α → Except ε γ} {g : β → Except ε δ} (h : SameOutcome related x y)
    (hnext : ∀ a b, related a b → SameOutcome later (f a) (g b)) :
    SameOutcome later (x >>= f) (y >>= g) := by
  cases h with
  | error e => exact .error e
  | ok hab => exact hnext _ _ hab

theorem bind_left {f : γ → Except ε α} {g : γ → Except ε β} (z : Except ε γ)
    (hnext : ∀ c, SameOutcome related (f c) (g c)) : SameOutcome related (z >>= f) (z >>= g) := by
  cases z with
  | error e => exact .error e
  | ok c => exact hnext c

theorem map_left {f : γ → α} {g : γ → β} (z : Except ε γ) (h : ∀ c, related (f c) (g c)) :
    SameOutcome related (z.map f) (z.map g) := by
  cases z with
  | error e => exact .error e
  | ok c => exact .ok (h c)

/-- What is done with the reason of a failure may depend on the reason alone. -/
theorem handled {η : Type} {f : Except ε α → Except η γ} {g : Except ε β → Except η δ}
    (h : SameOutcome related x y) (herror : ∀ e, SameOutcome later (f (.error e)) (g (.error e)))
    (hok : ∀ a b, related a b → SameOutcome later (f (.ok a)) (g (.ok b))) :
    SameOutcome later (f x) (g y) := by
  cases h with
  | error e => exact herror e
  | ok hab => exact hok _ _ hab

theorem exists_of_eq_ok (h : SameOutcome related x y) {a : α} (hx : x = .ok a) :
    ∃ b, y = .ok b ∧ related a b := by
  subst hx
  cases h with
  | ok hab => exact ⟨_, rfl, hab⟩

theorem eq_of_eq {y : Except ε α} (h : SameOutcome Eq x y) : x = y := by
  cases h with
  | error e => rfl
  | ok hab => rw [hab]

end SameOutcome

/-- Whether an outcome is a result with a property or an error that is allowed. -/
def Ensures {ε α : Type} (allowed : ε → Prop) (property : α → Prop) :
    Except (Failure ε) α → Prop
  | .ok a => property a
  | .error (.error cause) => allowed cause
  | .error (.fault _) => False

namespace Ensures

variable {ε α β : Type} {allowed : ε → Prop} {property : α → Prop} {later : β → Prop}
  {x : Except (Failure ε) α}

theorem property_of_eq_ok {a : α} (hx : Ensures allowed property x) (h : x = .ok a) :
    property a := by
  rw [h] at hx
  exact hx

theorem mono {weaker : α → Prop} (hx : Ensures allowed property x)
    (h : ∀ a, property a → weaker a) : Ensures allowed weaker x := by
  cases x with
  | ok a => exact h a hx
  | error failure =>
    cases failure with
    | error cause => exact hx
    | fault fault => exact hx

theorem bind {next : α → Except (Failure ε) β} (hx : Ensures allowed property x)
    (h : ∀ a, property a → Ensures allowed later (next a)) :
    Ensures allowed later (x >>= next) := by
  cases x with
  | ok a => exact h a hx
  | error failure =>
    cases failure with
    | error cause => exact hx
    | fault fault => exact hx

theorem bind_of_eq_ok {next : α → Except (Failure ε) β} {a : α} (h : x = .ok a)
    (ha : Ensures allowed later (next a)) : Ensures allowed later (x >>= next) := by
  rw [h]
  exact ha

/-- An outcome without a fault is a result or an allowed error. -/
theorem cases (hx : Ensures allowed property x) :
    (∃ a, x = .ok a ∧ property a) ∨ ∃ cause, x = .error (.error cause) ∧ allowed cause := by
  cases x with
  | ok a => exact .inl ⟨a, rfl, hx⟩
  | error failure =>
    cases failure with
    | error cause => exact .inr ⟨cause, rfl, hx⟩
    | fault fault => exact hx.elim

end Ensures

def LoadCause.IsInvalid (cause : LoadCause) : Prop := ∃ error, cause = .invalid error

section Readers

variable {α β : Type} {property : α → Prop} {later : β → Prop} {x : Except LineError α}

theorem Ensures.of_orInvalid (h : ∀ a, x = .ok a → property a) :
    Ensures LoadCause.IsInvalid property (orInvalid x) := by
  cases x with
  | ok a => exact h a rfl
  | error e => exact ⟨e, rfl⟩

theorem Ensures.bind_orInvalid {next : α → LineResult β}
    (h : ∀ a, x = .ok a → Ensures LoadCause.IsInvalid later (next a)) :
    Ensures LoadCause.IsInvalid later (orInvalid x >>= next) :=
  (Ensures.of_orInvalid fun _ => id).bind h

theorem Ensures.reject (error : LineError) :
    Ensures LoadCause.IsInvalid property (reject error) :=
  ⟨error, rfl⟩

end Readers

end GpuScript
