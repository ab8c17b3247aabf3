import GpuScript.Proofs.ComponentPlaces
import GpuScript.Proofs.Outcomes
import GpuScript.ValueLiteral

/-!
# Values that can be stored

A value is for a kind of scalar when it was read as that kind; for a half float it is a
single-precision number in the range of half floats. Such a value always has bits to be stored as,
and every token that is read for a kind gives one.
-/

namespace GpuScript

namespace Value

/-- Whether the value is of the kind that is read for a component of a kind. -/
def IsFor (v : Value) : Scalar → Prop
  | .float16 => v.scalar = .float32 ∧ Half.fits v.toSingle = true
  | s => v.scalar = s

/-- Only a number out of the range of half floats cannot be stored, and only as one of them. -/
theorem exists_bitsAs {v : Value} {s : Scalar} (h : s = .float16 → Half.fits v.toSingle = true) :
    ∃ b, v.bitsAs s = .ok b := by
  cases s
  case float16 =>
    have hfits : (Half.exponent? v.toSingle).isSome = true := h rfl
    obtain ⟨e, he⟩ := Option.isSome_iff_exists.1 hfits
    cases ht : Half.truncate v.toSingle with
    | ok b => exact ⟨b, ht⟩
    | error fault => simp [Half.truncate, he] at ht
  case float32 => exact ⟨v.toSingle, rfl⟩
  case float64 => exact ⟨v.toDouble, rfl⟩
  all_goals exact ⟨v.toInteger _ _, rfl⟩

theorem IsFor.exists_bitsAs {v : Value} {s : Scalar} (h : v.IsFor s) :
    ∃ b, v.bitsAs s = .ok b := by
  refine Value.exists_bitsAs fun hs => ?_
  subst hs
  exact h.2

theorem wholeToken?_eq_some_iff {α : Type}
    {read : List Char → Except LiteralError (α × List Char)} {token : List Char} {a : α} :
    wholeToken? read token = some a ↔ read token = .ok (a, []) := by
  unfold wholeToken?
  split <;> simp_all

theorem scalar_of_readLiteral {s : Scalar} {text tail : List Char} {v : Value}
    (h : readLiteral s text = .ok (v, tail)) :
    v.scalar = if s = .float16 then .float32 else s := by
  unfold readLiteral at h
  split at h
  · obtain ⟨p, -, hp⟩ := exists_of_map_eq_ok h
    cases hp
    rfl
  · obtain ⟨p, -, hp⟩ := exists_of_map_eq_ok h
    cases hp
    rfl
  · obtain ⟨p, -, hp⟩ := exists_of_map_eq_ok h
    cases hp
    rfl
  · next hhalf hsingle hdouble =>
    rw [if_neg hhalf]
    split at h <;> obtain ⟨p, -, hp⟩ := exists_of_map_eq_ok h <;> cases hp <;> rfl

theorem isFor_of_ofToken? {s : Scalar} {token : List Char} {v : Value}
    (h : ofToken? s token = some v) : v.IsFor s := by
  obtain ⟨hread, hfits⟩ := Option.filter_eq_some_iff.1 h
  have hscalar := scalar_of_readLiteral (wholeToken?_eq_some_iff.1 hread)
  cases s with
  | float16 => exact ⟨hscalar, by simpa [fits] using hfits⟩
  | _ => exact hscalar

end Value

namespace Format

variable {f g : Format}

/-- Whether values fill whole elements of the format and each one is for its component. -/
structure Accepts (f : Format) (values : List Value) : Prop where
  whole : values.length % f.valuesPerElement = 0
  isFor : ∀ (k : Nat) (v : Value), values[k]? = some v → v.IsFor (f.scalarAt k)

theorem Accepts.congr {values : List Value} (h : f.Accepts values)
    (hs : f.segments = g.segments) : g.Accepts values := by
  refine ⟨?_, ?_⟩
  · rw [← valuesPerElement_congr hs]
    exact h.whole
  · intro k v hv
    rw [← scalarAt_congr hs]
    exact h.isFor k v hv

theorem accepts_of_forall₂ {values : List Value}
    (h : List.Forall₂ (fun s v => Value.IsFor v s) f.scalars values) : f.Accepts values := by
  have hlength : f.valuesPerElement = values.length := h.length_eq
  refine ⟨by rw [← hlength, Nat.mod_self], ?_⟩
  intro k v hv
  obtain ⟨hk, rfl⟩ := List.getElem?_eq_some_iff.1 hv
  have hk' : k < f.valuesPerElement := hlength ▸ hk
  rw [scalarAt_eq_of_lt hk']
  exact h.get hk' hk

end Format

end GpuScript
