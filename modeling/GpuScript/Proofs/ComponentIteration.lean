import GpuScript.Proofs.ComponentPlaces
import Mathlib.Logic.Function.Iterate

/-!
# Iterating components

The components of a run of elements can be asked for one by one. An iterator keeps the segment that
is next, its offset and the number of elements left, and a call goes on to the next component, past
any padding. Its calls give the components of the run in turn, each where it stands in its element
behind the elements before it, and nothing from then on. The run is taken to fit in memory, so the
offsets are natural numbers that no step overflows.
-/

namespace GpuScript

theorem Format.length_segments_pos (f : Format) : 0 < f.segments.length := by
  refine List.length_pos_iff.2 fun hnil => f.scalarsOf_ne_nil ?_
  rw [hnil]
  rfl

/-- How far the iteration of the components of a run of elements has come: the segment of an element
that is next, its offset, and the number of elements that are not at their end. -/
structure ComponentIterator (f : Format) where
  segment : Nat
  offset : Nat
  elementsLeft : Nat
  inside : segment < f.segments.length

namespace ComponentIterator

variable {f : Format}

def start (f : Format) (offset elements : Nat) : ComponentIterator f :=
  ⟨0, offset, elements, f.length_segments_pos⟩

def current (it : ComponentIterator f) : Segment := f.segments.get ⟨it.segment, it.inside⟩

/-- Past the current segment, the last one of an element leads on to the first one of the next. -/
def advance (it : ComponentIterator f) : ComponentIterator f :=
  if h : it.segment + 1 < f.segments.length then
    ⟨it.segment + 1, it.offset + it.current.size, it.elementsLeft, h⟩
  else ⟨0, it.offset + it.current.size, it.elementsLeft - 1, f.length_segments_pos⟩

theorem advance_of_lt {it : ComponentIterator f} (h : it.segment + 1 < f.segments.length) :
    it.advance = ⟨it.segment + 1, it.offset + it.current.size, it.elementsLeft, h⟩ := dif_pos h

theorem advance_of_last {it : ComponentIterator f} (h : ¬ it.segment + 1 < f.segments.length) :
    it.advance =
      ⟨0, it.offset + it.current.size, it.elementsLeft - 1, f.length_segments_pos⟩ := dif_neg h

theorem advance_lt {it : ComponentIterator f} (h : it.elementsLeft ≠ 0) :
    it.advance.elementsLeft < it.elementsLeft ∨
      it.advance.elementsLeft = it.elementsLeft ∧
        f.segments.length - it.advance.segment < f.segments.length - it.segment := by
  by_cases hlast : it.segment + 1 < f.segments.length
  · rw [advance_of_lt hlast]
    exact .inr ⟨rfl, by dsimp only; omega⟩
  · rw [advance_of_last hlast]
    exact .inl (by dsimp only; omega)

/-- A call: the next component, if there is one, and the iterator behind it. -/
def next (it : ComponentIterator f) : Option (Scalar × Nat) × ComponentIterator f :=
  if _h : it.elementsLeft = 0 then (none, it)
  else
    match it.current with
    | .padding _ => it.advance.next
    | .component _ scalar => (some (scalar, it.offset), it.advance)
termination_by (it.elementsLeft, f.segments.length - it.segment)
decreasing_by
  rcases advance_lt _h with hlt | ⟨heq, hlt⟩
  · exact .left _ _ hlt
  · rw [heq]
    exact .right _ hlt

/-- What call number `k` gives. -/
def call (it : ComponentIterator f) (k : Nat) : Option (Scalar × Nat) :=
  ((fun it : ComponentIterator f => it.next.2)^[k] it).next.1

/-- The components from the iterator on: those of the element that it stands in, and those of the
elements behind it. -/
def remaining (it : ComponentIterator f) : List (Scalar × Nat) :=
  if it.elementsLeft = 0 then []
  else
    placeSegments (f.segments.drop it.segment) it.offset ++
      f.components (it.offset + segmentsSize (f.segments.drop it.segment)) (it.elementsLeft - 1)

theorem remaining_start (f : Format) (offset elements : Nat) :
    (start f offset elements).remaining = f.components offset elements := by
  cases elements <;> rfl

theorem remaining_eq {it : ComponentIterator f} (h : it.elementsLeft ≠ 0) :
    it.remaining = placeSegments [it.current] it.offset ++ it.advance.remaining := by
  have hdrop : f.segments.drop it.segment =
      it.current :: f.segments.drop (it.segment + 1) := List.drop_eq_getElem_cons it.inside
  have hplace : placeSegments (f.segments.drop it.segment) it.offset =
      placeSegments [it.current] it.offset ++
        placeSegments (f.segments.drop (it.segment + 1)) (it.offset + it.current.size) := by
    rw [hdrop]
    exact placeSegments_append [it.current] _ _
  have hsize : segmentsSize (f.segments.drop it.segment) =
      it.current.size + segmentsSize (f.segments.drop (it.segment + 1)) := by
    rw [hdrop]
    rfl
  rw [remaining, if_neg h, hplace, hsize, List.append_assoc, ← Nat.add_assoc]
  by_cases hlast : it.segment + 1 < f.segments.length
  · rw [advance_of_lt hlast, remaining, if_neg h]
  · have hnil : f.segments.drop (it.segment + 1) = [] :=
      List.drop_eq_nil_iff.2 (Nat.le_of_not_lt hlast)
    rw [advance_of_last hlast, hnil, ← remaining_start]
    rfl

theorem next_eq (it : ComponentIterator f) :
    it.next.1 = it.remaining.head? ∧ it.next.2.remaining = it.remaining.tail := by
  induction it using next.induct with
  | case1 it hend =>
    rw [next, dif_pos hend, remaining, if_pos hend]
    exact ⟨rfl, rfl⟩
  | case2 it hmore bytes hpadding ih =>
    rw [next, dif_neg hmore, remaining_eq hmore, hpadding]
    exact ih
  | case3 it hmore mode scalar hcomponent =>
    rw [next, dif_neg hmore, remaining_eq hmore, hcomponent]
    exact ⟨rfl, rfl⟩

theorem call_eq (it : ComponentIterator f) (k : Nat) : it.call k = it.remaining[k]? := by
  induction k generalizing it with
  | zero => rw [← List.head?_eq_getElem?, ← it.next_eq.1]; rfl
  | succ k ih =>
    rw [← List.getElem?_tail, ← it.next_eq.2, ← ih]
    rfl

end ComponentIterator

namespace Format

variable {f : Format} {j : Nat} {place : Scalar × Nat}

/-- Whether component number `j` of an element is a scalar at an offset of the element: before it
there are `j` components, and segments of the size of the offset. -/
def HasComponent (f : Format) (j : Nat) (place : Scalar × Nat) : Prop :=
  ∃ before mode after, f.segments = before ++ .component mode place.1 :: after ∧
    (scalarsOf before).length = j ∧ segmentsSize before = place.2

theorem exists_segments_of_getElem? {segments : List Segment} {offset : Nat}
    (h : (placeSegments segments offset)[j]? = some place) :
    ∃ before mode after, segments = before ++ .component mode place.1 :: after ∧
      (scalarsOf before).length = j ∧ offset + segmentsSize before = place.2 := by
  induction segments generalizing offset j with
  | nil => simp [placeSegments] at h
  | cons segment rest ih =>
    cases segment with
    | padding bytes =>
      obtain ⟨before, mode, after, rfl, rfl, hoffset⟩ := ih h
      exact ⟨.padding bytes :: before, mode, after, rfl, rfl, by
        simpa [segmentsSize, Segment.size, Nat.add_assoc] using hoffset⟩
    | component mode scalar =>
      cases j with
      | zero =>
        obtain rfl := Option.some.inj h
        exact ⟨[], mode, rest, rfl, rfl, rfl⟩
      | succ j =>
        obtain ⟨before, other, after, rfl, rfl, hoffset⟩ := ih h
        exact ⟨.component mode scalar :: before, other, after, rfl, rfl, by
          simpa [segmentsSize, Segment.size, Nat.add_assoc] using hoffset⟩

theorem hasComponent_iff :
    f.HasComponent j place ↔ (placeSegments f.segments 0)[j]? = some place := by
  constructor
  · rintro ⟨before, mode, after, hsegments, rfl, hoffset⟩
    rw [hsegments, placeSegments_append, ← length_placeSegments before 0,
      List.getElem?_append_right (Nat.le_refl _), Nat.sub_self, Nat.zero_add, hoffset]
    rfl
  · intro h
    obtain ⟨before, mode, after, hsegments, hcount, hoffset⟩ := exists_segments_of_getElem? h
    exact ⟨before, mode, after, hsegments, hcount, by rwa [Nat.zero_add] at hoffset⟩

/-- The components of a run of elements are given in turn and then nothing any more. Each stands in
its element as in the first one, behind the elements before it, and ends before the next one starts,
and all are inside of the run. -/
theorem call_of_run (f : Format) (start n : Nat) :
    ∃ places : List (Scalar × Nat), places.length = f.valuesPerElement ∧
      (∀ j place, places[j]? = some place ↔ f.HasComponent j place) ∧
      places.Pairwise (fun p q => p.2 < q.2) ∧
      (∀ k < n * f.valuesPerElement, ∃ place, places[k % f.valuesPerElement]? = some place ∧
        (ComponentIterator.start f start n).call k =
          some (place.1, start + k / f.valuesPerElement * f.size + place.2)) ∧
      (∀ k, n * f.valuesPerElement ≤ k → (ComponentIterator.start f start n).call k = none) ∧
      (∀ k, (ComponentIterator.start f start n).call k = (f.components start n)[k]?) ∧
      (f.components start n).Pairwise EndsBefore ∧
      ∀ place ∈ f.components start n,
        start ≤ place.2 ∧ place.2 + place.1.size ≤ start + n * f.size := by
  have hcall : ∀ k, (ComponentIterator.start f start n).call k = (f.components start n)[k]? := by
    intro k
    rw [ComponentIterator.call_eq, ComponentIterator.remaining_start]
  refine ⟨placeSegments f.segments 0, length_placeSegments _ _, fun j place =>
    hasComponent_iff.symm, ?increasing, ?inside, ?behind, hcall, pairwise_components start n,
    fun place => components_inside⟩
  case increasing =>
    refine (pairwise_placeSegments f.segments 0).imp fun {p q} h => ?_
    exact Nat.lt_of_lt_of_le (Nat.lt_add_of_pos_right p.1.size_pos) h
  case inside =>
    intro k hk
    refine ⟨_, List.getElem?_eq_getElem ?_, ?_⟩
    · rw [length_placeSegments]
      exact Nat.mod_lt _ f.valuesPerElement_pos
    · rw [hcall, getElem?_components, if_pos hk]
      rfl
  case behind =>
    intro k hk
    rw [hcall, getElem?_components, if_neg (Nat.not_lt.2 hk)]

end Format

end GpuScript
