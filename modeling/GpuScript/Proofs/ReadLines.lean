import GpuScript.IndexData
import GpuScript.Proofs.StorableValues
import GpuScript.TestLine
import GpuScript.VertexData

/-!
# What lines are read to

The readers of data only give values that can be stored where they are asked for: a row of vertex
data for its columns, indices for the index buffer, and the data of a test line for the type that
the line names. A test line that is read is well-formed on its own.
-/

namespace GpuScript

theorem isFor_of_readCell {packed : Bool} {s : Scalar} {token : List Char} {v : Value}
    (h : readCell packed s token = .ok v) : v.IsFor s := by
  unfold readCell at h
  split at h
  · cases h
  · split at h
    · next heq =>
      cases h
      exact Value.isFor_of_ofToken? heq
    · cases h

theorem isFor_of_readCells {packed : Bool} {scalars : List Scalar}
    {tokens rest : List (List Char)} {values : List Value}
    (h : readCells packed scalars tokens = .ok (values, rest)) :
    List.Forall₂ (fun s v => Value.IsFor v s) scalars values := by
  induction scalars generalizing tokens values with
  | nil =>
    cases h
    exact .nil
  | cons s scalars ih =>
    cases tokens with
    | nil => cases h
    | cons token tokens =>
      obtain ⟨v, hv, h⟩ := exists_of_bind_eq_ok h
      obtain ⟨⟨more, left⟩, hmore, h⟩ := exists_of_bind_eq_ok h
      cases h
      exact .cons (isFor_of_readCell hv) (ih hmore)

theorem isFor_of_readRow {formats : List Format} {tokens : List (List Char)}
    {row : List (List Value)} (h : readRow formats tokens = .ok row) :
    List.Forall₂ (fun f values => List.Forall₂ (fun s v => Value.IsFor v s) f.scalars values)
      formats row := by
  induction formats generalizing tokens row with
  | nil =>
    cases tokens with
    | nil =>
      cases h
      exact .nil
    | cons token tokens => cases h
  | cons format formats ih =>
    obtain ⟨⟨values, rest⟩, hvalues, h⟩ := exists_of_bind_eq_ok h
    obtain ⟨more, hmore, h⟩ := exists_of_bind_eq_ok h
    cases h
    exact .cons (isFor_of_readCells hvalues) (ih hmore)

theorem accepts_of_readRow {formats : List Format} {tokens : List (List Char)}
    {row : List (List Value)} (h : readRow formats tokens = .ok row) :
    List.Forall₂ Format.Accepts formats row :=
  (isFor_of_readRow h).imp fun _ _ => Format.accepts_of_forall₂

theorem scalar_of_readIndices {line : List (List Char)} {values : List Value}
    (h : readIndices line = .ok values) : ∀ v ∈ values, v.scalar = .uint16 := by
  have hread := mapM_eq_ok_iff.1 h
  clear h
  induction hread with
  | nil => simp
  | cons hv _ ih =>
    obtain ⟨index, -, rfl⟩ := exists_of_map_eq_ok hv
    simpa [Value.ofInt] using ih

/-- The buffers that a binding can refer to. -/
def BufferKind.IsBound (kind : BufferKind) : Prop := kind = .storage ∨ kind = .uniform

def Operation.write? : Operation → Option (Nat × Nat × List Value)
  | .setBufferData buffer offset values => some (buffer, offset, values)
  | _ => none

/-- Whether the line is of a form that reading gives. -/
def TestLine.WellRead : TestLine → Prop
  | .clear operation => operation.write? = none
  | .subdata kind _ format offset values =>
    kind.IsBound ∧ values ≠ [] ∧ format.Accepts values ∧ offset % (format.scalarAt 0).size = 0
  | .size kind _ _ => kind.IsBound

theorem isFor_of_readCycled {format : Format} {index : Nat} {tokens : List (List Char)}
    {values : List Value} (h : readCycled format index tokens = .ok values) (k : Nat) (v : Value)
    (hv : values[k]? = some v) : v.IsFor (format.scalarAt (index + k)) := by
  induction tokens generalizing index values k with
  | nil =>
    cases h
    simp at hv
  | cons token tokens ih =>
    unfold readCycled at h
    split at h
    · cases h
    · next w hw =>
      obtain ⟨more, hmore, rfl⟩ := exists_of_map_eq_ok h
      cases k with
      | zero =>
        cases hv
        exact Value.isFor_of_ofToken? hw
      | succ k =>
        rw [← Nat.succ_add_eq_add_succ]
        exact ih hmore k hv

theorem accepts_of_readData {format : Format} {text : List Char} {values : List Value}
    (h : readData format text = .ok values) : values ≠ [] ∧ format.Accepts values := by
  obtain ⟨read, hread, h⟩ := exists_of_bind_eq_ok h
  split at h
  · cases h
  · next hne =>
    split at h
    · cases h
    · next hwhole =>
      cases h
      refine ⟨hne, Decidable.not_not.1 hwhole, ?_⟩
      intro k v hv
      simpa using isFor_of_readCycled hread k v hv

theorem wellRead_of_readSubdata {kind : BufferKind} {binding : Binding} {rule : LayoutRule}
    {text : List Char} {line : TestLine} (hkind : kind.IsBound)
    (h : readSubdata kind binding rule text = .ok line) : line.WellRead := by
  unfold readSubdata at h
  split at h
  · cases h
  · split at h
    · cases h
    · split at h
      · cases h
      · dsimp only at h
        split at h
        · cases h
        · next halign =>
          obtain ⟨values, hvalues, rfl⟩ := exists_of_map_eq_ok h
          obtain ⟨hne, haccepts⟩ := accepts_of_readData hvalues
          exact ⟨hkind, hne, haccepts, Decidable.not_not.1 halign⟩

theorem wellRead_of_readBufferCommand {kind : BufferKind} {rule : LayoutRule}
    {text : List Char} {line : TestLine} (hkind : kind.IsBound)
    (h : readBufferCommand kind rule text = .ok line) : line.WellRead := by
  obtain ⟨⟨binding, rest⟩, -, h⟩ := exists_of_bind_eq_ok h
  dsimp only at h
  split at h
  · exact wellRead_of_readSubdata hkind h
  · split at h
    · split at h
      · cases h
        exact hkind
      · cases h
    · cases h

theorem write?_of_readClear {arguments : List Char} {operation : Operation}
    (h : readClear arguments = .ok operation) : operation.write? = none := by
  unfold readClear at h
  split at h
  · obtain ⟨⟨r, more⟩, -, h⟩ := exists_of_bind_eq_ok h
    obtain ⟨⟨g, more⟩, -, h⟩ := exists_of_bind_eq_ok h
    obtain ⟨⟨b, more⟩, -, h⟩ := exists_of_bind_eq_ok h
    obtain ⟨⟨a, more⟩, -, h⟩ := exists_of_bind_eq_ok h
    obtain ⟨_, -, h⟩ := exists_of_bind_eq_ok h
    cases h
    rfl
  · split at h
    · obtain ⟨⟨value, more⟩, -, h⟩ := exists_of_bind_eq_ok h
      obtain ⟨_, -, h⟩ := exists_of_bind_eq_ok h
      cases h
      rfl
    · split at h
      · obtain ⟨⟨value, more⟩, -, h⟩ := exists_of_bind_eq_ok h
        obtain ⟨_, -, h⟩ := exists_of_bind_eq_ok h
        cases h
        rfl
      · split at h
        · cases h
        · cases h
          rfl

/-- Every line that a test section takes in is well-formed. -/
theorem wellRead_of_readTestLine {text : List Char} {line : TestLine}
    (h : readTestLine text = .ok (some line)) : line.WellRead := by
  unfold readTestLine at h
  split at h
  · cases h
  · split at h
    · obtain ⟨operation, hoperation, h⟩ := exists_of_map_eq_ok h
      cases h
      exact write?_of_readClear hoperation
    · split at h
      · obtain ⟨read, hread, h⟩ := exists_of_map_eq_ok h
        cases h
        exact wellRead_of_readBufferCommand (.inl rfl) hread
      · split at h
        · obtain ⟨read, hread, h⟩ := exists_of_map_eq_ok h
          cases h
          exact wellRead_of_readBufferCommand (.inr rfl) hread
        · cases h

end GpuScript
