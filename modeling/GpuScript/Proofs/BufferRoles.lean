import GpuScript.Proofs.BufferGrowth
import GpuScript.Proofs.LineAdditions

/-!
# The roles of buffers

A table has one colour buffer, which comes first, and at most one buffer for the depth values and one
for the indices. Each change keeps this, so at any point of a script the buffers are found by their
kind or their binding without doubt, the framebuffer has one size, and a format that stands in for
another one belongs to a blank bound buffer.
-/

namespace GpuScript

/-- Whether a table has no two buffers of a kind. -/
def AtMostOne (kind : BufferKind) (buffers : List Buffer) : Prop :=
  ∀ (i j : Nat) (b c : Buffer), buffers[i]? = some b → buffers[j]? = some c →
    b.kind = kind → c.kind = kind → i = j

/-- The kinds that a script has one buffer of at most. -/
def BufferKind.IsSingle (kind : BufferKind) : Prop := kind = .color ∨ kind = .depth ∨ kind = .index

/-- Whether a buffer is made for its kind, beside a colour buffer, and has the bytes of its
elements. -/
structure Buffer.PlaysRole (color b : Buffer) : Prop where
  extent : b.kind = .depth → b.width = color.width ∧ b.height = color.height
  located : b.location ≠ none ↔ b.kind = .vertex
  bound : b.formatIsDefault = true → b.kind.IsBound
  whole : b.bytes.length = b.size

/-- Whether the buffers of a table have roles that do not get in each other's way. -/
structure HasRoles (buffers : List Buffer) : Prop where
  color : ∃ color, buffers[0]? = some color ∧ color.kind = .color ∧
    ∀ b ∈ buffers, color.PlaysRole b
  single : ∀ kind : BufferKind, kind.IsSingle → AtMostOne kind buffers

namespace Buffer.PlaysRole

variable {color first b new : Buffer}

theorem revised (h : color.PlaysRole b) (hcolor : color.Revised first) (hb : b.Revised new) :
    first.PlaysRole new := by
  refine ⟨?_, ?_, ?_, (hb.length h.whole).1⟩
  · rw [hb.kind, hb.width, hb.height, hcolor.width, hcolor.height]
    exact h.extent
  · rw [hb.kind, hb.location]
    exact h.located
  · intro hdefault
    rw [hb.kind]
    exact h.bound (hb.isDefault hdefault)

/-- A new size that goes to the whole framebuffer does not part its buffers. -/
theorem resize (h : color.PlaysRole b) (width height : Nat) :
    Buffer.PlaysRole { color with width := width, height := height }
      (if b.kind = .color ∨ b.kind = .depth then { b with width := width, height := height }
        else b) := by
  split
  · exact ⟨fun _ => ⟨rfl, rfl⟩, h.located, h.bound, h.whole⟩
  · next hother => exact ⟨fun hdepth => (hother (.inr hdepth)).elim, h.located, h.bound, h.whole⟩

theorem ofFormat {kind : BufferKind} (format : Format) (hdepth : kind ≠ .depth)
    (hvertex : kind ≠ .vertex) : color.PlaysRole (Buffer.ofFormat kind format) :=
  ⟨fun h => (hdepth h).elim, by simpa [Buffer.ofFormat] using hvertex, fun h => (by cases h),
    (Nat.zero_mul _).symm⟩

theorem addition {buffers : List Buffer} (hcolor : buffers[0]? = some color)
    (hb : Addition buffers b) : color.PlaysRole b := by
  cases hb with
  | depth format hfirst =>
    obtain rfl := Option.some.inj (hcolor.symm.trans hfirst)
    exact ⟨fun _ => ⟨rfl, rfl⟩, by simp [Buffer.ofFormat], fun h => (by cases h),
      (Nat.zero_mul _).symm⟩
  | index format => exact .ofFormat format (by decide) (by decide)
  | column column =>
    exact ⟨fun h => (by cases h), by simp [columnBuffer, Buffer.ofFormat], fun h => (by cases h),
      (Nat.zero_mul _).symm⟩
  | bound hbound _ hlocation hlength =>
    refine ⟨?_, ?_, fun _ => hbound, hlength⟩
    · intro hdepth
      rcases hbound with h | h <;> simp [h] at hdepth
    · rcases hbound with h | h <;> simp [h, hlocation]

end Buffer.PlaysRole

theorem Addition.kind_ne {buffers : List Buffer} {b : Buffer} (h : Addition buffers b)
    (hsingle : b.kind.IsSingle) : ∀ x ∈ buffers, x.kind ≠ b.kind := by
  cases h with
  | depth format hcolor hnone =>
    exact fun x hx => of_decide_eq_false (List.findIdx?_eq_none_iff.1 hnone x hx)
  | index format hnone =>
    exact fun x hx => of_decide_eq_false (List.findIdx?_eq_none_iff.1 hnone x hx)
  | column column => simp [BufferKind.IsSingle, columnBuffer, Buffer.ofFormat] at hsingle
  | bound hbound =>
    rcases hbound with h | h <;> simp [BufferKind.IsSingle, h] at hsingle

namespace HasRoles

variable {buffers new : List Buffer} {b : Buffer}

theorem whole (h : HasRoles buffers) (hb : b ∈ buffers) : b.bytes.length = b.size := by
  obtain ⟨color, -, -, hroles⟩ := h.color
  exact (hroles b hb).whole

/-- A table keeps its roles if each buffer does. -/
theorem related (h : HasRoles buffers) (related : Buffer → Buffer → Prop)
    (hlength : new.length = buffers.length)
    (hget : ∀ (i : Nat) (x : Buffer), new[i]? = some x → ∃ y, buffers[i]? = some y ∧ related y x)
    (hkind : ∀ y x, related y x → x.kind = y.kind)
    (hrole : ∀ color first y x, color.kind = .color → related color first → related y x →
      color.PlaysRole y → first.PlaysRole x) : HasRoles new := by
  obtain ⟨color, hcolor, hcolored, hroles⟩ := h.color
  have hlt : 0 < new.length := by
    rw [hlength]
    exact (List.getElem?_eq_some_iff.1 hcolor).1
  obtain ⟨y, hy, hfirst⟩ := hget 0 new[0] (List.getElem?_eq_getElem hlt)
  obtain rfl := Option.some.inj (hcolor.symm.trans hy)
  refine ⟨⟨new[0], List.getElem?_eq_getElem hlt, (hkind _ _ hfirst).trans hcolored, ?_⟩, ?_⟩
  · intro x hx
    obtain ⟨i, hi⟩ := List.getElem?_of_mem hx
    obtain ⟨y, hy, hyx⟩ := hget i x hi
    exact hrole _ _ y x hcolored hfirst hyx (hroles y (List.mem_of_getElem? hy))
  · intro kind hsingle i j x z hx hz hxkind hzkind
    obtain ⟨x', hx', hsame⟩ := hget i x hx
    obtain ⟨z', hz', hsame'⟩ := hget j z hz
    exact h.single kind hsingle i j x' z' hx' hz' ((hkind _ _ hsame).symm.trans hxkind)
      ((hkind _ _ hsame').symm.trans hzkind)

theorem set (h : HasRoles buffers) {i : Nat} {old : Buffer} (hold : buffers[i]? = some old)
    (hb : old.Revised b) : HasRoles (buffers.set i b) := by
  refine h.related Buffer.Revised List.length_set ?_ (fun _ _ hyx => Buffer.Revised.kind hyx)
    (fun _ _ _ _ _ hcolor hyx hy => hy.revised hcolor hyx)
  intro j x hx
  by_cases hij : i = j
  · subst hij
    rw [List.getElem?_set_self (List.getElem?_eq_some_iff.1 hold).1] at hx
    cases hx
    exact ⟨old, hold, hb⟩
  · rw [List.getElem?_set_ne hij] at hx
    exact ⟨x, hx, .refl x⟩

theorem resize (h : HasRoles buffers) (width height : Nat) :
    HasRoles (setFramebufferSize buffers width height) := by
  refine h.related (fun y x => x =
    if y.kind = .color ∨ y.kind = .depth then { y with width := width, height := height } else y)
    (List.length_map ..) ?_ ?_ ?_
  · intro i x hx
    rw [setFramebufferSize, List.getElem?_map, Option.map_eq_some_iff] at hx
    obtain ⟨y, hy, rfl⟩ := hx
    exact ⟨y, hy, rfl⟩
  · rintro y _ rfl
    split <;> rfl
  · rintro color _ y _ hcolored rfl rfl hy
    rw [if_pos (.inl hcolored)]
    exact hy.resize width height

theorem add (h : HasRoles buffers) (hb : Addition buffers b) : HasRoles (buffers ++ [b]) := by
  have hcases : ∀ {i : Nat} {x : Buffer}, (buffers ++ [b])[i]? = some x →
      buffers[i]? = some x ∨ i = buffers.length ∧ x = b := by
    intro i x hx
    rcases Nat.lt_trichotomy i buffers.length with hlt | rfl | hgt
    · rw [List.getElem?_append_left hlt] at hx
      exact .inl hx
    · rw [List.getElem?_concat_length] at hx
      exact .inr ⟨rfl, (Option.some.inj hx).symm⟩
    · rw [List.getElem?_eq_none (by rw [List.length_append]; exact hgt)] at hx
      cases hx
  obtain ⟨color, hcolor, hcolored, hroles⟩ := h.color
  refine ⟨⟨color, ?_, hcolored, ?_⟩, ?_⟩
  · rw [List.getElem?_append_left (List.getElem?_eq_some_iff.1 hcolor).1, hcolor]
  · intro x hx
    rcases List.mem_append.1 hx with hx | hx
    · exact hroles x hx
    · rw [List.mem_singleton.1 hx]
      exact .addition hcolor hb
  · intro kind hsingle i j x y hx hy hxkind hykind
    rcases hcases hx with hold | ⟨hi, hxb⟩ <;> rcases hcases hy with hold' | ⟨hj, hyb⟩
    · exact h.single kind hsingle i j x y hold hold' hxkind hykind
    · subst hyb hykind
      exact (hb.kind_ne hsingle x (List.mem_of_getElem? hold) hxkind).elim
    · subst hxb hxkind
      exact (hb.kind_ne hsingle y (List.mem_of_getElem? hold') hykind).elim
    · exact hi.trans hj.symm

theorem change (h : HasRoles buffers) (hchange : TableChange buffers new) : HasRoles new := by
  cases hchange with
  | revise hold hrevised => exact h.set hold hrevised
  | resize width height => exact h.resize _ _
  | add hadded => exact h.add hadded

theorem changes (h : HasRoles buffers) (hchanges : TableChanges buffers new) : HasRoles new :=
  hchanges.preserves (fun hchange hold => hold.change hchange) h

theorem singleton {color : Buffer} (hkind : color.kind = .color) (hrole : color.PlaysRole color) :
    HasRoles [color] := by
  have hzero : ∀ {i : Nat} {x : Buffer}, [color][i]? = some x → i = 0 := by
    intro i x hx
    have hlt := (List.getElem?_eq_some_iff.1 hx).1
    rwa [List.length_singleton, Nat.lt_one_iff] at hlt
  refine ⟨⟨color, rfl, hkind, ?_⟩, ?_⟩
  · intro b hb
    rw [List.mem_singleton.1 hb]
    exact hrole
  · intro kind _ i j b c hb hc _ _
    rw [hzero hb, hzero hc]

end HasRoles

namespace Loading

variable {settings : Settings} {start state : Loading}

theorem hasRoles_of_start (h : Loading.start settings = .ok start) :
    HasRoles start.script.buffers := by
  obtain ⟨format, -, rfl⟩ := exists_of_map_eq_ok h
  have hrole : (Buffer.ofFormat .color format).PlaysRole (Buffer.ofFormat .color format) :=
    .ofFormat format (by decide) (by decide)
  exact .singleton rfl ⟨fun h => (by cases h), hrole.located, hrole.bound, hrole.whole⟩

theorem hasRoles_of_run (hstart : Loading.start settings = .ok start) {lines : List NumberedLine}
    (hrun : start.run settings lines = .ok state) : HasRoles state.script.buffers :=
  (hasRoles_of_start hstart).changes (changes_of_run hrun)

end Loading

/-- Whether the buffers of a table can be told apart by what they are for, and fit together. -/
structure WellKept (buffers : List Buffer) : Prop where
  color : ∃ b, buffers[0]? = some b ∧ b.kind = .color
  only_color : ∀ (i : Nat) (b : Buffer), buffers[i]? = some b → b.kind = .color → i = 0
  only_depth : AtMostOne .depth buffers
  only_index : AtMostOne .index buffers
  extent : ∀ depth ∈ buffers, depth.kind = .depth → ∀ color, buffers[0]? = some color →
    depth.width = color.width ∧ depth.height = color.height
  only_binding : ∀ (i j : Nat) (b c : Buffer), buffers[i]? = some b → buffers[j]? = some c →
    b.binding ≠ none → b.binding = c.binding → i = j
  bound : ∀ b ∈ buffers, b.binding ≠ none ↔ b.kind = .storage ∨ b.kind = .uniform
  located : ∀ b ∈ buffers, b.location ≠ none ↔ b.kind = .vertex
  placeholder : ∀ b ∈ buffers, b.formatIsDefault = true →
    (b.kind = .storage ∨ b.kind = .uniform) ∧ Format.named "R8_UINT" = .ok b.format ∧
      ∀ byte ∈ b.bytes, byte = 0

theorem HasRoles.wellKept {buffers : List Buffer} {commands : List Command}
    {lines : List TestLine} (h : HasRoles buffers) (htracks : Tracks buffers commands lines) :
    WellKept buffers := by
  obtain ⟨color, hcolor, hcolored, hroles⟩ := h.color
  refine ⟨⟨color, hcolor, hcolored⟩, ?_, h.single _ (.inr (.inl rfl)), h.single _ (.inr (.inr rfl)),
    ?_, htracks.valid.unique, fun b hb => (htracks.valid.inOrder b hb).bound_iff.symm,
    fun b hb => (hroles b hb).located, ?_⟩
  · intro i b hb hkind
    exact h.single _ (.inl rfl) i 0 b color hb hcolor hkind hcolored
  · intro depth hdepth hkind first hfirst
    obtain rfl := Option.some.inj (hcolor.symm.trans hfirst)
    exact (hroles depth hdepth).extent hkind
  · intro b hb hdefault
    have hbound := (hroles b hb).bound hdefault
    obtain ⟨binding, hbinding⟩ :=
      Option.ne_none_iff_exists'.1 ((htracks.valid.inOrder b hb).bound_iff.1 hbound)
    obtain ⟨i, hi⟩ := List.getElem?_of_mem hb
    obtain ⟨hformat, hbytes⟩ := (htracks.history_of_getElem? hi hbinding).grown.blank hdefault
    refine ⟨hbound, ?_, ?_⟩
    · rw [hformat]
      exact placeholderFormat_eq
    · rw [hbytes]
      exact fun byte hbyte => List.eq_of_mem_replicate hbyte

/-- After any lines of any script its buffers can be told apart and fit together. -/
theorem Loading.wellKept_of_run {settings : Settings} {start state : Loading}
    {lines : List NumberedLine} (hstart : Loading.start settings = .ok start)
    (hrun : start.run settings lines = .ok state) : WellKept state.script.buffers := by
  obtain ⟨other, hother, hin⟩ := exists_start settings
  obtain rfl := Except.ok.inj (hstart.symm.trans hother)
  exact (hasRoles_of_run hstart hrun).wellKept
    ((ensures_run settings hin lines).property_of_eq_ok hrun).tracks

/-- Lines that add a buffer of every kind, one of them for a size only. -/
theorem Loading.wellKept_of_every_kind :
    ∃ start state, Loading.start {} = .ok start ∧
      start.run {} [⟨1, "[require]\n".toList⟩, ⟨2, "depthstencil D16_UNORM\n".toList⟩,
        ⟨3, "fbsize 4 3\n".toList⟩, ⟨4, "[vertex data]\n".toList⟩, ⟨5, "0/R8_UINT\n".toList⟩,
        ⟨6, "[indices]\n".toList⟩, ⟨7, "1 2\n".toList⟩, ⟨8, "[test]\n".toList⟩,
        ⟨9, "ssbo 1 5\n".toList⟩, ⟨10, "ubo 2 subdata int 0 6\n".toList⟩] = .ok state ∧
      state.script.buffers.map Buffer.kind =
        [.color, .depth, .vertex, .index, .storage, .uniform] ∧
      state.script.buffers.map Buffer.formatIsDefault =
        [false, false, false, false, true, false] ∧ WellKept state.script.buffers := by
  have hruns : ∃ start, Loading.start {} = .ok start ∧
      ∃ state, start.run {} [⟨1, "[require]\n".toList⟩, ⟨2, "depthstencil D16_UNORM\n".toList⟩,
        ⟨3, "fbsize 4 3\n".toList⟩, ⟨4, "[vertex data]\n".toList⟩, ⟨5, "0/R8_UINT\n".toList⟩,
        ⟨6, "[indices]\n".toList⟩, ⟨7, "1 2\n".toList⟩, ⟨8, "[test]\n".toList⟩,
        ⟨9, "ssbo 1 5\n".toList⟩, ⟨10, "ubo 2 subdata int 0 6\n".toList⟩] = .ok state ∧
      state.script.buffers.map Buffer.kind =
        [.color, .depth, .vertex, .index, .storage, .uniform] ∧
      state.script.buffers.map Buffer.formatIsDefault =
        [false, false, false, false, true, false] := by
    simp only [run_of_no_rules (show ({} : Settings).rules = [] from rfl)]
    decide +kernel
  obtain ⟨start, hstart, state, hrun, hkinds, hdefaults⟩ := hruns
  exact ⟨start, state, hstart, hrun, hkinds, hdefaults, Loading.wellKept_of_run hstart hrun⟩

end GpuScript
