import GpuScript.Proofs.LoadingRun

/-!
# Untouched shaders

A line that is neither a header nor in a shader section is taken in without regard to the shaders
and to what the section is. With other shaders, or in another section, it does the same, and it
leaves both as they are.
-/

namespace GpuScript

namespace Loading

def setShaders (state : Loading) (shaders : List (Stage × Shader)) (current : Section) : Loading :=
  { state with script := { state.script with shaders := shaders }, current := current }

/-- Whether a state is in no section of a shader with a body. -/
def InNoShader (state : Loading) : Prop := ∀ stage body, state.current ≠ .shader stage body

theorem inShader_or_inNoShader (state : Loading) :
    (∃ stage body, state.current = .shader stage body) ∨ state.InNoShader := by
  by_cases h : ∃ stage body, state.current = .shader stage body
  · exact .inl h
  · exact .inr fun stage body heq => h ⟨stage, body, heq⟩

theorem InNoShader.of_current_eq {state new : Loading} (h : state.InNoShader)
    (hsame : new.current = state.current) : new.InNoShader :=
  fun stage body heq => h stage body (hsame.symm.trans heq)

theorem frame_of_setShaders {x : LineResult Loading} {shaders : List (Stage × Shader)}
    {current : Section} {new : Loading} (h : x = x.map fun new => new.setShaders shaders current)
    (hnew : x = .ok new) : new.script.shaders = shaders ∧ new.current = current := by
  rw [hnew] at h
  rw [Except.ok.inj h]
  exact ⟨rfl, rfl⟩

/-- Whether a step does the same whatever the shaders and the section are. -/
def IgnoresShaders (take : Loading → LineResult Loading) : Prop :=
  ∀ (state : Loading) (shaders : List (Stage × Shader)) (current : Section),
    take (state.setShaders shaders current) =
      (take state).map fun new => new.setShaders shaders current

namespace IgnoresShaders

theorem pure {change : Loading → Loading}
    (h : ∀ (state : Loading) shaders current,
      change (state.setShaders shaders current) = (change state).setShaders shaders current) :
    IgnoresShaders fun state => .ok (change state) :=
  fun state shaders current => congrArg Except.ok (h state shaders current)

/-- A step that first finds something out without regard to the shaders. -/
theorem bind {α : Type} {find : Loading → LineResult α} {next : α → Loading → LineResult Loading}
    (hfind : ∀ (state : Loading) shaders current,
      find (state.setShaders shaders current) = find state)
    (hnext : ∀ a, IgnoresShaders (next a)) :
    IgnoresShaders fun state => find state >>= fun a => next a state := by
  intro state shaders current
  dsimp only
  rw [hfind]
  cases find state with
  | error failure => rfl
  | ok a => exact hnext a state shaders current

theorem keeps {take : Loading → LineResult Loading} (h : IgnoresShaders take)
    {state new : Loading} (hnew : take state = .ok new) :
    new.script.shaders = state.script.shaders ∧ new.current = state.current :=
  frame_of_setShaders (h state state.script.shaders state.current) hnew

theorem setBuffers (find : List Buffer → LineResult (List Buffer)) :
    IgnoresShaders fun state => do return state.setBuffers (← find state.script.buffers) :=
  .bind (fun _ _ _ => rfl) fun _ => .pure fun _ _ _ => rfl

end IgnoresShaders

theorem ignoresShaders_runRequireLine (asked : RequireLine) :
    IgnoresShaders (runRequireLine · asked) := by
  cases asked with
  | framebuffer format =>
    exact .setBuffers fun buffers => updateAt buffers 0 fun buffer => .ok (buffer.setFormat format)
  | depthStencil format => exact .setBuffers fun buffers => setDepthFormat buffers format
  | framebufferSize width height => exact .pure fun _ _ _ => rfl
  | fenceTimeout timeout => exact .pure fun _ _ _ => rfl
  | requirement kind name => exact .pure fun _ _ _ => rfl

theorem ignoresShaders_takeRequireLine (line : List Char) :
    IgnoresShaders (takeRequireLine · line) := by
  refine .bind (fun _ _ _ => rfl) fun asked? => ?_
  cases asked? with
  | none => exact .pure fun _ _ _ => rfl
  | some asked => exact ignoresShaders_runRequireLine asked

theorem ignoresShaders_takeColumns (text : List Char) : IgnoresShaders (takeColumns · text) :=
  .bind (fun _ _ _ => rfl) fun _ => .pure fun _ _ _ => rfl

theorem ignoresShaders_takeRow (columns : List Nat) (text : List Char) :
    IgnoresShaders (takeRow · columns text) :=
  .bind (fun _ _ _ => rfl) fun _ => .bind (fun _ _ _ => rfl) fun row =>
    .setBuffers (appendRow (columns.zip row))

theorem ignoresShaders_takeVertexLine (line : List Char) :
    IgnoresShaders (takeVertexLine · line) := by
  intro state shaders current
  simp only [takeVertexLine]
  cases content? line with
  | none => rfl
  | some text =>
    have hdata : (state.setShaders shaders current).vertexData = state.vertexData := rfl
    rw [hdata]
    cases state.vertexData with
    | absent | header => exact ignoresShaders_takeColumns text state shaders current
    | rows columns => exact ignoresShaders_takeRow columns text state shaders current

theorem ignoresShaders_takeIndexLine (line : List Char) :
    IgnoresShaders (takeIndexLine · line) := by
  unfold takeIndexLine
  cases content? line with
  | none => exact .pure fun _ _ _ => rfl
  | some text => exact .bind (fun _ _ _ => rfl) fun values => .setBuffers (appendIndices · values)

theorem ignoresShaders_takeTestLine (number : Nat) (line : List Char) :
    IgnoresShaders (takeTestLine · number line) := by
  refine .bind (fun _ _ _ => rfl) fun asked? => ?_
  cases asked? with
  | none => exact .pure fun _ _ _ => rfl
  | some asked => exact .bind (fun _ _ _ => rfl) fun _ => .pure fun _ _ _ => rfl

theorem takeBodyLine_setShaders {state : Loading} (h : state.InNoShader) (number : Nat)
    (line : List Char) (shaders : List (Stage × Shader)) :
    (state.setShaders shaders state.current).takeBodyLine number line =
      (state.takeBodyLine number line).map fun new => new.setShaders shaders state.current := by
  have hcurrent : (state.setShaders shaders state.current).current = state.current := rfl
  unfold takeBodyLine
  rw [hcurrent]
  split
  · cases content? line <;> rfl
  · rfl
  · exact ignoresShaders_takeRequireLine line state shaders _
  · next stage body hshader => exact (h stage body hshader).elim
  · exact ignoresShaders_takeVertexLine line state shaders _
  · exact ignoresShaders_takeIndexLine line state shaders _
  · exact ignoresShaders_takeTestLine number line state shaders _

theorem shaders_of_takeBodyLine {state new : Loading} (h : state.InNoShader) {number : Nat}
    {line : List Char} (hnew : state.takeBodyLine number line = .ok new) :
    new.script.shaders = state.script.shaders ∧ new.current = state.current :=
  frame_of_setShaders (takeBodyLine_setShaders h number line state.script.shaders) hnew

end Loading

end GpuScript
