/-!
# Token replacement

Before a line is read, its tokens are replaced from left to right. At each position the first rule
that fits is applied again and again, so that a replacement may itself hold tokens at its start;
then the position moves on by one character. A line may take a bounded number of replacements, and
the position never moves back, so replacing always ends.
-/

namespace GpuScript

structure TokenReplacement where
  token : List Char
  replacement : List Char
  deriving DecidableEq

/-- The number of replacements that a line may take. -/
def replacementLimit : Nat := 999

def replaceStart? (rules : List TokenReplacement) (text : List Char) : Option (List Char) :=
  rules.findSome? fun rule =>
    (rule.token.isPrefixOf? text).map fun rest => rule.replacement ++ rest

/-- A text to the start of which no rule applies any more, and the number of replacements left. -/
def settleStart (rules : List TokenReplacement) : Nat → List Char → Option (Nat × List Char)
  | left, text =>
    match replaceStart? rules text, left with
    | none, left => some (left, text)
    | some _, 0 => none
    | some text, left + 1 => settleStart rules left text

theorem settleStart_le {rules : List TokenReplacement} {left after : Nat}
    {text settled : List Char} (h : settleStart rules left text = some (after, settled)) :
    after < left ∨ after = left ∧ settled = text := by
  induction left generalizing text with
  | zero =>
    unfold settleStart at h
    split at h <;> simp_all
  | succ left ih =>
    unfold settleStart at h
    split at h
    · simp_all
    · contradiction
    · next heq =>
      obtain rfl := Nat.succ.inj heq
      rcases ih h with h | ⟨rfl, _⟩
      · exact .inl (by omega)
      · exact .inl (by omega)

/-- A text with its tokens replaced, if a number of replacements is enough. -/
def replaceTokens (rules : List TokenReplacement) (left : Nat) (text : List Char) :
    Option (List Char) :=
  match text with
  | [] => some []
  | c :: rest =>
    match _h : settleStart rules left (c :: rest) with
    | none => none
    | some (_, []) => some []
    | some (after, d :: tail) => (replaceTokens rules after tail).map (d :: ·)
termination_by (left, text.length)
decreasing_by
  rcases settleStart_le _h with h | ⟨rfl, h⟩
  · exact Prod.Lex.left _ _ h
  · rw [← h]
    exact Prod.Lex.right _ (by simp)

end GpuScript
