import Tint.Text.Basic
set_option autoImplicit false

/-!
# Escape expansion

Delimiters and markers of a rule file may name characters that a line cannot hold.  Three
whole words stand for one character each (`namedChar?`); in any other word the sequences
`\n`, `\t`, `\r` and `\\` are expanded, one pass over the word for each, in this order.  The
order shows: in `\\n` the second backslash and the `n` become a line feed, and the backslash
before them stays.
-/

namespace Tint.Text

/-! ## Replacing a pair of characters -/

/-- Works through a text from the left, with the result so far, latest character first. -/
def replacePairAfter (first second replacement : Char) : Text → Text → Text
  | done, [] => done.reverse
  | done, [c] => (c :: done).reverse
  | done, c :: d :: r =>
    if c = first ∧ d = second then
      replacePairAfter first second replacement (replacement :: done) r
    else replacePairAfter first second replacement (c :: done) (d :: r)

/-- Replaces every `first` directly followed by `second`, from the left and without
overlaps. -/
def replacePair (first second replacement : Char) (t : Text) : Text :=
  replacePairAfter first second replacement [] t

theorem replacePairAfter_eq (a b x : Char) (done t : Text) :
    replacePairAfter a b x done t = done.reverse ++ replacePair a b x t := by
  refine replacePairAfter.induct a b x
    (motive := fun _ t => ∀ d, replacePairAfter a b x d t = d.reverse ++ replacePair a b x t)
    ?_ ?_ ?_ ?_ done t done
  · intro _ d
    simp [replacePair, replacePairAfter]
  · intro _ c d
    simp [replacePair, replacePairAfter]
  · intro _ c e r h ih d
    simp only [replacePair, replacePairAfter, h, and_self, if_true]
    rw [ih (x :: d), ih [x]]
    simp
  · intro _ c e r h ih d
    simp only [replacePair, replacePairAfter, h, if_false]
    rw [ih (c :: d), ih [c]]
    simp

@[simp] theorem replacePair_nil (a b x : Char) : replacePair a b x [] = [] := rfl

@[simp] theorem replacePair_singleton (a b x c : Char) : replacePair a b x [c] = [c] := rfl

theorem replacePair_cons_cons (a b x c d : Char) (r : Text) :
    replacePair a b x (c :: d :: r) =
      if c = a ∧ d = b then x :: replacePair a b x r else c :: replacePair a b x (d :: r) := by
  rw [replacePair, replacePairAfter]
  split <;> rw [replacePairAfter_eq] <;> simp

/-! ## Expansion -/

/-- The words that stand for one character as a whole. -/
def namedChar? (word : Text) : Option Char :=
  if word = "!tab".toList then some '\t'
  else if word = "!space".toList then some ' '
  else if word = "!newline".toList then some '\n'
  else none

/-- The four passes over a word that is not a name. -/
def expandSequences (word : Text) : Text :=
  replacePair '\\' '\\' '\\'
    (replacePair '\\' 'r' '\r' (replacePair '\\' 't' '\t' (replacePair '\\' 'n' '\n' word)))

/-- The text that a word of a rule file stands for. -/
def expand (word : Text) : Text :=
  match namedChar? word with
  | some c => [c]
  | none => expandSequences word

theorem replacePair_eq_nil_iff {a b x : Char} {t : Text} : replacePair a b x t = [] ↔ t = [] := by
  match t with
  | [] => simp
  | [c] => simp
  | c :: d :: r => rw [replacePair_cons_cons]; split <;> simp

/-- Expansion never empties a word. -/
theorem expand_eq_nil_iff {word : Text} : expand word = [] ↔ word = [] := by
  unfold expand
  cases h : namedChar? word with
  | none => simp [expandSequences, replacePair_eq_nil_iff]
  | some c =>
    constructor
    · simp
    · intro hw
      rw [hw] at h
      exact absurd h (by simp [namedChar?])

end Tint.Text
