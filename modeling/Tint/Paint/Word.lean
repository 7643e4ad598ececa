import Tint.Text.Basic
set_option autoImplicit false

/-!
# Words

A word is what a keyword or a doc token may match: a maximal run of word characters that does
not start with a digit or a closing angle bracket.  No word starts in the middle of a run, so
the character before it decides too.
-/

namespace Tint.Word

/-- A character that may start a word: an ASCII letter, `<`, `@`, `$`, `_` or `-`. -/
def isStart (c : Char) : Bool :=
  c.isAlpha || c == '<' || c == '@' || c == '$' || c == '_' || c == '-'

/-- A character of a word: one that may start it, a digit or `>`. -/
def isPart (c : Char) : Bool := isStart c || c.isDigit || c == '>'

/-- The word at the front of `rest`, which stands behind the character `previous`. -/
def at? (previous : Option Char) (rest : Text) : Option Text :=
  if previous.any isPart then none
  else if rest.head?.any isStart then some (rest.takeWhile isPart) else none

theorem isPart_of_isStart {c : Char} (h : isStart c = true) : isPart c = true := by
  simp [isPart, h]

theorem isPrefix_of_at? {previous : Option Char} {rest w : Text} (h : at? previous rest = some w) :
    w <+: rest := by
  unfold at? at h
  split at h
  · cases h
  · split at h
    · cases h
      exact List.takeWhile_prefix _
    · cases h

end Tint.Word
