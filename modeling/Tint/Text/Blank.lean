import Tint.Text.Basic
set_option autoImplicit false

/-!
# Blank characters

A character is blank when it has the Unicode property `White_Space`.  The same set is used
wherever a text is trimmed, cut at blanks or stripped of them; zero-width characters, the
byte order mark and the information separators U+001C to U+001F are not in it.
-/

namespace Tint

/-- The Unicode property `White_Space`. -/
def isBlank (c : Char) : Bool :=
  let n := c.toNat
  (0x09 ≤ n && n ≤ 0x0D) || n == 0x20 || n == 0x85 || n == 0xA0 || n == 0x1680 ||
    (0x2000 ≤ n && n ≤ 0x200A) || n == 0x2028 || n == 0x2029 || n == 0x202F ||
    n == 0x205F || n == 0x3000

namespace Text

/-- The text without its leading and trailing blanks. -/
def trim (t : Text) : Text :=
  ((t.dropWhile isBlank).reverse.dropWhile isBlank).reverse

/-- The text without any blank. -/
def stripBlanks (t : Text) : Text := t.filter (fun c => !isBlank c)

/-- Every character is blank; the empty text is. -/
def allBlank (t : Text) : Bool := t.all isBlank

theorem not_isBlank_of_mem_stripBlanks {t : Text} {c : Char} (h : c ∈ stripBlanks t) :
    isBlank c = false := by
  simpa using (List.mem_filter.1 h).2

@[simp] theorem stripBlanks_stripBlanks (t : Text) :
    stripBlanks (stripBlanks t) = stripBlanks t := by
  simp [stripBlanks]

/-- The text without a blank first line.  A text with no line feed counts as a first line
only when all of it is blank. -/
def dropBlankFirstLine (t : Text) : Text :=
  match cutAt? (· == '\n') t with
  | some (first, rest) => if first.allBlank then rest else t
  | none => if t.allBlank then [] else t

end Text

end Tint
