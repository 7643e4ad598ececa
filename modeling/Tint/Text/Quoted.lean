import Tint.Text.Numeral
import Tint.Text.Printable
set_option autoImplicit false

/-!
# Quoted texts

The form in which a message shows a text that may hold anything: in double quotes, on one
line, with every character visible.  A quote, a backslash and the four common controls have
a short escape; a character that cannot be printed, or that would join the character before
it, is shown by its code point.
-/

namespace Tint.Text

/-- A character by its code point. -/
def codePointEscape (c : Char) : Text :=
  ['\\', 'u', '{'] ++ hexadecimal c.toNat ++ ['}']

/-- One character of a quoted text. -/
def quotedChar (c : Char) : Text :=
  if c = '"' then ['\\', '"']
  else if c = '\\' then ['\\', '\\']
  else if c = '\n' then ['\\', 'n']
  else if c = '\r' then ['\\', 'r']
  else if c = '\t' then ['\\', 't']
  else if c = '\x00' then ['\\', '0']
  else if isGraphemeExtend c || !isPrintable c then codePointEscape c
  else [c]

/-- The quoted form of a text. -/
def quoted (t : Text) : Text := '"' :: t.flatMap quotedChar ++ ['"']

end Tint.Text
