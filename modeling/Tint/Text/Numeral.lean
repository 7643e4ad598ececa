import Tint.Text.Basic
set_option autoImplicit false

/-!
# Numerals

Numbers as texts: in base ten for counts and lines, in base sixteen for code points.
Hexadecimal digits are written in lower case and read in either.
-/

namespace Tint

/-- A hexadecimal digit, in either case. -/
def isHexDigit (c : Char) : Bool :=
  c.isDigit || ('a' ≤ c && c ≤ 'f') || ('A' ≤ c && c ≤ 'F')

/-- The value of a hexadecimal digit. -/
def hexDigitValue (c : Char) : Nat :=
  if c.isDigit then c.toNat - '0'.toNat else 10 + (c.toLower.toNat - 'a'.toNat)

namespace Text

/-- A number in base ten, without leading zeros. -/
def decimal (n : Nat) : Text := Nat.toDigits 10 n

/-- A number in base sixteen, without leading zeros. -/
def hexadecimal (n : Nat) : Text := Nat.toDigits 16 n

/-- The number that hexadecimal digits stand for. -/
def hexValue (digits : Text) : Nat := digits.foldl (fun n c => 16 * n + hexDigitValue c) 0

end Text

end Tint
