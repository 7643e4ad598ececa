import Tint.Text.Blank
import Tint.Text.DecimalDigit
import Tint.Text.Numeral
set_option autoImplicit false

/-!
# Color codes

The notations of a color that a rule file may use, blanks ignored and letters in either case:

* `#rgb` and `#rrggbb`, with hexadecimal digits;
* `rgb(c,c,c)` and `rgba(c,c,c)`, with three channels;
* `rgba(c,c,c,a)`, with three channels and an alpha.

A channel is a numeral without leading zeros from 0 to 255 (`isChannel`); the digits that the
bound does not fix may be decimal digits of any script.  An alpha is a decimal fraction in
ASCII digits with no upper bound (`isAlpha`).
-/

namespace Tint.Color

/-- A channel: up to two decimal digits, the first of two from `1` to `9`, or three that keep
below 256. -/
def isChannel : Text → Bool
  | [d] => isDecimalDigit d
  | [tens, d] => '1' ≤ tens && tens ≤ '9' && isDecimalDigit d
  | [hundreds, tens, d] =>
    (hundreds == '1' && isDecimalDigit tens && isDecimalDigit d) ||
    (hundreds == '2' && '0' ≤ tens && tens ≤ '4' && isDecimalDigit d) ||
    (hundreds == '2' && tens == '5' && '0' ≤ d && d ≤ '5')
  | _ => false

/-- One or more ASCII digits. -/
def isNumeral (t : Text) : Bool := !t.isEmpty && t.all Char.isDigit

/-- An alpha: a numeral, or digits that may be missing, a point and a numeral. -/
def isAlpha (t : Text) : Bool :=
  match t.dropWhile Char.isDigit with
  | [] => !t.isEmpty
  | '.' :: fraction => isNumeral fraction
  | _ => false

/-- What stands between `name(` and `)`, the name in either case. -/
def arguments? (name s : Text) : Option Text :=
  let head := name ++ ['(']
  if (s.take head.length).map Char.toLower == head && s.getLast? == some ')' then
    some (s.drop head.length).dropLast
  else none

/-- Three channels, or with `alpha` also three channels and an alpha. -/
def areChannels (alpha : Bool) (arguments : Text) : Bool :=
  match Text.pieces ',' arguments with
  | [r, g, b] => isChannel r && isChannel g && isChannel b
  | [r, g, b, a] => alpha && isChannel r && isChannel g && isChannel b && isAlpha a
  | _ => false

/-- A color code that holds no blanks. -/
def isCompactCode (s : Text) : Bool :=
  match s with
  | '#' :: digits => (digits.length == 3 || digits.length == 6) && digits.all isHexDigit
  | _ =>
    (arguments? "rgb".toList s).any (areChannels false) ||
    (arguments? "rgba".toList s).any (areChannels true)

/-- A color code, blanks anywhere in it ignored. -/
def isCode (raw : Text) : Bool := isCompactCode raw.stripBlanks

end Tint.Color
