import Tint.Text.Numeral
set_option autoImplicit false

/-!
# String literals of a settings file

A settings file is written in TOML, which has four forms of strings: between double quotes
with escapes, between single quotes without, and each of them on one line or, between triple
quotes, on several.  A reader takes the text behind the opening quotes and gives the string
and the text behind the closing quotes.

Readers go character by character; `skip` counts characters that an escape or a line end has
dealt with already.
-/

namespace Tint.StringLiteral

/-- A control character, other than the tab, that may not stand in the file as it is. -/
def isControl (c : Char) : Bool := (c.toNat < 0x20 && c != '\t') || c.toNat == 0x7F

/-- A space or tab. -/
def isIndent (c : Char) : Bool := c == ' ' || c == '\t'

/-- The character of a code point written in hexadecimal digits. -/
def codePoint? (digits : Text) : Option Char :=
  let value := Text.hexValue digits
  if digits.all isHexDigit ∧ value.isValidChar then some (Char.ofNat value) else none

/-- What a backslash and the text behind it stand for, with the number of characters used
behind the backslash. -/
def escape? : Text → Option (Char × Nat)
  | 'b' :: _ => some ('\x08', 1)
  | 't' :: _ => some ('\t', 1)
  | 'n' :: _ => some ('\n', 1)
  | 'f' :: _ => some ('\x0c', 1)
  | 'r' :: _ => some ('\r', 1)
  | '"' :: _ => some ('"', 1)
  | '\\' :: _ => some ('\\', 1)
  | 'u' :: r =>
    if (r.take 4).length = 4 then (codePoint? (r.take 4)).map (·, 5) else none
  | 'U' :: r =>
    if (r.take 8).length = 8 then (codePoint? (r.take 8)).map (·, 9) else none
  | _ => none

/-- The number of characters of a line end at the front, which may be carriage return and line
feed; zero if there is none. -/
def lineEndLength : Text → Nat
  | '\n' :: _ => 1
  | '\r' :: '\n' :: _ => 2
  | _ => 0

/-- The number of spaces, tabs and line ends at the front. -/
def blankLength : (skip : Nat) → Text → Nat
  | _, [] => 0
  | skip + 1, _ :: r => 1 + blankLength skip r
  | 0, c :: r =>
    if isIndent c then 1 + blankLength 0 r
    else if lineEndLength (c :: r) = 0 then 0
    else 1 + blankLength (lineEndLength (c :: r) - 1) r

/-- The length of what a backslash at the end of a line removes: the rest of the line, if it
is blank, its end, and all blanks behind it. -/
def continuation? (t : Text) : Option Nat :=
  let indent := (t.takeWhile isIndent).length
  if lineEndLength (t.drop indent) = 0 then none else some (blankLength 0 t)

/-- A string on one line.  Escapes are known between double quotes only. -/
def onLineFrom (quote : Char) (done : Text) : (skip : Nat) → Text → Option (Text × Text)
  | _, [] => none
  | skip + 1, _ :: r => onLineFrom quote done skip r
  | 0, c :: r =>
    if c = quote then some (done.reverse, r)
    else if isControl c then none
    else if c = '\\' ∧ quote = '"' then
      match escape? r with
      | some (d, used) => onLineFrom quote (d :: done) used r
      | none => none
    else onLineFrom quote (c :: done) 0 r

/-- A string over several lines.  One or two quotes stand for themselves, also right before the
three that close the string; line ends become line feeds. -/
def onLinesFrom (quote : Char) (done : Text) : (skip : Nat) → Text → Option (Text × Text)
  | _, [] => none
  | skip + 1, _ :: r => onLinesFrom quote done skip r
  | 0, c :: r =>
    if c = quote then
      let quotes := min 5 ((c :: r).takeWhile (· == quote)).length
      if quotes < 3 then onLinesFrom quote (c :: done) 0 r
      else some ((List.replicate (quotes - 3) quote ++ done).reverse, (c :: r).drop quotes)
    else if lineEndLength (c :: r) ≠ 0 then
      onLinesFrom quote ('\n' :: done) (lineEndLength (c :: r) - 1) r
    else if isControl c then none
    else if c = '\\' ∧ quote = '"' then
      match continuation? r with
      | some used => onLinesFrom quote done used r
      | none =>
        match escape? r with
        | some (d, used) => onLinesFrom quote (d :: done) used r
        | none => none
    else onLinesFrom quote (c :: done) 0 r

/-- The string on one line that starts at the front, with the text behind it. -/
def onLine? : Text → Option (Text × Text)
  | c :: r => if c = '"' ∨ c = '\'' then onLineFrom c [] 0 r else none
  | [] => none

/-- The string of any form that starts at the front, with the text behind it.  A line end right
behind three opening quotes does not count. -/
def read? : Text → Option (Text × Text)
  | a :: b :: c :: r =>
    if (a = '"' ∨ a = '\'') ∧ b = a ∧ c = a then onLinesFrom a [] (lineEndLength r) r
    else onLine? (a :: b :: c :: r)
  | t => onLine? t

end Tint.StringLiteral
