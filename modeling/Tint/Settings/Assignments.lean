import Tint.Settings.StringLiteral
set_option autoImplicit false

/-!
# Assignments of a settings file

The settings known to the program are truth values and texts, each under a key of its own at
the top of the file.  So of TOML a settings file needs only lines with an assignment, blank
lines and comments; a file with anything else, such as a table, a dotted key, a number or a
list, could not be accepted in any case and is refused here.
-/

namespace Tint

/-- A value in a settings file. -/
inductive SettingValue where
  | truth (b : Bool)
  | text (t : Text)
  deriving DecidableEq, Repr, Inhabited

namespace SettingValue

/-- The value at the front, with the text behind it. -/
def read? (t : Text) : Option (SettingValue × Text) :=
  if t.startsWith "true".toList then some (.truth true, t.drop 4)
  else if t.startsWith "false".toList then some (.truth false, t.drop 5)
  else (StringLiteral.read? t).map fun string => (.text string.1, string.2)

end SettingValue

/-- A key and its value. -/
abbrev Assignment := Text × SettingValue

namespace Assignment

/-- The text behind spaces and tabs. -/
def skipIndent (t : Text) : Text := t.dropWhile StringLiteral.isIndent

/-- A character of a key without quotes. -/
def isBareKeyChar (c : Char) : Bool := c.isAlphanum || c == '_' || c == '-'

/-- The key at the front, with the text behind it. -/
def key? (t : Text) : Option (Text × Text) :=
  match t.takeWhile isBareKeyChar with
  | [] => StringLiteral.onLine? t
  | key => some (key, t.dropWhile isBareKeyChar)

/-- The assignment at the front, with the text behind it. -/
def read? (t : Text) : Option (Assignment × Text) :=
  match key? t with
  | none => none
  | some (key, rest) =>
    match skipIndent rest with
    | '=' :: rest => (SettingValue.read? (skipIndent rest)).map fun v => ((key, v.1), v.2)
    | _ => none

/-- The next line, if nothing but a comment stands before it. -/
def nextLine? (t : Text) : Option Text :=
  let rest :=
    match skipIndent t with
    | '#' :: comment => comment.dropWhile fun c => !StringLiteral.isControl c
    | rest => rest
  match rest with
  | [] => some []
  | rest =>
    match StringLiteral.lineEndLength rest with
    | 0 => none
    | length => some (rest.drop length)

/-- The assignments of at most `fuel` lines. -/
def readLines? : (fuel : Nat) → Text → Option (List Assignment)
  | _, [] => some []
  | 0, _ => none
  | fuel + 1, t =>
    match nextLine? t with
    | some rest => readLines? fuel rest
    | none =>
      match read? (skipIndent t) with
      | none => none
      | some (assignment, rest) =>
        match nextLine? rest with
        | none => none
        | some rest => (readLines? fuel rest).map (assignment :: ·)

/-- All assignments of a settings file, which may start with a byte order mark.  A file has no
more lines than characters. -/
def readAll? (t : Text) : Option (List Assignment) :=
  match t with
  | '\uFEFF' :: t => readLines? t.length t
  | t => readLines? t.length t

end Assignment

end Tint
