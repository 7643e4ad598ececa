import Tint.Text.Numeral
set_option autoImplicit false

/-!
# Faults of file access

Why a file could not be read or written.  The wording is the system's, with the number of the
system's error where there is one.
-/

namespace Tint

/-- Why a file could not be read or written. -/
inductive Fault where
  /-- no file or directory has this name -/
  | notFound
  /-- a file stands where the path needs a directory -/
  | notADirectory
  /-- a directory stands where a file is needed -/
  | isADirectory
  /-- the path or one of its names is longer than the system allows -/
  | nameTooLong
  /-- the path holds the character NUL -/
  | holdsNul
  /-- the file is there, but may not be opened -/
  | denied
  /-- the bytes of the file are not UTF-8 -/
  | notUtf8
  /-- any other error of the system, by its number and wording; `found` if there is a file at the
  path all the same -/
  | system (number : Nat) (wording : Text) (found : Bool)
  deriving DecidableEq, Repr, Inhabited

namespace Fault

/-- The wording of a fault. -/
def message : Fault → Text
  | .notFound => "No such file or directory (os error 2)".toList
  | .notADirectory => "Not a directory (os error 20)".toList
  | .isADirectory => "Is a directory (os error 21)".toList
  | .nameTooLong => "File name too long (os error 36)".toList
  | .holdsNul => "file name contained an unexpected NUL byte".toList
  | .denied => "Permission denied (os error 13)".toList
  | .notUtf8 => "stream did not contain valid UTF-8".toList
  | .system number wording _ =>
    wording ++ " (os error ".toList ++ Text.decimal number ++ [')']

/-- The fault means that there is no such file, not that the file cannot be used. -/
def isAbsence : Fault → Bool
  | .notFound | .notADirectory | .nameTooLong | .holdsNul => true
  | .isADirectory | .denied | .notUtf8 => false
  | .system _ _ found => !found

end Fault

end Tint
