import Tint.Text.Bytes
set_option autoImplicit false

/-!
# Paths

A path is made of names with slashes between them, all of them bytes.  A slash at the start leads
from the root, anything else from the working directory.  Empty names and single dots stay where
they are and two dots go up, so a path may have no name for what it leads to (`fileName?`).
-/

namespace Tint

/-- A path, or one of its names. -/
abbrev Path := Bytes

namespace Path

/-- The byte between names. -/
def separator : UInt8 := 0x2F

/-- The name of the directory itself. -/
def dot : Path := [0x2E]

/-- The name of the directory above. -/
def dots : Path := [0x2E, 0x2E]

/-- The names of a path.  Empty names stand where slashes touch or end the path. -/
def names (path : Path) : List Path := path.splitOn separator

/-- The path starts at the root. -/
def isAbsolute (path : Path) : Bool := path.head? == some separator

/-- The last name of a path that leads on, unless that leads up. -/
def fileName? (path : Path) : Option Path :=
  match ((names path).filter fun name => name != [] && name != dot).getLast? with
  | some name => if name = dots then none else some name
  | none => none

/-- The path as it is shown. -/
def display (path : Path) : Text := Bytes.decode path

/-- The name of an input at a path: the last name as it is shown, or the whole path where there is
none. -/
def inputName (path : Path) : Text := ((fileName? path).map display).getD (display path)

/-- The path of a name inside a directory.  A name that is a path from the root stays as it is. -/
def join (directory name : Path) : Path :=
  if isAbsolute name ∨ directory = [] then name
  else if directory.getLast? = some separator then directory ++ name
  else directory ++ separator :: name

end Path

end Tint
