import Tint.Files.Fault
import Tint.Files.Path
import Tint.Settings.Assignments
import Tint.Text.Blank
set_option autoImplicit false

/-!
# Settings

What a user may set once for all runs.  Every key may be missing, and then has its default; a
key that is unknown, stands twice or has a value of another kind makes the file malformed.
-/

namespace Tint

/-- The settings of a run. -/
structure Settings where
  /-- the rule file to use -/
  rules : Option Path := none
  /-- drop a blank first line of every input -/
  stripLeadingBlank : Bool := true
  /-- put every result into preformatted code -/
  wrap : Bool := false
  /-- the class of that code -/
  wrapClass : Text := "editor-content".toList
  deriving DecidableEq, Repr, Inhabited

/-- Why settings could not be had from a file. -/
inductive SettingsError where
  | unreadable (fault : Fault)
  | malformed
  deriving DecidableEq, Repr, Inhabited

/-- The report on a settings file at a path. -/
def SettingsError.message (path : Path) : SettingsError → Text
  | .unreadable fault => "Cannot read ".toList ++ path.display ++ ": ".toList ++ fault.message
  | .malformed => "Malformed settings file ".toList ++ path.display ++ ": <toml>".toList

namespace Settings

/-- The name of the settings file in the user's home directory. -/
def fileName : Path := .ofString ".snowbud.toml"

/-- The settings file of a user's home directory. -/
def pathIn (home : Text) : Path := Path.join home.bytes fileName

/-- The settings with one more assignment, if its key is known and its value of the right
kind. -/
def assign? (s : Settings) (a : Assignment) : Option Settings :=
  match a.2 with
  | .text t =>
    if a.1 = "rules".toList then some { s with rules := some t.bytes }
    else if a.1 = "wrap-class".toList then some { s with wrapClass := t }
    else none
  | .truth b =>
    if a.1 = "strip-leading-blank".toList then some { s with stripLeadingBlank := b }
    else if a.1 = "wrap".toList then some { s with wrap := b }
    else none

/-- The settings of a list of assignments, no two of them to one key. -/
def ofAssignments? (as : List Assignment) : Option Settings :=
  if (as.map (·.1)).Nodup then as.foldlM assign? {} else none

/-- Reads the text of a settings file. -/
def parse? (t : Text) : Option Settings := (Assignment.readAll? t).bind ofAssignments?

/-- The settings of a file that has been fetched, or could not be. -/
def load (fetched : Except Fault Text) : Except SettingsError Settings :=
  match fetched with
  | .error fault => .error (.unreadable fault)
  | .ok t =>
    match parse? t with
    | some s => .ok s
    | none => .error .malformed

/-- The markup before and behind every result, when results are wrapped. -/
def wrapper? (s : Settings) : Option (Text × Text) :=
  if s.wrap then
    some ("<pre><code class=\"".toList ++ s.wrapClass ++ "\">".toList, "</code></pre>".toList)
  else none

/-- A result with the wrapper around it. -/
def wrapped (s : Settings) (html : Text) : Text :=
  match s.wrapper? with
  | some (before, behind) => before ++ html ++ behind
  | none => html

/-- An input as it is to be painted. -/
def prepare (s : Settings) (input : Text) : Text :=
  if s.stripLeadingBlank then input.dropBlankFirstLine else input

end Settings

end Tint
