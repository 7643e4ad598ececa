import Tint.Files.Fault
import Tint.Files.Path
import Tint.Paint.Painter
import Tint.RuleFile.Reading
set_option autoImplicit false

/-!
# Highlighters

A highlighter is meant for the elements under one selector.  It has no rules at first, takes
those of a rule file when it loads one, and loses them again when a load fails, so its rules
are always those of its last load.  Highlighters are values: copies share nothing afterwards.
-/

namespace Tint

/-- Why a rule file could not be loaded. -/
inductive LoadError where
  /-- the file could not be read -/
  | unreadable (fault : Fault)
  /-- the file is not a rule file -/
  | invalidHeader (error : InvalidHeader)
  deriving DecidableEq, Repr, Inhabited

/-- The report on a failed load. -/
def LoadError.message : LoadError → Text
  | .unreadable fault => "Config loaded fail: ".toList ++ fault.message
  | .invalidHeader error => error.message

/-- Where the text of a rule file comes from. -/
inductive RuleSource where
  /-- a file -/
  | file (path : Path)
  /-- the text itself -/
  | inline (text : Text)
  deriving DecidableEq, Repr, Inhabited

namespace RuleSource

/-- The source as it is named in the log. -/
def describe : RuleSource → Text
  | .file path => path.display
  | .inline _ => "<inline>".toList

/-- The text of the source, where `read` reads files. -/
def fetch (read : Path → Except Fault Text) : RuleSource → Except Fault Text
  | .file path => read path
  | .inline text => .ok text

end RuleSource

/-- Reads a rule file that has been fetched, or could not be. -/
def RuleFile.load (fetched : Except Fault Text) : Except LoadError RuleFile.Contents :=
  match fetched with
  | .error fault => .error (.unreadable fault)
  | .ok text => (RuleFile.read text).mapError .invalidHeader

/-- A highlighter for the elements under one selector. -/
structure Highlighter where
  selector : Text
  /-- the rules of the last load, if it succeeded -/
  rules : Option RuleSet := none
  deriving DecidableEq, Repr, Inhabited

namespace Highlighter

/-- The selector of the content of an editor. -/
def contentSelector : Text := ".editor-content".toList

/-- A highlighter without rules for the elements under a selector. -/
def forSelector (selector : Text) : Highlighter where
  selector := selector

/-- A highlighter without rules for the contents of all editors. -/
def forContent : Highlighter := forSelector contentSelector

/-- A highlighter without rules for the contents of the editors inside `scope`. -/
def forScope (scope : Text) : Highlighter := forSelector (scope ++ ' ' :: contentSelector)

/-- The highlighter has rules. -/
def isConfigured (h : Highlighter) : Bool := h.rules.isSome

/-- The highlighter after a load. -/
def withLoaded (h : Highlighter) (loaded : Except LoadError RuleFile.Contents) : Highlighter :=
  { h with rules := loaded.toOption.map RuleFile.Contents.rules }

/-- The highlighter after loading a fetched rule file. -/
def load (h : Highlighter) (fetched : Except Fault Text) : Highlighter :=
  h.withLoaded (RuleFile.load fetched)

/-- The HTML of a text, if the highlighter has rules. -/
def render? (h : Highlighter) (text : Text) : Option Text :=
  h.rules.map fun rules => rules.render text

end Highlighter

end Tint
