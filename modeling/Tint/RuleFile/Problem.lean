import Tint.Rules.Enclosure
import Tint.Text.Numeral
set_option autoImplicit false

/-!
# Problems of a rule file

A bad line of a rule file is dropped and reported; the rest of the file still applies.  The
cause is a `Problem`, its wording is in `Problem.message`, and `Diagnostic` adds where it
arose.
-/

namespace Tint

/-- How bad a dropped line is. -/
inductive Severity where
  | warning
  | error
  deriving DecidableEq, Repr, Inhabited

/-- Why a line was dropped. -/
inductive Problem where
  /-- an entry line without a color -/
  | incompleteEntry
  /-- an enclosure line with a name and one delimiter -/
  | missingRight (tier : Tier) (name : Text)
  /-- an enclosure line with a name only -/
  | missingLeft (tier : Tier) (name : Text)
  /-- an enclosure line with a delimiter that is empty -/
  | emptyDelimiter (tier : Tier) (name : Text)
  /-- an entry line whose marker is empty -/
  | emptyEntry
  /-- something that is not a color code, its blanks removed, where a color belongs -/
  | notAColor (color : Text)
  deriving DecidableEq, Repr, Inhabited

namespace Problem

/-- Only a wrong color is an error. -/
def severity : Problem → Severity
  | .notAColor _ => .error
  | _ => .warning

/-- The enclosure rule that a message speaks of. -/
def enclosureLabel (tier : Tier) (name : Text) : Text :=
  "Rule ".toList ++ tier.directive ++ " (name: \"".toList ++ name ++ "\")".toList

/-- The wording of a problem. -/
def message : Problem → Text
  | .incompleteEntry => "syntax error".toList
  | .missingRight tier name => enclosureLabel tier name ++ " missing right delimiter".toList
  | .missingLeft tier name => enclosureLabel tier name ++ " missing left delimiter".toList
  | .emptyDelimiter tier name => enclosureLabel tier name ++ " has an empty delimiter".toList
  | .emptyEntry => "*entry has an empty token".toList
  | .notAColor color => "Not a color code: ".toList ++ color

theorem severity_eq_error_iff {p : Problem} : p.severity = .error ↔ ∃ color, p = .notAColor color := by
  cases p <;> simp [severity]

end Problem

/-- A dropped line and why it was dropped. -/
structure Diagnostic where
  /-- number of the line in the file, from one -/
  line : Nat
  problem : Problem
  /-- the line without the blanks around it -/
  text : Text
  deriving DecidableEq, Repr, Inhabited

namespace Diagnostic

/-- How bad the dropped line is. -/
def severity (d : Diagnostic) : Severity := d.problem.severity

/-- The report on a dropped line. -/
def message (d : Diagnostic) : Text :=
  "line ".toList ++ Text.decimal d.line ++ ": ".toList ++ d.problem.message ++ " by ".toList ++ d.text

end Diagnostic

end Tint
