import Tint.RuleFile.Line
import Tint.Text.Quoted
set_option autoImplicit false

/-!
# Reading a rule file

The first line of a rule file must be the header, blanks around it ignored; otherwise the
whole file is refused.  Every further line is read by itself, so the rules are those of the
accepted lines in order, and there is one diagnostic for each rejected line.
-/

namespace Tint

/-- A rule file without the header. -/
structure InvalidHeader where
  /-- the first line, without the blanks around it -/
  found : Text
  deriving DecidableEq, Repr, Inhabited

namespace RuleFile

/-- The first line of every rule file. -/
def header : Text := "%highlight voice: snow-bud v1.3%".toList

/-- What a rule file says. -/
structure Contents where
  rules : RuleSet
  diagnostics : List Diagnostic
  deriving DecidableEq, Repr, Inhabited

/-- A line, and what becomes of it. -/
abbrev ReadLine := Text × LineReading

/-- Lines with what becomes of each. -/
def readings (body : List Text) : List ReadLine := body.map fun line => (line, readLine line)

/-- The rules of the accepted lines, in their order. -/
def directives (body : List ReadLine) : List Directive := body.filterMap (·.2.directive?)

/-- The report on a line, if it is dropped. -/
def diagnose? (number : Nat) (line : ReadLine) : Option Diagnostic :=
  line.2.problem?.map fun problem => ⟨number, problem, line.1.trim⟩

/-- The reports on the dropped lines, the first line having the given number. -/
def diagnosticsFrom (number : Nat) (body : List ReadLine) : List Diagnostic :=
  (body.zipIdx number).filterMap fun line => diagnose? line.2 line.1

/-- Reads the lines of a rule file. -/
def readLines : List Text → Except InvalidHeader Contents
  | [] => .error ⟨[]⟩
  | first :: body =>
    if first.trim = header then
      let body := readings body
      .ok ⟨.ofDirectives (directives body), diagnosticsFrom 2 body⟩
    else .error ⟨first.trim⟩

/-- Reads a rule file. -/
def read (text : Text) : Except InvalidHeader Contents := readLines text.lines

theorem readings_append (a b : List Text) : readings (a ++ b) = readings a ++ readings b := by
  simp [readings]

theorem diagnosticsFrom_append (n : Nat) (a b : List ReadLine) :
    diagnosticsFrom n (a ++ b) = diagnosticsFrom n a ++ diagnosticsFrom (n + a.length) b := by
  simp [diagnosticsFrom, List.zipIdx_append]

end RuleFile

/-- The report on a refused rule file. -/
def InvalidHeader.message (e : InvalidHeader) : Text :=
  "Invalid file header, expected: ".toList ++ RuleFile.header ++ " (found ".toList ++
    e.found.quoted ++ ")".toList

end Tint
