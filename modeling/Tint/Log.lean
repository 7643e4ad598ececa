import Tint.RuleFile.Problem
set_option autoImplicit false

/-!
# Log records

A run reports what it does in log records.  Each has a level, the part of the program it comes
from, and a message.  Only the records at or above the level the user asks for are shown.
-/

namespace Tint

/-- How important a record is. -/
inductive LogLevel where
  | error
  | warn
  | info
  | debug
  deriving DecidableEq, Repr, Inhabited

namespace LogLevel

/-- How much one has to ask for to see a record of this level. -/
def rank : LogLevel → Nat
  | .error => 1
  | .warn => 2
  | .info => 3
  | .debug => 4

/-- The name of the level in the log. -/
def name : LogLevel → Text
  | .error => "ERROR".toList
  | .warn => "WARN".toList
  | .info => "INFO".toList
  | .debug => "DEBUG".toList

/-- The rank up to which records are shown, by the word a user asks with. -/
def threshold? (word : Text) : Option Nat :=
  if word = "off".toList then some 0
  else if word = "error".toList then some LogLevel.error.rank
  else if word = "warn".toList then some LogLevel.warn.rank
  else if word = "info".toList then some LogLevel.info.rank
  else if word = "debug".toList ∨ word = "trace".toList then some LogLevel.debug.rank
  else none

/-- The threshold when the user asks for none. -/
def defaultThreshold : Nat := LogLevel.info.rank

end LogLevel

/-- The part of the program that a record comes from. -/
inductive LogSource where
  /-- the command itself -/
  | command
  /-- the reader of rule files -/
  | ruleFile
  /-- the maker of opening tests -/
  | openingTest
  /-- a highlighter -/
  | highlighter
  /-- the page with its sessions -/
  | page
  /-- the reader of settings files -/
  | settings
  deriving DecidableEq, Repr, Inhabited

/-- The name of the part in the log. -/
def LogSource.name : LogSource → Text
  | .command => "snowbud".toList
  | .ruleFile => "snowbud::highlight::parser".toList
  | .openingTest => "snowbud::highlight::enclosure".toList
  | .highlighter => "snowbud::highlight::highlighter".toList
  | .page => "snowbud::host".toList
  | .settings => "snowbud::settings".toList

/-- A log record. -/
structure LogRecord where
  level : LogLevel
  source : LogSource
  message : Text
  deriving DecidableEq, Repr, Inhabited

namespace LogRecord

/-- The record is shown at a threshold. -/
def isShown (threshold : Nat) (r : LogRecord) : Bool := r.level.rank ≤ threshold

/-- A character of a message in the log.  The controls that a terminal would act on are shown
by their codes: escape, bell, backspace, form feed, delete and U+0080 to U+009F. -/
def shownChar (c : Char) : Text :=
  if c = '\x1b' ∨ c = '\x07' ∨ c = '\x08' ∨ c = '\x0c' ∨ c = '\x7f' then
    let digits := Text.hexadecimal c.toNat
    ['\\', 'x'] ++ (if digits.length = 1 then '0' :: digits else digits)
  else if 0x80 ≤ c.toNat ∧ c.toNat ≤ 0x9F then
    ['\\', 'u', '{'] ++ Text.hexadecimal c.toNat ++ ['}']
  else [c]

/-- The line of the log that shows the record. -/
def line (r : LogRecord) : Text :=
  r.level.name ++ ' ' :: r.source.name ++ ": ".toList ++ r.message.flatMap shownChar

/-- The record of a dropped line of a rule file. -/
def ofDiagnostic (d : Diagnostic) : LogRecord where
  level :=
    match d.severity with
    | .warning => .warn
    | .error => .error
  source := .ruleFile
  message := "[HighLight] ".toList ++ d.message

/-- The record of enclosures that have no opening test because it would be too large. -/
def testTooLarge : LogRecord where
  level := .error
  source := .openingTest
  message :=
    "[HighLight] Cannot compile opening test, falling back to linear scan: ".toList ++
      "Compiled regex exceeds size limit of ".toList ++ Text.decimal OpeningTest.limit ++
      " bytes.".toList

end LogRecord

end Tint
