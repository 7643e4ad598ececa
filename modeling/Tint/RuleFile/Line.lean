import Tint.Color
import Tint.RuleFile.Problem
import Tint.Rules.RuleSet
import Tint.Text.Escape
set_option autoImplicit false

/-!
# Lines of a rule file

One line, without the blanks around it, is read by itself: no line depends on another.

* an enclosure: a tier's directive, a name, an opening and a closing delimiter, with a space
  between each two.  Only the opening delimiter may hold spaces;
* an entry: `*entry`, a marker and a color, with a space between each two;
* an assignment, which is any other line with a blank in it: a key up to the first blank and a
  color.  A key `--name` colors the delimiters of enclosures, `+-word` a doc token, and any
  other key a keyword.

Delimiters and markers are expanded (`Text.expand`), colors lose their blanks.
-/

namespace Tint

/-- What becomes of one line. -/
inductive LineReading where
  /-- the line says nothing -/
  | skipped
  /-- the line is dropped -/
  | rejected (problem : Problem)
  /-- the line holds a rule -/
  | accepted (directive : Directive)
  deriving DecidableEq, Repr, Inhabited

namespace LineReading

/-- The rule of an accepted line. -/
def directive? : LineReading → Option Directive
  | .accepted d => some d
  | _ => none

/-- The problem of a rejected line. -/
def problem? : LineReading → Option Problem
  | .rejected p => some p
  | _ => none

end LineReading

namespace RuleFile

/-- The space between the parts of a line. -/
def isSpace (c : Char) : Bool := c == ' '

/-- Reads what follows a tier's directive and a space. -/
def readEnclosure (tier : Tier) (body : Text) : LineReading :=
  match body.cutAt? isSpace with
  | none => .rejected (.missingLeft tier body)
  | some (name, delimiters) =>
    match delimiters.cutAtLast? isSpace with
    | none => .rejected (.missingRight tier name)
    | some (left, right) =>
      let rule : Enclosure := ⟨name, left.expand, right.expand⟩
      if rule.left.isEmpty || rule.right.isEmpty then .rejected (.emptyDelimiter tier name)
      else .accepted (.enclosure tier rule)

/-- Reads what follows `*entry` and a space.  A wrong color is reported before an empty
marker. -/
def readEntry (body : Text) : LineReading :=
  match body.cutAt? isSpace with
  | none => .rejected .incompleteEntry
  | some (marker, color) =>
    let rule : EntryRule := ⟨marker.expand, color.stripBlanks⟩
    if !Color.isCode rule.color then .rejected (.notAColor rule.color)
    else if rule.token.isEmpty then .rejected .emptyEntry
    else .accepted (.entry rule)

/-- The directive that assigns a color to a key. -/
def assign (key color : Text) : Directive :=
  match key with
  | '-' :: '-' :: name => .delimiterColor name color
  | '+' :: '-' :: word => .docToken word color
  | word => .keyword word color

/-- Reads a line that starts with no directive.  Without a blank it says nothing. -/
def readAssignment (line : Text) : LineReading :=
  match line.cutAt? isBlank with
  | none => .skipped
  | some (key, rest) =>
    -- A line comes here without the blanks around it, so what stands behind its first blank is not
    -- empty (`AssignmentGrammar.color_ne_nil`), and the case of a key with no color at all, which
    -- would say nothing either, never arises.
    let color := rest.stripBlanks
    if Color.isCode color then .accepted (assign key color) else .rejected (.notAColor color)

/-- What follows `word` and a space at the start of a line. -/
def bodyAfter? (word line : Text) : Option Text :=
  let head := word ++ [' ']
  if line.startsWith head then some (line.drop head.length) else none

/-- Reads a line without the blanks around it.  Empty lines and lines that start with two
slashes say nothing. -/
def readTrimmed (line : Text) : LineReading :=
  if line.isEmpty || line.startsWith "//".toList then .skipped
  else if let some body := bodyAfter? "*entry".toList line then readEntry body
  else if let some body := bodyAfter? Tier.strong.directive line then readEnclosure .strong body
  else if let some body := bodyAfter? Tier.doc.directive line then readEnclosure .doc body
  else if let some body := bodyAfter? Tier.weak.directive line then readEnclosure .weak body
  else readAssignment line

/-- Reads a line. -/
def readLine (line : Text) : LineReading := readTrimmed line.trim

end RuleFile

end Tint
