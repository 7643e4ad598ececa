import Tint.Markup
import Tint.Rules.RuleSet
set_option autoImplicit false

/-!
# Painted pieces

Painting cuts a text into pieces.  Each piece knows the text it was read from (`source`) and
the HTML it is written as (`html`); the sources of all pieces in order are the text.
-/

namespace Tint

/-- One piece of a painted text. -/
inductive Piece where
  /-- a character without a color -/
  | char (c : Char)
  /-- a keyword or doc token -/
  | word (color word : Text)
  /-- a word with the marker behind it -/
  | entry (word : Text) (rule : EntryRule)
  /-- the opening delimiter of an enclosure, which starts a span -/
  | opening (color : Text) (rule : Enclosure)
  /-- the closing delimiter of an enclosure, which ends the span -/
  | closing (rule : Enclosure)
  deriving DecidableEq, Repr, Inhabited

namespace Piece

/-- The text that the piece stands for. -/
def source : Piece → Text
  | .char c => [c]
  | .word _ w => w
  | .entry w rule => w ++ rule.token
  | .opening _ rule => rule.left
  | .closing rule => rule.right

/-- The HTML of the piece. -/
def html : Piece → Text
  | .char c => Markup.escapeChar c
  | .word color w => Markup.colored color w
  | .entry w rule => Markup.colored rule.color (w ++ rule.token)
  | .opening color rule => Markup.openSpan color ++ Markup.escape rule.left
  | .closing rule => Markup.escape rule.right ++ Markup.closeSpan

end Piece

/-- A painted text, as its pieces in order. -/
abbrev Painting := List Piece

/-- The HTML of a painted text. -/
def Painting.html (painting : Painting) : Text := painting.flatMap Piece.html

end Tint
