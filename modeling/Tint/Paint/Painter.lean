import Tint.Paint.EntryMatch
import Tint.Paint.Piece
import Tint.Paint.Word
set_option autoImplicit false

/-!
# The painter

Painting is a single pass over the text in small steps.  At most one enclosure is active at
a time; a weak one that holds a strong one waits until that is closed (`Region.strong`).  At
each place the first of these applies:

1. the next pending entry match, if it starts here, is painted as a whole.  One whose start has
   been passed never is, and holds up all later ones;
2. the delimiter that closes the active enclosure closes it;
3. inside a strong enclosure, a character is copied;
4. inside a doc enclosure, a doc token is painted or a character copied;
5. inside a weak enclosure, a strong one opens or a character is copied;
6. outside, a doc, a strong or a weak enclosure opens, in this order, or a keyword is painted,
   or a character copied.

Enclosures still open at the end of the text are closed by their own delimiters, the inner
one first, so every span that is started is ended.
-/

namespace Tint

/-- Where the painter stands. -/
inductive Region where
  /-- in no enclosure -/
  | outside
  /-- in a strong enclosure, possibly one that stands in a weak one -/
  | strong (rule : Enclosure) (within : Option Enclosure)
  /-- in a doc enclosure -/
  | doc (rule : Enclosure)
  /-- in a weak enclosure -/
  | weak (rule : Enclosure)
  deriving DecidableEq, Repr, Inhabited

namespace Region

/-- The active enclosure. -/
def active? : Region → Option Enclosure
  | .outside => none
  | .strong rule _ => some rule
  | .doc rule => some rule
  | .weak rule => some rule

/-- The region around the active enclosure. -/
def parent : Region → Region
  | .strong _ (some rule) => .weak rule
  | _ => .outside

/-- The open enclosures, the innermost first. -/
def opened : Region → List Enclosure
  | .outside => []
  | .strong rule within => rule :: within.toList
  | .doc rule => [rule]
  | .weak rule => [rule]

/-- The delimiter that closes the active enclosure stands at the front of `rest`. -/
def closing? (region : Region) (rest : Text) : Option Enclosure :=
  region.active?.filter fun rule => rest.startsWith rule.right

end Region

namespace RuleSet

/-- The color of delimiters to which the rules give none. -/
def defaultDelimiterColor : Text := "#000".toList

/-- The color of an enclosure's delimiters. -/
def delimiterColor (rules : RuleSet) (name : Text) : Text :=
  (rules.delimiterColor? name).getD defaultDelimiterColor

end RuleSet

/-- The state of the painter between two steps. -/
structure Painter where
  /-- bytes painted so far -/
  pos : Nat
  /-- the last character painted -/
  previous : Option Char
  /-- what is left to paint -/
  rest : Text
  region : Region
  /-- the entry matches that have not been painted -/
  pending : List EntryMatch
  /-- the pieces so far, the latest first -/
  painted : List Piece
  deriving DecidableEq, Repr, Inhabited

namespace Painter

/-- The painter at the start of a text. -/
def start (text : Text) (entryMatches : List EntryMatch) : Painter where
  pos := 0
  previous := none
  rest := text
  region := .outside
  pending := entryMatches
  painted := []

/-- The pending match, if it starts here. -/
def due? (p : Painter) : Option EntryMatch :=
  p.pending.head?.filter fun m => m.start == p.pos

/-- Paints a piece and moves behind its source. -/
def paint (p : Painter) (piece : Piece) (region : Region) : Painter :=
  { p with
    pos := p.pos + piece.source.size
    previous := piece.source.getLast?.or p.previous
    rest := p.rest.drop piece.source.length
    region := region
    painted := piece :: p.painted }

/-- Copies the next character. -/
def copy (p : Painter) : Painter :=
  match p.rest with
  | [] => p
  | c :: _ => p.paint (.char c) p.region

/-- Paints a match that starts here. -/
def paintEntry (p : Painter) (m : EntryMatch) : Painter :=
  { p.paint (.entry (p.rest.take (m.wordEnd - m.start)) m.rule) p.region with
    pending := p.pending.tail }

/-- Opens an enclosure of a tier, if one opens here. -/
def tryOpen? (rules : RuleSet) (tier : Tier) (region : Enclosure → Region) (p : Painter) :
    Option Painter :=
  ((rules.enclosures tier).openAt? p.rest).map fun rule =>
    p.paint (.opening (rules.delimiterColor rule.name) rule) (region rule)

/-- Paints the word that stands here, if it has a color. -/
def tryWord? (color? : Text → Option Text) (p : Painter) : Option Painter :=
  (Word.at? p.previous p.rest).bind fun word =>
    (color? word).map fun color => p.paint (.word color word) p.region

/-- Paints what follows from the region alone. -/
def stepInside (rules : RuleSet) (p : Painter) : Painter :=
  match p.region with
  | .strong _ _ => p.copy
  | .doc _ => (p.tryWord? rules.docToken?).getD p.copy
  | .weak outer => (p.tryOpen? rules .strong (.strong · (some outer))).getD p.copy
  | .outside =>
    (p.tryOpen? rules .doc .doc
      <|> p.tryOpen? rules .strong (.strong · none)
      <|> p.tryOpen? rules .weak .weak
      <|> p.tryWord? rules.keyword?).getD p.copy

/-- One step. -/
def step (rules : RuleSet) (p : Painter) : Painter :=
  match p.due? with
  | some m => p.paintEntry m
  | none =>
    match p.region.closing? p.rest with
    | some rule => p.paint (.closing rule) p.region.parent
    | none => p.stepInside rules

/-- Takes up to `fuel` steps while text is left. -/
def steps (rules : RuleSet) : (fuel : Nat) → Painter → Painter
  | 0, p => p
  | fuel + 1, p => if p.rest.isEmpty then p else steps rules fuel (p.step rules)

/-- Paints the whole rest.  No step leaves the rest as long as it was, so its length bounds
their number. -/
def finish (rules : RuleSet) (p : Painter) : Painter := p.steps rules p.rest.length

/-- The pieces painted, in order. -/
def pieces (p : Painter) : List Piece := p.painted.reverse

/-- The pieces that close what is still open. -/
def closings (p : Painter) : List Piece := p.region.opened.map .closing

/-- The pieces, closed. -/
def painting (p : Painter) : Painting := p.pieces ++ p.closings

end Painter

namespace RuleSet

/-- Paints a text whose entry matches are given. -/
def paintWith (rules : RuleSet) (entryMatches : List EntryMatch) (text : Text) : Painter :=
  (Painter.start text entryMatches).finish rules

/-- The HTML of a text whose entry matches are given. -/
def renderWith (rules : RuleSet) (entryMatches : List EntryMatch) (text : Text) : Text :=
  (rules.paintWith entryMatches text).painting.html

/-- Paints a text. -/
def paint (rules : RuleSet) (text : Text) : Painting :=
  (rules.paintWith (EntryMatch.scan rules.entries text) text).painting

/-- The HTML of a text. -/
def render (rules : RuleSet) (text : Text) : Text := (rules.paint text).html

/-- The entry matches of a text are those of its own rules. -/
theorem render_eq_renderWith (rules : RuleSet) (text : Text) :
    rules.render text = rules.renderWith (EntryMatch.scan rules.entries text) text := rfl

end RuleSet

end Tint
