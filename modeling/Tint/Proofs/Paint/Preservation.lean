import Tint.Proofs.Markup.Tokens
import Tint.Proofs.Paint.Move
set_option autoImplicit false

/-!
# Painting preserves the text

The steps of a painting read the text piece by piece, from its start to its end
(`tiles_iterations`), and what a piece is written as holds its source and nothing else besides the
tags (`stripTags_html`).  So the tags of a rendered text can be deleted and its references
replaced, and the text is there again, followed by the closing delimiters of the enclosures that
it leaves open (`unescape_stripTags_render`).

The tags are deleted from the HTML as a text, so the colors must be plain.
-/

namespace Tint

open Markup

/-- The ranges follow one another from the first offset to the last one, none of them empty. -/
inductive Text.Tiles : Nat → Nat → List (Nat × Nat) → Prop where
  | nil (a : Nat) : Tiles a a []
  | cons {a b c : Nat} {rest : List (Nat × Nat)} : a < b → Tiles b c rest →
      Tiles a c ((a, b) :: rest)

/-- The closing delimiters of the open enclosures, the inner one first. -/
def Region.unclosed : Region → Text
  | .outside => []
  | .strong e none => e.right
  | .strong e (some outer) => e.right ++ outer.right
  | .doc e => e.right
  | .weak e => e.right

/-- The color that the piece is written with can stand in a tag. -/
def Piece.IsPlain : Piece → Prop
  | .char _ => True
  | .word color _ => Color.IsPlain color
  | .entry _ rule => Color.IsPlain rule.color
  | .opening color _ => Color.IsPlain color
  | .closing _ => True

namespace RuleSet

variable {rules : RuleSet}

theorem WellFormed.isPlain_delimiterColor (h : rules.WellFormed) (name : Text) :
    Color.IsPlain (rules.delimiterColor name) := by
  unfold RuleSet.delimiterColor
  cases hcolor : rules.delimiterColor? name with
  | some color => exact (h.delimiterColor hcolor).isPlain
  | none =>
    have hdefault : defaultDelimiterColor.all
        (fun c => !Color.special.contains c && !isBlank c) = true := rfl
    intro c hc
    have hplain := List.all_eq_true.1 hdefault c hc
    simpa using hplain

theorem WellFormed.isPlain_wordColor (h : rules.WellFormed) {region : Region} {w color : Text}
    (hcolor : region.wordColor? rules w = some color) : Color.IsPlain color := by
  cases region with
  | outside => exact (h.keyword hcolor).isPlain
  | doc e => exact (h.docToken hcolor).isPlain
  | strong e within => cases hcolor
  | weak e => cases hcolor

end RuleSet

/-! ## Tags -/

theorem Piece.stripTags_html_append {piece : Piece} (h : piece.IsPlain) (r : Text) :
    stripTags (piece.html ++ r) = escape piece.source ++ stripTags r := by
  cases piece with
  | char c =>
    have hchar := stripTags_escape_append [c] r
    rw [escape_cons, escape_nil, List.append_nil] at hchar
    rw [html, source, hchar, escape_cons, escape_nil, List.append_nil]
  | word color w =>
    rw [html, source, colored, List.append_assoc, List.append_assoc,
      stripTags_openSpan_append h, stripTags_escape_append, stripTags_closeSpan_append]
  | entry w rule =>
    rw [html, source, colored, List.append_assoc, List.append_assoc,
      stripTags_openSpan_append h, stripTags_escape_append, stripTags_closeSpan_append]
  | opening color e =>
    rw [html, source, List.append_assoc, stripTags_openSpan_append h, stripTags_escape_append]
  | closing e =>
    rw [html, source, List.append_assoc, stripTags_escape_append, stripTags_closeSpan_append]

/-- Without its tags, a painting is the escaped source of its pieces. -/
theorem Painting.stripTags_html {painting : Painting} (h : ∀ piece ∈ painting, piece.IsPlain) :
    stripTags painting.html = escape (painting.flatMap Piece.source) := by
  induction painting with
  | nil => rfl
  | cons piece painting ih =>
    have hrest := ih fun q hq => h q (List.mem_cons_of_mem _ hq)
    unfold html at hrest ⊢
    rw [List.flatMap_cons, Piece.stripTags_html_append (h piece List.mem_cons_self), hrest,
      List.flatMap_cons, escape_append]

namespace Painter

variable {rules : RuleSet} {p : Painter} {piece : Piece} {region : Region} {text : Text}

theorem Move.isPlain (move : Move rules p piece region)
    (h : p.Tracks rules rules.entries text) (hrules : rules.WellFormed) : piece.IsPlain := by
  cases move with
  | entry due =>
    obtain ⟨word, after, -, -, -, -, -, hmem⟩ := h.rest_of_due due
    exact (hrules.entry_color hmem).isPlain
  | closing free closes => trivial
  | opening free stays enters opens => exact hrules.isPlain_delimiterColor _
  | word free stays hword colored => exact hrules.isPlain_wordColor colored
  | char free stays hrest => trivial

/-- What holds of every piece that a move paints holds of the pieces of a painting. -/
theorem forall_mem_pieces_finish {P : Piece → Prop} (h : p.Tracks rules rules.entries text)
    (hp : ∀ piece ∈ p.pieces, P piece)
    (hmove : ∀ {q : Painter} {piece : Piece} {region : Region}, q.Tracks rules rules.entries text →
      Move rules q piece region → P piece) : ∀ piece ∈ (p.finish rules).pieces, P piece := by
  refine finish_invariant (I := fun q => ∀ piece ∈ q.pieces, P piece) h hp ?_
  intro q piece region hq move hpieces piece' hpiece'
  rw [pieces_after, List.mem_append, List.mem_singleton] at hpiece'
  rcases hpiece' with hmem | rfl
  · exact hpieces piece' hmem
  · exact hmove hq move

theorem isPlain_finish (h : p.Tracks rules rules.entries text) (hrules : rules.WellFormed)
    (hp : ∀ piece ∈ p.pieces, piece.IsPlain) :
    ∀ piece ∈ (p.finish rules).pieces, piece.IsPlain :=
  forall_mem_pieces_finish h hp fun hq move => move.isPlain hq hrules

theorem flatMap_source_closings (p : Painter) :
    p.closings.flatMap Piece.source = p.region.unclosed := by
  unfold closings
  cases hregion : p.region with
  | outside => rfl
  | strong e within => cases within <;> simp [Region.opened, Region.unclosed, Piece.source]
  | doc e => simp [Region.opened, Region.unclosed, Piece.source]
  | weak e => simp [Region.opened, Region.unclosed, Piece.source]

theorem isPlain_painting (hp : ∀ piece ∈ p.pieces, piece.IsPlain) :
    ∀ piece ∈ p.painting, piece.IsPlain := by
  intro piece hpiece
  rcases List.mem_append.1 hpiece with hpiece | hpiece
  · exact hp piece hpiece
  · obtain ⟨e, -, rfl⟩ := List.mem_map.1 hpiece
    trivial

/-- The steps of a painting read the text from its start to its end. -/
theorem tiles_iterations {entries : List EntryRule} (h : p.Tracks rules entries text)
    (hrules : rules.WellFormed) :
    Text.Tiles p.pos text.size ((p.iterations rules).map fun q => (q.pos, (q.step rules).pos)) := by
  refine Loop.run_induction (descends hrules entries text) (Q := fun p states _ =>
    Text.Tiles p.pos text.size (states.map fun q => (q.pos, (q.step rules).pos))) ?_ ?_ h
      (Nat.le_refl _)
  · intro p hdone hp
    have hnil : p.rest = [] := List.isEmpty_iff.1 hdone
    have hpos : p.pos = text.size := by rw [hp.pos_eq, ← hp.text_eq, hnil, List.append_nil]
    rw [hpos]
    exact .nil _
  · intro p states _ hdone hp htiles
    obtain ⟨piece, region, -, -, hslice, hpiece⟩ :=
      hp.isSlice_step hrules (rest_ne_nil_of_done hdone)
    exact .cons (hslice.lt_of_ne_nil hpiece) htiles

end Painter

/-- Each step reads the slice of the text that it paints, these slices make up the text, and the
rendered text without its tags and references is the text with the delimiters that it misses. -/
theorem RuleSet.unescape_stripTags_render {file : Text} {contents : RuleFile.Contents}
    (h : RuleFile.read file = .ok contents) (text : Text) :
    let rules := contents.rules
    let start := Painter.start text (EntryMatch.scan rules.entries text)
    Text.Tiles 0 text.size
        ((start.iterations rules).map fun p => (p.pos, (p.step rules).pos)) ∧
      (∀ p ∈ start.iterations rules, ∃ piece region, p.Move rules piece region ∧
        p.step rules = p.after piece region ∧
        text.IsSlice p.pos (p.step rules).pos piece.source) ∧
      unescape (stripTags (rules.render text)) = text ++ (start.finish rules).region.unclosed := by
  intro rules start
  have hrules : rules.WellFormed := RuleFile.wellFormed_of_read h
  have hstart : start.Tracks rules rules.entries text := rules.tracks_start_scan rules.entries text
  refine ⟨Painter.tiles_iterations hstart hrules, ?_, ?_⟩
  · intro p hp
    obtain ⟨hp, hne⟩ := Painter.tracks_of_mem_iterations hstart hrules hp
    obtain ⟨piece, region, move, hstep, hslice, -⟩ := hp.isSlice_step hrules hne
    exact ⟨piece, region, move, hstep, hslice⟩
  · have hplain := Painter.isPlain_finish hstart hrules fun piece hpiece =>
      absurd hpiece List.not_mem_nil
    have hrender : rules.render text = (start.finish rules).painting.html := rfl
    have hsource := Painter.source_finish hstart hrules
    rw [Painter.source] at hsource
    rw [hrender, Painting.stripTags_html (Painter.isPlain_painting hplain), unescape_escape,
      Painter.painting, List.flatMap_append, hsource, Painter.flatMap_source_closings]

/-- A text that ends in a strong enclosure inside a weak one misses the delimiters of both. -/
theorem RuleSet.unescape_stripTags_render_nested :
    ∃ contents, RuleFile.read
        "%highlight voice: snow-bud v1.3%\n->enclose tag < >\n*>enclose str \" \"".toList =
          .ok contents ∧
      unescape (stripTags (contents.rules.render "<a \"&x".toList)) = "<a \"&x\">".toList := by
  have hread : RuleFile.read
      "%highlight voice: snow-bud v1.3%\n->enclose tag < >\n*>enclose str \" \"".toList =
        .ok ⟨.ofDirectives [.enclosure .weak ⟨"tag".toList, ['<'], ['>']⟩,
          .enclosure .strong ⟨"str".toList, ['"'], ['"']⟩], []⟩ := rfl
  refine ⟨_, hread, ?_⟩
  rw [(unescape_stripTags_render hread "<a \"&x".toList).2.2]
  rfl

end Tint
