import Tint.Proofs.Markup.Balance
import Tint.Proofs.Paint.Preservation
set_option autoImplicit false

/-!
# The grammar of the output

What rules can make of a text, as a language (`RuleSet.output`): escaped characters, leaf spans of
entries and words, and the regions of the three tiers, each between the two delimiters of one of
its rules.  Only strong regions stand inside another one, and only inside a weak one, so nothing
nests deeper than three spans (`balanced_of_mem_output`).

The painter derives its output from left to right.  What it has written so far is a word of
`RuleSet.written`, which depends on the region only: all that is complete, then for each open
enclosure its opening and a part of its body.  A move appends an item of the region, opens
one or completes one.
-/

namespace Tint

open Markup
open Color (IsPlain)
open scoped Computability

namespace RuleSet

/-! ## The language -/

variable (rules : RuleSet)

/-- A word with the marker of an entry rule, in the rule's color. -/
def entrySpan : Language Char :=
  {t | ∃ rule ∈ rules.entries, ∃ word : Text, word ≠ [] ∧
    (∀ c ∈ word, EntryMatch.isWordChar c = true) ∧
    t ∈ Markup.span rule.color {escape (word ++ rule.token)}}

/-- A word that has a color. -/
def wordSpan (color? : Text → Option Text) : Language Char :=
  {t | ∃ word color, color? word = some color ∧ t ∈ Markup.span color {escape word}}

/-- A body between the delimiters of one rule of the tier, in the color of these delimiters. -/
def regionSpan (tier : Tier) (body : Language Char) : Language Char :=
  {t | ∃ e ∈ (rules.enclosures tier).rules,
    t ∈ Markup.span (rules.delimiterColor e.name) ({escape e.left} * body * {escape e.right})}

def strongItem : Language Char := escapedChar + rules.entrySpan

def docItem : Language Char := escapedChar + rules.entrySpan + wordSpan rules.docToken?

def weakItem : Language Char :=
  escapedChar + rules.entrySpan + rules.regionSpan .strong rules.strongItem∗

def topItem : Language Char :=
  escapedChar + rules.entrySpan + wordSpan rules.keyword? + rules.regionSpan .doc rules.docItem∗ +
    rules.regionSpan .strong rules.strongItem∗ + rules.regionSpan .weak rules.weakItem∗

/-- The HTML of texts. -/
def output : Language Char := rules.topItem∗

variable {rules} {t : Text}

/-! ## Every word of the language is balanced -/

theorem balanced_of_mem_entrySpan (h : t ∈ rules.entrySpan) : Balanced 1 t := by
  obtain ⟨rule, -, word, -, -, ht⟩ := h
  apply Balanced.of_mem_span _ ht
  rintro s rfl
  exact balanced_escape 0 _

theorem balanced_of_mem_wordSpan {color? : Text → Option Text} (h : t ∈ wordSpan color?) :
    Balanced 1 t := by
  obtain ⟨word, color, -, ht⟩ := h
  apply Balanced.of_mem_span _ ht
  rintro s rfl
  exact balanced_escape 0 _

theorem balanced_of_mem_regionSpan {tier : Tier} {item : Language Char} {depth : Nat}
    (hitem : ∀ s ∈ item, Balanced depth s) (h : t ∈ rules.regionSpan tier item∗) :
    Balanced (depth + 1) t := by
  obtain ⟨e, -, ht⟩ := h
  have hdelimiter (u : Text) : ∀ s ∈ ({escape u} : Language Char), Balanced depth s := by
    rintro s rfl
    exact balanced_escape depth u
  apply Balanced.of_mem_span _ ht
  intro s hs
  refine Balanced.of_mem_mul ?_ (hdelimiter _) hs
  intro a ha
  refine Balanced.of_mem_mul (hdelimiter _) ?_ ha
  intro b hb
  exact Balanced.of_mem_kstar hitem hb

theorem balanced_of_mem_strongItem (h : t ∈ rules.strongItem) : Balanced 1 t := by
  rcases h with h | h
  · exact Balanced.of_mem_escapedChar h
  · exact balanced_of_mem_entrySpan h

theorem balanced_of_mem_docItem (h : t ∈ rules.docItem) : Balanced 1 t := by
  rcases h with h | h
  · exact balanced_of_mem_strongItem h
  · exact balanced_of_mem_wordSpan h

theorem balanced_of_mem_weakItem (h : t ∈ rules.weakItem) : Balanced 2 t := by
  rcases h with h | h
  · exact (balanced_of_mem_strongItem h).mono (by omega)
  · exact balanced_of_mem_regionSpan (fun _ => balanced_of_mem_strongItem) h

/-- Spans nest three deep at most: an entry in a strong region in a weak one. -/
theorem balanced_of_mem_output (h : t ∈ rules.output) : Balanced 3 t := by
  refine Balanced.of_mem_kstar ?_ h
  rintro s ((((hs | hs) | hs) | hs) | hs)
  · exact (balanced_of_mem_strongItem hs).mono (by omega)
  · exact (balanced_of_mem_wordSpan hs).mono (by omega)
  · exact (balanced_of_mem_regionSpan (fun _ => balanced_of_mem_docItem) hs).mono (by omega)
  · exact (balanced_of_mem_regionSpan (fun _ => balanced_of_mem_strongItem) hs).mono (by omega)
  · exact balanced_of_mem_regionSpan (fun _ => balanced_of_mem_weakItem) hs

/-! ## What has been written in a region -/

variable (rules)

/-- What the body of a region is made of. -/
def item : Region → Language Char
  | .outside => rules.topItem
  | .strong _ _ => rules.strongItem
  | .doc _ => rules.docItem
  | .weak _ => rules.weakItem

def openingHtml (e : Enclosure) : Text := openSpan (rules.delimiterColor e.name) ++ escape e.left

/-- What has been written when the body of a region starts. -/
def before : Region → Language Char
  | .outside => 1
  | .strong e none => rules.topItem∗ * {rules.openingHtml e}
  | .strong e (some outer) =>
    rules.topItem∗ * {rules.openingHtml outer} * rules.weakItem∗ * {rules.openingHtml e}
  | .doc e => rules.topItem∗ * {rules.openingHtml e}
  | .weak e => rules.topItem∗ * {rules.openingHtml e}

/-- What has been written while a region is active. -/
def written (region : Region) : Language Char := rules.before region * (rules.item region)∗

variable {rules} {region region' : Region} {tier : Tier} {e : Enclosure} {u : Text}

theorem written_outside : rules.written .outside = rules.output := one_mul _

theorem append_item (h : t ∈ rules.written region) (hu : u ∈ rules.item region) :
    t ++ u ∈ rules.written region := by
  obtain ⟨a, ha, b, hb, rfl⟩ := Language.mem_mul.1 h
  have hbody : b ++ u ∈ (rules.item region)∗ :=
    kstar_mul_le_kstar (a := rules.item region) (Language.append_mem_mul hb hu)
  rw [List.append_assoc]
  exact Language.append_mem_mul ha hbody

theorem mem_item_of_mem_strongItem (h : t ∈ rules.strongItem) (region : Region) :
    t ∈ rules.item region := by
  cases region with
  | outside => exact .inl (.inl (.inl (.inl h)))
  | strong e within => exact h
  | doc e => exact .inl h
  | weak e => exact .inl h

/-- A word with a color of the region is an item of the region. -/
theorem colored_mem_item (hrules : rules.WellFormed) {w color : Text}
    (h : region.wordColor? rules w = some color) : colored color w ∈ rules.item region := by
  have hplain := hrules.isPlain_wordColor h
  cases region with
  | outside => exact .inl (.inl (.inl (.inr ⟨w, color, h, hplain, _, rfl, rfl⟩)))
  | doc e => exact .inr ⟨w, color, h, hplain, _, rfl, rfl⟩
  | strong e within => cases h
  | weak e => cases h

theorem before_of_enters (h : region.Enters tier e region') :
    rules.before region' = rules.written region * {rules.openingHtml e} := by
  cases h with
  | doc => rw [written_outside]; rfl
  | strong => rw [written_outside]; rfl
  | weak => rw [written_outside]; rfl
  | inner outer => rfl

theorem append_opening (henters : region.Enters tier e region') (h : t ∈ rules.written region) :
    t ++ rules.openingHtml e ∈ rules.written region' := by
  have hbefore : t ++ rules.openingHtml e ∈ rules.before region' := by
    rw [before_of_enters henters]
    exact Language.append_mem_mul h rfl
  have hwritten := Language.append_mem_mul hbefore (Language.nil_mem_kstar (rules.item region'))
  rwa [List.append_nil] at hwritten

/-- A region is an item of the region around it. -/
theorem regionSpan_mem_item (henters : region.Enters tier e region')
    (h : t ∈ rules.regionSpan tier (rules.item region')∗) : t ∈ rules.item region := by
  cases henters with
  | doc => exact .inl (.inl (.inr h))
  | strong => exact .inl (.inr h)
  | weak => exact .inr h
  | inner outer => exact .inr h

theorem append_closing (hrules : rules.WellFormed) (henters : region.Enters tier e region')
    (he : e ∈ (rules.enclosures tier).rules) (h : t ∈ rules.written region') :
    t ++ (escape e.right ++ closeSpan) ∈ rules.written region := by
  obtain ⟨a, ha, body, hbody, rfl⟩ := Language.mem_mul.1 h
  rw [before_of_enters henters] at ha
  obtain ⟨w, hw, o, rfl, rfl⟩ := Language.mem_mul.1 ha
  have hspan : rules.openingHtml e ++ body ++ (escape e.right ++ closeSpan) ∈
      rules.regionSpan tier (rules.item region')∗ := by
    refine ⟨e, he, hrules.isPlain_delimiterColor e.name, escape e.left ++ body ++ escape e.right,
      ?_, ?_⟩
    · exact Language.append_mem_mul (Language.append_mem_mul rfl hbody) rfl
    · simp [openingHtml]
  have hwritten := append_item hw (regionSpan_mem_item henters hspan)
  simpa using hwritten

end RuleSet

/-! ## The painter derives what it writes -/

namespace Painter

variable {rules : RuleSet} {p : Painter} {piece : Piece} {region : Region} {text : Text}

/-- A move appends an item, opens a region or completes one. -/
theorem Move.html_mem_written (move : Move rules p piece region)
    (h : p.Tracks rules rules.entries text) (hrules : rules.WellFormed) {t : Text}
    (ht : t ∈ rules.written p.region) : t ++ piece.html ∈ rules.written region := by
  cases move with
  | @entry m due =>
    obtain ⟨word, -, -, htake, hne, hchars, -, hmem⟩ := h.rest_of_due due
    have hplain := (hrules.entry_color hmem).isPlain
    apply RuleSet.append_item ht
    apply RuleSet.mem_item_of_mem_strongItem
    rw [htake]
    exact .inr ⟨m.rule, hmem, word, hne, hchars, hplain, _, rfl, rfl⟩
  | closing free closes =>
    obtain ⟨hactive, -⟩ := Region.closing?_eq_some_iff.1 closes
    obtain ⟨tier, henters, he⟩ := h.region_declared.enters_parent hactive
    exact RuleSet.append_closing hrules henters he ht
  | opening free stays enters opens => exact RuleSet.append_opening enters ht
  | word free stays hword colored =>
    exact RuleSet.append_item ht (RuleSet.colored_mem_item hrules colored)
  | @char c r free stays hrest =>
    apply RuleSet.append_item ht
    apply RuleSet.mem_item_of_mem_strongItem
    exact .inl ⟨c, rfl⟩

theorem html_pieces_finish (h : p.Tracks rules rules.entries text) (hrules : rules.WellFormed)
    (hp : Painting.html p.pieces ∈ rules.written p.region) :
    Painting.html (p.finish rules).pieces ∈ rules.written (p.finish rules).region := by
  refine finish_invariant (I := fun q => Painting.html q.pieces ∈ rules.written q.region) h hp ?_
  intro q piece region hq move hwritten
  have happend : Painting.html (q.after piece region).pieces =
      Painting.html q.pieces ++ piece.html := by
    rw [pieces_after]
    simp [Painting.html]
  rw [happend]
  exact move.html_mem_written hq hrules hwritten

/-- The regions that are still open at the end are completed, the inner one first. -/
theorem html_closings_mem_output (hrules : rules.WellFormed) (h : p.region.Declared rules)
    {t : Text} (ht : t ∈ rules.written p.region) :
    t ++ Painting.html p.closings ∈ rules.output := by
  unfold closings
  rw [← RuleSet.written_outside]
  cases hregion : p.region with
  | outside =>
    rw [hregion] at ht
    simpa [Region.opened, Painting.html] using ht
  | strong e within =>
    rw [hregion] at ht h
    cases within with
    | none =>
      have hclosed := RuleSet.append_closing hrules (Region.Enters.strong e) h ht
      simpa [Region.opened, Painting.html, Piece.html] using hclosed
    | some outer =>
      have hinner := RuleSet.append_closing hrules (Region.Enters.inner outer e) h.1 ht
      have hclosed := RuleSet.append_closing hrules (Region.Enters.weak outer) h.2 hinner
      simpa [Region.opened, Painting.html, Piece.html] using hclosed
  | doc e =>
    rw [hregion] at ht h
    have hclosed := RuleSet.append_closing hrules (Region.Enters.doc e) h ht
    simpa [Region.opened, Painting.html, Piece.html] using hclosed
  | weak e =>
    rw [hregion] at ht h
    have hclosed := RuleSet.append_closing hrules (Region.Enters.weak e) h ht
    simpa [Region.opened, Painting.html, Piece.html] using hclosed

end Painter

/-- The HTML of every text is a word of the language of its rules; its tags are those of spans,
each of them closed and never more than three open, and nothing unescaped is left outside of
them. -/
theorem RuleSet.render_mem_output {file : Text} {contents : RuleFile.Contents}
    (h : RuleFile.read file = .ok contents) (text : Text) :
    contents.rules.render text ∈ contents.rules.output ∧
      Nests 3 0 (tags (contents.rules.render text)) 0 ∧
      IsEscaped (stripTags (contents.rules.render text)) := by
  have hrules : contents.rules.WellFormed := RuleFile.wellFormed_of_read h
  have hstart := contents.rules.tracks_start_scan contents.rules.entries text
  have hnil : [] ∈ contents.rules.written .outside := by
    rw [written_outside]
    exact Language.nil_mem_kstar _
  have hpieces := Painter.html_pieces_finish hstart hrules hnil
  have hdeclared := (Painter.tracks_finish hstart).region_declared
  have hmem : contents.rules.render text ∈ contents.rules.output := by
    have hclosed := Painter.html_closings_mem_output hrules hdeclared hpieces
    rw [Painting.html, Painting.html, ← List.flatMap_append] at hclosed
    exact hclosed
  have hbalanced := balanced_of_mem_output hmem
  exact ⟨hmem, hbalanced.nests, hbalanced.isEscaped_stripTags⟩

/-- Three spans at the end of a text, the inner one an entry and the outer two not terminated. -/
theorem RuleSet.render_mem_output_nested :
    ∃ contents, RuleFile.read ("%highlight voice: snow-bud v1.3%\n->enclose tag < >\n".toList ++
        "*>enclose str \" \"\n*entry : #0f0".toList) = .ok contents ∧
      ("<span style=\"color:#000\">&lt;a <span style=\"color:#000\">\"".toList ++
        "<span style=\"color:#0f0\">k:</span>\"</span>&gt;</span>".toList) ∈
          contents.rules.output := by
  have hread : RuleFile.read ("%highlight voice: snow-bud v1.3%\n->enclose tag < >\n".toList ++
      "*>enclose str \" \"\n*entry : #0f0".toList) =
        .ok ⟨.ofDirectives [.enclosure .weak ⟨"tag".toList, ['<'], ['>']⟩,
          .enclosure .strong ⟨"str".toList, ['"'], ['"']⟩,
          .entry ⟨[':'], "#0f0".toList⟩], []⟩ := rfl
  refine ⟨_, hread, ?_⟩
  obtain ⟨hmem, -, -⟩ := render_mem_output hread "<a \"k:".toList
  exact hmem

end Tint
