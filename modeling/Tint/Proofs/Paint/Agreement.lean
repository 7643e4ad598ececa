import Tint.Proofs.Paint.Flow
set_option autoImplicit false

/-!
# Rules that agree on a text

All that a painting asks of its rules is which enclosure of a tier opens at a place of the text,
which marker stands there, what color a word of the text has, and what color the delimiters of a
declared enclosure have.  Two rule sets that give the same answers (`RuleSet.AgreeOn`) paint the
text alike (`RuleSet.AgreeOn.render_eq`), however much they differ as data.
-/

namespace Tint

/-- The two rule sets answer alike whatever the painting of a text asks of the first. -/
structure RuleSet.AgreeOn (text : Text) (rules rules' : RuleSet) : Prop where
  openAt?_eq : ∀ tier rest, rest <:+ text →
    (rules.enclosures tier).openAt? rest = (rules'.enclosures tier).openAt? rest
  markerAt?_eq : ∀ rest, rest <:+ text →
    EntryMatch.markerAt? rules.entries rest = EntryMatch.markerAt? rules'.entries rest
  delimiterColor_eq : ∀ tier, ∀ e ∈ (rules.enclosures tier).rules,
    rules.delimiterColor e.name = rules'.delimiterColor e.name
  docToken?_eq : ∀ word, word <:+: text → rules.docToken? word = rules'.docToken? word
  keyword?_eq : ∀ word, word <:+: text → rules.keyword? word = rules'.keyword? word

variable {text rest : Text} {rules rules' : RuleSet}

/-! ## The choice of the next piece -/

namespace Region

theorem opening?_congr (h : rules.AgreeOn text rules') (hrest : rest <:+ text) (tier : Tier)
    (into : Enclosure → Region) : opening? rules rest tier into = opening? rules' rest tier into := by
  unfold opening?
  rw [← h.openAt?_eq tier rest hrest]
  cases hopen : (rules.enclosures tier).openAt? rest with
  | none => rfl
  | some e =>
    have hcolor := h.delimiterColor_eq tier e (EnclosureSet.openAt?_eq_some hopen).1
    rw [Option.map_some, Option.map_some, hcolor]

theorem word?_congr {color? color?' : Text → Option Text}
    (h : ∀ word, word <:+: text → color? word = color?' word) (hrest : rest <:+ text)
    (region : Region) (previous : Option Char) :
    word? region previous rest color? = word? region previous rest color?' := by
  unfold word?
  cases hword : Word.at? previous rest with
  | none => rfl
  | some w =>
    have hw : w <:+: text := (Word.isPrefix_of_at? hword).isInfix.trans hrest.isInfix
    rw [Option.bind_some, Option.bind_some, h w hw]

theorem inside?_congr (h : rules.AgreeOn text rules') (hrest : rest <:+ text) (region : Region)
    (previous : Option Char) :
    region.inside? rules previous rest = region.inside? rules' previous rest := by
  cases region with
  | strong e within => rfl
  | doc e => exact word?_congr h.docToken?_eq hrest _ previous
  | weak outer => exact opening?_congr h hrest _ _
  | outside =>
    unfold inside?
    rw [opening?_congr h hrest, opening?_congr h hrest, opening?_congr h hrest,
      word?_congr h.keyword?_eq hrest]

theorem choose_congr (h : rules.AgreeOn text rules') {c : Char} {r : Text}
    (hrest : (c :: r) <:+ text) (region : Region) (previous : Option Char) :
    region.choose rules previous c r = region.choose rules' previous c r := by
  unfold choose
  rw [inside?_congr h hrest]

end Region

/-! ## Paintings -/

namespace Painter

variable {p : Painter}

theorem step_congr (h : rules.AgreeOn text rules') (hp : p.rest <:+ text) (hrest : p.rest ≠ []) :
    p.step rules = p.step rules' := by
  cases due : p.due? with
  | some m => rw [step_of_due rules due, step_of_due rules' due]
  | none =>
    obtain ⟨c, r, hr⟩ := List.exists_cons_of_ne_nil hrest
    rw [hr] at hp
    rw [step_eq_paint due hr, step_eq_paint due hr, Region.choose_congr h hp]

theorem rest_step_isSuffix (rules : RuleSet) (hrest : p.rest ≠ []) :
    (p.step rules).rest <:+ p.rest := by
  obtain ⟨piece, region, -, hstep⟩ := exists_move rules hrest
  rw [hstep, rest_after]
  exact List.drop_suffix _ _

theorem steps_congr (h : rules.AgreeOn text rules') (fuel : Nat) (hp : p.rest <:+ text) :
    p.steps rules fuel = p.steps rules' fuel := by
  induction fuel generalizing p with
  | zero => rfl
  | succ fuel ih =>
    unfold steps
    split
    · rfl
    · rename_i hempty
      have hrest : p.rest ≠ [] := fun hnil => hempty (List.isEmpty_iff.2 hnil)
      rw [← step_congr h hp hrest]
      exact ih ((rest_step_isSuffix rules hrest).trans hp)

end Painter

theorem EntryMatch.scan_congr (h : rules.AgreeOn text rules') :
    scan rules.entries text = scan rules'.entries text := by
  rw [scan, scan, candidates_eq, candidates_eq, candidatesFrom_congr h.markerAt?_eq]

/-- Rules that agree on a text paint it alike. -/
theorem RuleSet.AgreeOn.render_eq (h : rules.AgreeOn text rules') :
    rules.render text = rules'.render text := by
  have hfinish : rules.paintWith (EntryMatch.scan rules.entries text) text =
      rules'.paintWith (EntryMatch.scan rules.entries text) text :=
    Painter.steps_congr h _ (List.suffix_refl _)
  rw [render_eq_renderWith, render_eq_renderWith, renderWith, renderWith, hfinish,
    EntryMatch.scan_congr h]

/-! ## Without rules -/

theorem Region.opening?_eq_none {tier : Tier} (h : (rules.enclosures tier).rules = []) (rest : Text)
    (into : Enclosure → Region) : opening? rules rest tier into = none := by
  rw [opening?, EnclosureSet.openAt?_eq_find?, h]
  rfl

theorem Region.choose_empty (previous : Option Char) (c : Char) (r : Text) :
    outside.choose {} previous c r = (.char c, .outside) := by
  have hopen (tier : Tier) (into : Enclosure → Region) :
      opening? {} (c :: r) tier into = none :=
    opening?_eq_none (by cases tier <;> rfl) (c :: r) into
  have hword : word? .outside previous (c :: r) (RuleSet.keyword? {}) = none := by
    unfold word?
    cases Word.at? previous (c :: r) with
    | none => rfl
    | some w => simp [RuleSet.keyword?]
  have hinside : outside.inside? {} previous (c :: r) = none := by
    rw [inside?, hopen, hopen, hopen, hword]
    rfl
  unfold choose
  rw [hinside]
  rfl

theorem RuleSet.flow_empty (previous : Option Char) (text : Text) :
    flow {} .outside previous 0 text = text.map .char := by
  induction text generalizing previous with
  | nil => rfl
  | cons c r ih =>
    rw [flow, Region.choose_empty]
    exact congrArg (Piece.char c :: ·) (ih (some c))

/-- Copied characters are escaped one by one. -/
theorem Painting.html_map_char (t : Text) : Painting.html (t.map .char) = Markup.escape t := by
  rw [Painting.html, List.flatMap_map]
  rfl

theorem EntryMatch.scan_nil (text : Text) : scan [] text = [] :=
  List.eq_nil_iff_forall_not_mem.2 fun _ hm => List.not_mem_nil (standsIn_of_mem_scan hm).1

/-- Without rules a text is only escaped. -/
theorem RuleSet.render_empty (text : Text) : ({} : RuleSet).render text = Markup.escape text := by
  have hrules : (ofDirectives []).WellFormed := wellFormed_ofDirectives fun _ hd => nomatch hd
  have hscan : EntryMatch.scan ({} : RuleSet).entries text = [] := EntryMatch.scan_nil text
  have hpainting : (paintWith {} [] text).painting = flow {} .outside none 0 text :=
    painting_paintWith_nil hrules text
  rw [render_eq_renderWith, renderWith, hscan, hpainting, flow_empty, Painting.html_map_char]

end Tint
