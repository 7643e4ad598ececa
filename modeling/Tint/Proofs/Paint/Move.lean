import Tint.Paint.Painter
import Tint.Proofs.Paint.Scanner
import Tint.Proofs.Rules.WellFormed
set_option autoImplicit false

/-!
# Moves of the painter

All that a step of the painter can do is said once, by `Painter.Move`: which piece is painted, in
which region, under which conditions, and which region it leaves (`exists_move`).  What holds of
every painting is read off the moves, without the painter's own case analysis.

The moves keep the painter on the text (`Painter.Tracks`): the sources of the pieces and the rest
are the text, and the region has been opened by the rules.  For this every move has to paint what
stands in front of it, and something (`Move.source_isPrefix`, `Move.source_ne_nil`); here
well-formed rules and matches that stand in the text are needed.
-/

namespace Tint

namespace Region

/-- In the one region an enclosure of the tier opens the other. -/
inductive Enters : Region → Tier → Enclosure → Region → Prop where
  | doc (e : Enclosure) : Enters .outside .doc e (.doc e)
  | strong (e : Enclosure) : Enters .outside .strong e (.strong e none)
  | weak (e : Enclosure) : Enters .outside .weak e (.weak e)
  /-- a strong enclosure inside a weak one -/
  | inner (outer e : Enclosure) : Enters (.weak outer) .strong e (.strong e (some outer))

/-- The color of a word in a region. -/
def wordColor? (rules : RuleSet) : Region → Text → Option Text
  | .outside => rules.keyword?
  | .doc _ => rules.docToken?
  | _ => fun _ => none

/-- The open enclosures are enclosures of the rules, each of its own tier. -/
def Declared (rules : RuleSet) : Region → Prop
  | .outside => True
  | .strong e none => e ∈ rules.strong.rules
  | .strong e (some outer) => e ∈ rules.strong.rules ∧ outer ∈ rules.weak.rules
  | .doc e => e ∈ rules.doc.rules
  | .weak e => e ∈ rules.weak.rules

variable {rules : RuleSet} {region region' : Region} {tier : Tier} {e : Enclosure}

theorem Declared.parent (h : region.Declared rules) : region.parent.Declared rules := by
  cases region with
  | strong e within =>
    cases within with
    | none => trivial
    | some outer => exact h.2
  | outside => trivial
  | doc e => trivial
  | weak e => trivial

theorem Declared.enters (h : region.Declared rules) (henters : Enters region tier e region')
    (he : e ∈ (rules.enclosures tier).rules) : region'.Declared rules := by
  cases henters with
  | doc => exact he
  | strong => exact he
  | weak => exact he
  | inner outer => exact ⟨he, h⟩

/-- The active enclosure has been opened in the region around it. -/
theorem Declared.enters_parent (h : region.Declared rules) (he : region.active? = some e) :
    ∃ tier, Enters region.parent tier e region ∧ e ∈ (rules.enclosures tier).rules := by
  cases region with
  | outside => cases he
  | strong d within =>
    cases he
    cases within with
    | none => exact ⟨.strong, .strong e, h⟩
    | some outer => exact ⟨.strong, .inner outer e, h.1⟩
  | doc d =>
    cases he
    exact ⟨.doc, .doc e, h⟩
  | weak d =>
    cases he
    exact ⟨.weak, .weak e, h⟩

theorem closing?_eq_some_iff {rest : Text} :
    region.closing? rest = some e ↔ region.active? = some e ∧ e.right <+: rest := by
  simp [closing?, Option.filter_eq_some_iff]

end Region

theorem EnclosureSet.openAt?_eq_some {s : EnclosureSet} {rest : Text} {e : Enclosure}
    (h : s.openAt? rest = some e) : e ∈ s.rules ∧ e.left <+: rest := by
  rw [openAt?_eq_find?] at h
  exact ⟨List.mem_of_find?_eq_some h, Text.startsWith_iff.1 (by simpa using List.find?_some h)⟩

theorem Word.ne_nil_of_at? {previous : Option Char} {rest w : Text}
    (h : Word.at? previous rest = some w) : w ≠ [] := by
  unfold at? at h
  split at h
  · cases h
  · split at h
    · rename_i hstart
      cases h
      cases rest with
      | nil => simp at hstart
      | cons c r =>
        have hc : isPart c = true := isPart_of_isStart (by simpa using hstart)
        rw [List.takeWhile_cons_of_pos hc]
        exact List.cons_ne_nil _ _
    · cases h

/-! ## The choice of the next piece -/

namespace Region

/-- An enclosure of the tier that opens at the front of `rest`. -/
def opening? (rules : RuleSet) (rest : Text) (tier : Tier) (into : Enclosure → Region) :
    Option (Piece × Region) :=
  ((rules.enclosures tier).openAt? rest).map fun e =>
    (.opening (rules.delimiterColor e.name) e, into e)

/-- A colored word at the front of `rest`. -/
def word? (region : Region) (previous : Option Char) (rest : Text)
    (color? : Text → Option Text) : Option (Piece × Region) :=
  (Word.at? previous rest).bind fun w => (color? w).map fun color => (.word color w, region)

/-- What the region recognises at the front of `rest`. -/
def inside? (rules : RuleSet) (region : Region) (previous : Option Char) (rest : Text) :
    Option (Piece × Region) :=
  match region with
  | .strong _ _ => none
  | .doc e => word? (.doc e) previous rest rules.docToken?
  | .weak outer => opening? rules rest .strong (.strong · (some outer))
  | .outside =>
    (opening? rules rest .doc .doc).or <| (opening? rules rest .strong (.strong · none)).or <|
      (opening? rules rest .weak .weak).or <| word? .outside previous rest rules.keyword?

/-- The piece that is painted next, entry matches apart, and the region that it leaves. -/
def choose (rules : RuleSet) (region : Region) (previous : Option Char) (c : Char) (r : Text) :
    Piece × Region :=
  match region.closing? (c :: r) with
  | some e => (.closing e, region.parent)
  | none => (region.inside? rules previous (c :: r)).getD (.char c, region)

end Region

namespace Painter

/-- The piece that a step may paint, and the region that it leaves. -/
inductive Move (rules : RuleSet) (p : Painter) : Piece → Region → Prop where
  /-- the pending match starts here -/
  | entry {m : EntryMatch} (due : p.due? = some m) :
      Move rules p (.entry (p.rest.take (m.wordEnd - m.start)) m.rule) p.region
  /-- the active enclosure ends here -/
  | closing {e : Enclosure} (free : p.due? = none) (closes : p.region.closing? p.rest = some e) :
      Move rules p (.closing e) p.region.parent
  /-- an enclosure starts here -/
  | opening {tier : Tier} {e : Enclosure} {region : Region} (free : p.due? = none)
      (stays : p.region.closing? p.rest = none) (enters : p.region.Enters tier e region)
      (opens : (rules.enclosures tier).openAt? p.rest = some e) :
      Move rules p (.opening (rules.delimiterColor e.name) e) region
  /-- a colored word starts here -/
  | word {color w : Text} (free : p.due? = none) (stays : p.region.closing? p.rest = none)
      (at? : Word.at? p.previous p.rest = some w)
      (colored : p.region.wordColor? rules w = some color) : Move rules p (.word color w) p.region
  /-- none of these -/
  | char {c : Char} {r : Text} (free : p.due? = none) (stays : p.region.closing? p.rest = none)
      (rest : p.rest = c :: r) : Move rules p (.char c) p.region

/-- The painter behind a piece. -/
def after (p : Painter) (piece : Piece) (region : Region) : Painter :=
  { p.paint piece region with
    pending := if p.due?.isSome then p.pending.tail else p.pending }

variable {rules : RuleSet} {p : Painter} {piece : Piece} {region : Region}

theorem after_of_free (h : p.due? = none) : p.after piece region = p.paint piece region := by
  rw [after, h]
  rfl

/-- What the region recognises here is a move. -/
theorem move_of_inside? (free : p.due? = none) (stays : p.region.closing? p.rest = none)
    {next : Piece × Region} (h : p.region.inside? rules p.previous p.rest = some next) :
    Move rules p next.1 next.2 := by
  have hopening {tier : Tier} {into : Enclosure → Region}
      (henters : ∀ e, p.region.Enters tier e (into e))
      (hnext : Region.opening? rules p.rest tier into = some next) :
      Move rules p next.1 next.2 := by
    obtain ⟨e, he, rfl⟩ := Option.map_eq_some_iff.1 hnext
    exact .opening free stays (henters e) he
  have hword (hnext : p.region.word? p.previous p.rest (p.region.wordColor? rules) = some next) :
      Move rules p next.1 next.2 := by
    obtain ⟨w, hw, hcolored⟩ := Option.bind_eq_some_iff.1 hnext
    obtain ⟨color, hcolor, rfl⟩ := Option.map_eq_some_iff.1 hcolored
    exact .word free stays hw hcolor
  cases hregion : p.region with
  | strong e within =>
    rw [hregion] at h
    cases h
  | doc e =>
    rw [hregion] at h hword
    exact hword h
  | weak outer =>
    rw [hregion] at h hopening
    exact hopening (.inner outer) h
  | outside =>
    rw [hregion] at h hopening hword
    rcases Option.or_eq_some_iff.1 h with h | ⟨-, h⟩
    · exact hopening .doc h
    · rcases Option.or_eq_some_iff.1 h with h | ⟨-, h⟩
      · exact hopening .strong h
      · rcases Option.or_eq_some_iff.1 h with h | ⟨-, h⟩
        · exact hopening .weak h
        · exact hword h

/-- What is chosen is a move. -/
theorem move_choose (free : p.due? = none) {c : Char} {r : Text} (hr : p.rest = c :: r) :
    Move rules p (p.region.choose rules p.previous c r).1
      (p.region.choose rules p.previous c r).2 := by
  unfold Region.choose
  rw [← hr]
  cases hclosing : p.region.closing? p.rest with
  | some e => exact .closing free hclosing
  | none =>
    dsimp only
    cases hinside : p.region.inside? rules p.previous p.rest with
    | some next => exact move_of_inside? free hclosing hinside
    | none => exact .char free hclosing hr

theorem stepInside_eq (rules : RuleSet) (p : Painter) :
    p.stepInside rules = ((p.region.inside? rules p.previous p.rest).map fun next =>
      p.paint next.1 next.2).getD p.copy := by
  have hopen (tier : Tier) (into : Enclosure → Region) : p.tryOpen? rules tier into =
      (Region.opening? rules p.rest tier into).map fun next => p.paint next.1 next.2 := by
    rw [tryOpen?, Region.opening?, Option.map_map]
    rfl
  have hword (color? : Text → Option Text) : p.tryWord? color? =
      (p.region.word? p.previous p.rest color?).map fun next => p.paint next.1 next.2 := by
    rw [tryWord?, Region.word?, Option.map_bind]
    congr 1
    funext w
    rw [Function.comp_apply, Option.map_map]
    rfl
  unfold stepInside
  cases hregion : p.region with
  | strong e within => rfl
  | doc e =>
    rw [hregion] at hword
    dsimp only
    rw [hword]
    rfl
  | weak outer =>
    dsimp only
    rw [hopen]
    rfl
  | outside =>
    rw [hregion] at hword
    dsimp only
    rw [hopen, hopen, hopen, hword, Region.inside?]
    simp only [Option.map_or, Option.orElse_eq_orElse, Option.orElse_eq_or]

/-- A step paints the match that is due. -/
theorem step_of_due (rules : RuleSet) {m : EntryMatch} (due : p.due? = some m) :
    p.step rules = p.paintEntry m := by
  rw [step, due]

/-- Unless a match is due, a step paints what is chosen. -/
theorem step_eq_paint (free : p.due? = none) {c : Char} {r : Text} (hr : p.rest = c :: r) :
    p.step rules = p.paint (p.region.choose rules p.previous c r).1
      (p.region.choose rules p.previous c r).2 := by
  have hcopy : p.copy = p.paint (.char c) p.region := by rw [copy, hr]
  unfold step Region.choose
  rw [free, stepInside_eq, hcopy, ← hr]
  dsimp only
  cases p.region.closing? p.rest with
  | some e => rfl
  | none =>
    dsimp only
    cases p.region.inside? rules p.previous p.rest <;> rfl

/-- Every step is a move. -/
theorem exists_move (rules : RuleSet) (h : p.rest ≠ []) :
    ∃ piece region, Move rules p piece region ∧ p.step rules = p.after piece region := by
  obtain ⟨c, r, hr⟩ := List.exists_cons_of_ne_nil h
  cases due : p.due? with
  | some m =>
    refine ⟨_, _, .entry due, ?_⟩
    simp [step, paintEntry, after, due]
  | none =>
    refine ⟨_, _, move_choose due hr, ?_⟩
    rw [step_eq_paint due hr, after_of_free due]

/-! ## Pieces and the text -/

/-- What has been painted of the text. -/
def source (p : Painter) : Text := p.pieces.flatMap Piece.source

@[simp] theorem pieces_after (p : Painter) (piece : Piece) (region : Region) :
    (p.after piece region).pieces = p.pieces ++ [piece] := by
  simp [after, paint, pieces]

@[simp] theorem source_after (p : Painter) (piece : Piece) (region : Region) :
    (p.after piece region).source = p.source ++ piece.source := by
  simp [source]

@[simp] theorem region_after (p : Painter) (piece : Piece) (region : Region) :
    (p.after piece region).region = region := rfl

@[simp] theorem pos_after (p : Painter) (piece : Piece) (region : Region) :
    (p.after piece region).pos = p.pos + piece.source.size := rfl

@[simp] theorem rest_after (p : Painter) (piece : Piece) (region : Region) :
    (p.after piece region).rest = p.rest.drop piece.source.length := rfl

@[simp] theorem previous_after (p : Painter) (piece : Piece) (region : Region) :
    (p.after piece region).previous = piece.source.getLast?.or p.previous := rfl

/-- The painter fits the text and the rules. -/
structure Tracks (rules : RuleSet) (entries : List EntryRule) (text : Text) (p : Painter) :
    Prop where
  text_eq : p.source ++ p.rest = text
  pos_eq : p.pos = p.source.size
  previous_eq : p.previous = p.source.getLast?
  region_declared : p.region.Declared rules
  pending_stand : ∀ m ∈ p.pending, m.StandsIn entries text

variable {entries : List EntryRule} {text : Text}

theorem tracks_start (rules : RuleSet) {matches' : List EntryMatch}
    (h : ∀ m ∈ matches', m.StandsIn entries text) :
    (start text matches').Tracks rules entries text :=
  ⟨rfl, rfl, rfl, trivial, h⟩

theorem Tracks.dropBytes? (h : p.Tracks rules entries text) :
    text.dropBytes? p.pos = some p.rest := by
  rw [← h.text_eq, h.pos_eq]
  exact Text.dropBytes?_size_append _ _

theorem due?_eq_some {m : EntryMatch} (h : p.due? = some m) : m ∈ p.pending ∧ m.start = p.pos := by
  obtain ⟨hhead, hstart⟩ := Option.filter_eq_some_iff.1 h
  exact ⟨List.mem_of_head? hhead, by simpa using hstart⟩

/-- The word and the marker of a match that is due stand at the front of the rest. -/
theorem Tracks.rest_of_due (h : p.Tracks rules entries text) {m : EntryMatch}
    (due : p.due? = some m) :
    ∃ word after : Text, p.rest = word ++ m.rule.token ++ after ∧
      p.rest.take (m.wordEnd - m.start) = word ∧ word ≠ [] ∧
      (∀ c ∈ word, EntryMatch.isWordChar c = true) ∧ m.wordEnd = m.start + word.size ∧
      m.rule ∈ entries := by
  obtain ⟨hmem, hstart⟩ := due?_eq_some due
  obtain ⟨hrule, -, before, word, after, htext, hbefore, hend, hne, hchars, -⟩ :=
    h.pending_stand m hmem
  have hsize : p.source.size = before.size := by rw [← h.pos_eq, ← hstart, hbefore]
  have hrest : p.rest = word ++ m.rule.token ++ after := by
    refine (Text.append_inj_of_size (a := p.source) (b := before) ?_ hsize).2
    rw [h.text_eq, htext]
    simp
  have hlength : m.wordEnd - m.start = word.length := by
    have := Text.size_eq_length EntryMatch.isAscii_isWordChar hchars
    omega
  refine ⟨word, after, hrest, ?_, hne, hchars, hend, hrule⟩
  rw [hlength, hrest, List.append_assoc, List.take_left]

theorem Move.source_isPrefix (move : Move rules p piece region) (h : p.Tracks rules entries text) :
    piece.source <+: p.rest := by
  cases move with
  | entry due =>
    obtain ⟨word, after, hrest, htake, -⟩ := h.rest_of_due due
    rw [htake, Piece.source]
    exact ⟨after, hrest.symm⟩
  | closing free closes => exact (Region.closing?_eq_some_iff.1 closes).2
  | opening free stays enters opens => exact (EnclosureSet.openAt?_eq_some opens).2
  | word free stays hword colored => exact Word.isPrefix_of_at? hword
  | char free stays hrest =>
    rw [hrest]
    exact ⟨_, rfl⟩

theorem Move.source_ne_nil (move : Move rules p piece region) (h : p.Tracks rules entries text)
    (hrules : rules.WellFormed) : piece.source ≠ [] := by
  cases move with
  | entry due =>
    obtain ⟨word, after, -, htake, hne, -⟩ := h.rest_of_due due
    rw [htake, Piece.source]
    exact List.append_ne_nil_of_left_ne_nil hne _
  | closing free closes =>
    obtain ⟨hactive, -⟩ := Region.closing?_eq_some_iff.1 closes
    obtain ⟨tier, -, he⟩ := h.region_declared.enters_parent hactive
    exact hrules.right_ne_nil he
  | opening free stays enters opens =>
    exact hrules.left_ne_nil (EnclosureSet.openAt?_eq_some opens).1
  | word free stays hword colored => exact Word.ne_nil_of_at? hword
  | char free stays hrest => exact List.cons_ne_nil _ _

theorem Move.declared (move : Move rules p piece region) (h : p.region.Declared rules) :
    region.Declared rules := by
  cases move with
  | entry due => exact h
  | closing free closes => exact h.parent
  | opening free stays enters opens =>
    exact h.enters enters (EnclosureSet.openAt?_eq_some opens).1
  | word free stays hword colored => exact h
  | char free stays hrest => exact h

theorem Tracks.after (h : p.Tracks rules entries text) (move : Move rules p piece region) :
    (p.after piece region).Tracks rules entries text := by
  obtain ⟨after, hafter⟩ := move.source_isPrefix h
  refine ⟨?_, ?_, ?_, move.declared h.region_declared, ?_⟩
  · rw [source_after, rest_after, ← h.text_eq, ← hafter, List.drop_left, List.append_assoc]
  · rw [pos_after, source_after, Text.size_append, h.pos_eq]
  · rw [previous_after, source_after, h.previous_eq, List.getLast?_append]
  · intro m hm
    unfold Painter.after at hm
    dsimp only at hm
    split at hm
    · exact h.pending_stand m (List.mem_of_mem_tail hm)
    · exact h.pending_stand m hm

theorem Tracks.step (h : p.Tracks rules entries text) (hrest : p.rest ≠ []) :
    (p.step rules).Tracks rules entries text := by
  obtain ⟨piece, region, move, hstep⟩ := exists_move rules hrest
  rw [hstep]
  exact h.after move

/-! ## The whole run -/

/-- The steps of the painter as a loop. -/
def loop (rules : RuleSet) : Loop Painter := ⟨Painter.step rules, fun p => p.rest.isEmpty⟩

theorem steps_eq_run (rules : RuleSet) (fuel : Nat) (p : Painter) :
    p.steps rules fuel = (loop rules).run fuel p := by
  induction fuel generalizing p with
  | zero => rfl
  | succ fuel ih =>
    rw [steps, Loop.run, ih]
    rfl

theorem rest_ne_nil_of_done (h : (loop rules).done p = false) : p.rest ≠ [] := by
  intro hnil
  simp [loop, hnil] at h

theorem length_rest_step (h : p.Tracks rules entries text) (hrules : rules.WellFormed)
    (hrest : p.rest ≠ []) : (p.step rules).rest.length < p.rest.length := by
  obtain ⟨piece, region, move, hstep⟩ := exists_move rules hrest
  have hpiece := List.length_pos_iff.2 (move.source_ne_nil h hrules)
  have := List.length_pos_iff.2 hrest
  rw [hstep, rest_after, List.length_drop]
  omega

theorem descends (hrules : rules.WellFormed) (entries : List EntryRule) (text : Text) :
    (loop rules).Descends (Tracks rules entries text) fun p => p.rest.length := by
  constructor
  · intro p hdone hp
    exact hp.step (rest_ne_nil_of_done hdone)
  · intro p hdone hp
    exact length_rest_step hp hrules (rest_ne_nil_of_done hdone)

/-- What every move keeps holds at the end of a painting. -/
theorem finish_invariant {I : Painter → Prop} (h : p.Tracks rules entries text) (hp : I p)
    (hmove : ∀ q piece region, q.Tracks rules entries text → Move rules q piece region → I q →
      I (q.after piece region)) : I (p.finish rules) := by
  rw [finish, steps_eq_run]
  refine (Loop.run_invariant (I := fun q => q.Tracks rules entries text ∧ I q) ?_ _ ⟨h, hp⟩).2
  rintro q hdone ⟨hq, hI⟩
  have hne := rest_ne_nil_of_done hdone
  obtain ⟨piece, region, move, hstep⟩ := exists_move rules hne
  change (q.step rules).Tracks rules entries text ∧ I (q.step rules)
  rw [hstep]
  exact ⟨hq.after move, hmove q piece region hq move hI⟩

theorem tracks_finish (h : p.Tracks rules entries text) :
    (p.finish rules).Tracks rules entries text :=
  finish_invariant h h fun _ _ _ hq move _ => hq.after move

/-- The painter comes to the end of the text. -/
theorem rest_finish (h : p.Tracks rules entries text) (hrules : rules.WellFormed) :
    (p.finish rules).rest = [] := by
  have hdone := Loop.done_run (descends hrules entries text) h (Nat.le_refl p.rest.length)
  rw [finish, steps_eq_run]
  exact List.isEmpty_iff.1 hdone

/-- The pieces of a whole painting are read from the text, all of it. -/
theorem source_finish (h : p.Tracks rules entries text) (hrules : rules.WellFormed) :
    (p.finish rules).source = text := by
  rw [← (tracks_finish h).text_eq, rest_finish h hrules, List.append_nil]

/-! ## The places where steps are taken -/

/-- The states from which a painting takes its steps, in order. -/
def iterations (rules : RuleSet) (p : Painter) : List Painter :=
  (loop rules).visited p.rest.length p

theorem tracks_of_mem_iterations (h : p.Tracks rules entries text) (hrules : rules.WellFormed)
    {q : Painter} (hq : q ∈ p.iterations rules) :
    q.Tracks rules entries text ∧ q.rest ≠ [] := by
  obtain ⟨htracks, hdone⟩ := Loop.visited_invariant (descends hrules entries text).keeps h hq
  exact ⟨htracks, rest_ne_nil_of_done hdone⟩

/-- A step reads a slice of the text, and not an empty one. -/
theorem Tracks.isSlice_step (h : p.Tracks rules entries text) (hrules : rules.WellFormed)
    (hrest : p.rest ≠ []) :
    ∃ piece region, Move rules p piece region ∧ p.step rules = p.after piece region ∧
      text.IsSlice p.pos (p.step rules).pos piece.source ∧ piece.source ≠ [] := by
  obtain ⟨piece, region, move, hstep⟩ := exists_move rules hrest
  refine ⟨piece, region, move, hstep, ?_, move.source_ne_nil h hrules⟩
  rw [hstep, pos_after]
  exact Text.IsSlice.of_dropBytes? h.dropBytes? (move.source_isPrefix h)

end Painter

/-- A painting whose matches stem from a scan fits the text from the start. -/
theorem RuleSet.tracks_start_scan (rules : RuleSet) (entries : List EntryRule) (text : Text) :
    (Painter.start text (EntryMatch.scan entries text)).Tracks rules entries text :=
  Painter.tracks_start rules fun _ hm => EntryMatch.standsIn_of_mem_scan hm

end Tint
