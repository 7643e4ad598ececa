import Tint.Proofs.Paint.Firing
import Tint.Proofs.Paint.MatchesByLine
set_option autoImplicit false

/-!
# Painting a text in two parts

A text is cut behind a line feed, at a place that the painter comes to outside of all enclosures
and with no match left that starts before it.  Then its HTML is that of the two parts
(`RuleSet.render_append`).  Three runs are compared in two ways.

* Up to the cut the run over the whole text is the run over the first part with more text and more
  matches behind it (`Painter.inFrontOf`).  What is recognised in front of more text may reach
  behind the cut, but then the painter would not come to it; so it is recognised without that text
  (`Region.Local`).
* Behind the cut it is the run over the second part, further back in the text
  (`Painter.behind`).  Of what comes before it the painter sees one character, a line feed, and no
  word goes on behind that.
-/

namespace Tint

open EntryMatch

/-! ## What is recognised in front of more text -/

namespace Region

/-- What is recognised at the front of `rest` is not changed by text behind it, unless that text is
part of what is recognised. -/
structure Local (f : Text → Option (Piece × Region)) (rest b : Text) : Prop where
  eq_none : f (rest ++ b) = none → f rest = none
  eq_some : ∀ {next}, f (rest ++ b) = some next → next.1.source.size ≤ rest.size →
    f rest = some next

variable {f g : Text → Option (Piece × Region)} {rest b : Text}

theorem Local.or (hf : Local f rest b) (hg : Local g rest b) :
    Local (fun t => (f t).or (g t)) rest b := by
  refine ⟨?_, ?_⟩
  · intro h
    obtain ⟨hfnone, hgnone⟩ := Option.or_eq_none_iff.1 h
    rw [hf.eq_none hfnone, hg.eq_none hgnone, Option.or_none]
  · intro next h hfits
    rcases Option.or_eq_some_iff.1 h with h | ⟨hnone, h⟩
    · rw [hf.eq_some h hfits, Option.some_or]
    · rw [hf.eq_none hnone, hg.eq_some h hfits, Option.none_or]

/-- What stands in front of more text and is no longer than the text stands in the text. -/
theorem isPrefix_of_append {s : Text} (h : s <+: rest ++ b) (hfits : s.size ≤ rest.size) :
    s <+: rest :=
  Text.isPrefix_of_size_le h (List.prefix_append rest b) hfits

theorem local_opening? (rules : RuleSet) (tier : Tier) (into : Enclosure → Region)
    (rest b : Text) : Local (fun t => opening? rules t tier into) rest b := by
  have hlonger {e : Enclosure} (h : e.left <+: rest) : e.left <+: rest ++ b :=
    h.trans (List.prefix_append rest b)
  refine ⟨?_, ?_⟩
  · intro h
    rw [opening?, Option.map_eq_none_iff, EnclosureSet.openAt?_eq_find?,
      List.find?_eq_none] at h ⊢
    intro e he hleft
    exact h e he (Text.startsWith_iff.2 (hlonger (Text.startsWith_iff.1 hleft)))
  · intro next h hfits
    obtain ⟨e, he, rfl⟩ := Option.map_eq_some_iff.1 h
    rw [EnclosureSet.openAt?_eq_find?, List.find?_eq_some_iff_append, Text.startsWith_iff] at he
    obtain ⟨hleft, earlier, later, hrules, hearlier⟩ := he
    have hfirst : (rules.enclosures tier).openAt? rest = some e := by
      rw [EnclosureSet.openAt?_eq_find?, List.find?_eq_some_iff_append, Text.startsWith_iff]
      refine ⟨isPrefix_of_append hleft hfits, earlier, later, hrules, ?_⟩
      intro d hd
      have hnot := hearlier d hd
      rw [Bool.not_eq_true', Bool.eq_false_iff, ne_eq, Text.startsWith_iff] at hnot ⊢
      exact fun hd => hnot (hlonger hd)
    rw [opening?, hfirst]
    rfl

theorem local_closing? (region : Region) (rest b : Text) :
    Local (fun t => (region.closing? t).map fun e => (.closing e, region.parent)) rest b := by
  refine ⟨?_, ?_⟩
  · intro h
    rw [Option.map_eq_none_iff] at h ⊢
    rw [Option.eq_none_iff_forall_ne_some] at h ⊢
    intro e he
    obtain ⟨hactive, hright⟩ := closing?_eq_some_iff.1 he
    exact h e (closing?_eq_some_iff.2 ⟨hactive, hright.trans (List.prefix_append rest b)⟩)
  · intro next h hfits
    obtain ⟨e, he, rfl⟩ := Option.map_eq_some_iff.1 h
    obtain ⟨hactive, hright⟩ := closing?_eq_some_iff.1 he
    rw [closing?_eq_some_iff.2 ⟨hactive, isPrefix_of_append hright hfits⟩]
    rfl

/-- A word ends before a line feed. -/
theorem at?_append_of_mem {previous : Option Char} (hrest : '\n' ∈ rest) :
    Word.at? previous (rest ++ b) = Word.at? previous rest := by
  obtain ⟨line, tail, rfl⟩ := List.append_of_mem hrest
  have hword (r : Text) :
      (line ++ '\n' :: r).takeWhile Word.isPart = line.takeWhile Word.isPart := by
    induction line with
    | nil => rfl
    | cons c line ih =>
      rw [List.cons_append, List.takeWhile_cons, List.takeWhile_cons, ih List.mem_append_cons_self]
  have hhead : (line ++ '\n' :: tail ++ b).head? = (line ++ '\n' :: tail).head? := by
    cases line <;> rfl
  rw [Word.at?, Word.at?, hhead, List.append_assoc, List.cons_append, hword, hword]

theorem local_word? (region : Region) (previous : Option Char) (color? : Text → Option Text)
    (hrest : '\n' ∈ rest) : Local (fun t => word? region previous t color?) rest b := by
  have heq : word? region previous (rest ++ b) color? = word? region previous rest color? := by
    rw [word?, word?, at?_append_of_mem hrest]
  exact ⟨fun h => heq ▸ h, fun h _ => heq ▸ h⟩

theorem local_inside? (rules : RuleSet) (region : Region) (previous : Option Char)
    (hrest : '\n' ∈ rest) : Local (fun t => region.inside? rules previous t) rest b := by
  cases region with
  | strong e within => exact ⟨fun _ => rfl, fun h => nomatch h⟩
  | doc e => exact local_word? (.doc e) previous rules.docToken? hrest
  | weak outer => exact local_opening? rules .strong (.strong · (some outer)) rest b
  | outside =>
    exact (local_opening? rules .doc .doc rest b).or <|
      (local_opening? rules .strong (.strong · none) rest b).or <|
      (local_opening? rules .weak .weak rest b).or <|
      local_word? .outside previous rules.keyword? hrest

theorem choose_eq_getD (rules : RuleSet) (region : Region) (previous : Option Char) (c : Char)
    (r : Text) : region.choose rules previous c r =
      (((region.closing? (c :: r)).map fun e => (.closing e, region.parent)).or
        (region.inside? rules previous (c :: r))).getD (.char c, region) := by
  unfold choose
  cases region.closing? (c :: r) <;> rfl

/-- The choice in front of a text that holds a line feed is the same in front of more text, unless
it reaches behind the text. -/
theorem choose_append (rules : RuleSet) (region : Region) (previous : Option Char) {c : Char}
    {r : Text} (hrest : '\n' ∈ c :: r)
    (hfits : (region.choose rules previous c (r ++ b)).1.source.size ≤ Text.size (c :: r)) :
    region.choose rules previous c (r ++ b) = region.choose rules previous c r := by
  have hlocal := (local_closing? region (c :: r) b).or
    (local_inside? rules region previous (b := b) hrest)
  rw [choose_eq_getD, ← List.cons_append] at hfits ⊢
  rw [choose_eq_getD]
  cases hnext : ((region.closing? (c :: r ++ b)).map fun e => (Piece.closing e, region.parent)).or
      (region.inside? rules previous (c :: r ++ b)) with
  | none =>
    have hnone : (_ : Option (Piece × Region)).or _ = none := hlocal.eq_none hnext
    rw [hnone]
  | some next =>
    rw [hnext] at hfits
    have hsome : (_ : Option (Piece × Region)).or _ = some next := hlocal.eq_some hnext hfits
    rw [hsome]

/-- A character that is not part of a word is as good as none in front of a text. -/
theorem choose_or {c : Char} (hc : Word.isPart c = false) (rules : RuleSet) (region : Region)
    (previous : Option Char) (d : Char) (r : Text) :
    region.choose rules (previous.or (some c)) d r = region.choose rules previous d r := by
  have hat (t : Text) : Word.at? (previous.or (some c)) t = Word.at? previous t := by
    cases previous <;> simp [Word.at?, hc]
  simp only [choose, inside?, word?, hat]

end Region

namespace Painter

variable {rules : RuleSet} {entries entries' : List EntryRule} {text text' : Text} {p : Painter}

/-! ## Runs -/

theorem finish_step (h : p.Tracks rules entries text) (hrules : rules.WellFormed)
    (hrest : p.rest ≠ []) : (p.step rules).finish rules = p.finish rules := by
  have hlt := length_rest_step h hrules hrest
  have hdone : (loop rules).done p = false := by
    simpa [loop] using hrest
  obtain ⟨n, hn⟩ : ∃ n, p.rest.length = n + 1 := ⟨p.rest.length - 1, by omega⟩
  have hend : (loop rules).done ((p.step rules).finish rules) = true :=
    List.isEmpty_iff.2 (rest_finish (h.step hrest) hrules)
  rw [finish, steps_eq_run] at hend
  rw [finish, finish, steps_eq_run, steps_eq_run, hn, Loop.run_succ hdone]
  exact (Loop.run_eq_of_done hend (by omega)).symm

theorem finish_steps (h : p.Tracks rules entries text) (hrules : rules.WellFormed) (k : Nat) :
    (p.steps rules k).finish rules = p.finish rules := by
  induction k generalizing p with
  | zero => rfl
  | succ k ih =>
    rw [steps]
    split
    · rfl
    · rename_i hrest
      rw [List.isEmpty_iff] at hrest
      rw [ih (h.step hrest), finish_step h hrules hrest]

theorem pos_le_steps (h : p.Tracks rules entries text) (hrules : rules.WellFormed) (k : Nat) :
    p.pos ≤ (p.steps rules k).pos := by
  induction k generalizing p with
  | zero => exact Nat.le_refl _
  | succ k ih =>
    rw [steps]
    split
    · exact Nat.le_refl _
    · rename_i hrest
      rw [List.isEmpty_iff] at hrest
      have hlt : p.pos < (p.step rules).pos := (h.inBounds hrules hrest).pos_lt
      exact Nat.le_trans (Nat.le_of_lt hlt) (ih (h.step hrest))

/-! ## In front of more text -/

/-- The same painter with more text and more matches to come. -/
def inFrontOf (p : Painter) (b : Text) (later : List EntryMatch) : Painter :=
  { p with
    rest := p.rest ++ b
    pending := p.pending ++ later }

variable {b : Text} {later : List EntryMatch}

theorem paint_inFrontOf {piece : Piece} (region : Region) (hfront : piece.source <+: p.rest) :
    (p.inFrontOf b later).paint piece region = (p.paint piece region).inFrontOf b later := by
  simp only [paint, inFrontOf, List.drop_append_of_le_length hfront.length_le]

theorem due?_inFrontOf (hlater : ∀ m ∈ later, p.pos < m.start) :
    (p.inFrontOf b later).due? = p.due? := by
  cases hp : p.pending with
  | cons m t => simp [due?, inFrontOf, hp]
  | nil =>
    cases later with
    | nil => simp [due?, inFrontOf, hp]
    | cons m t =>
      have hm := hlater m List.mem_cons_self
      have hne : ¬ m.start = p.pos := by omega
      simp [due?, inFrontOf, hp, hne]

/-- A step that does not reach behind the text is the same in front of more text. -/
theorem step_inFrontOf (h : p.Tracks rules entries text) (hrest : '\n' ∈ p.rest)
    (hlater : ∀ m ∈ later, p.pos < m.start)
    (hpos : ((p.inFrontOf b later).step rules).pos ≤ p.pos + p.rest.size) :
    (p.inFrontOf b later).step rules = (p.step rules).inFrontOf b later := by
  have hdue : (p.inFrontOf b later).due? = p.due? := due?_inFrontOf hlater
  cases due : p.due? with
  | some m =>
    obtain ⟨word, after, hword, htake, -, hchars, hend, -⟩ := h.rest_of_due due
    have hlength : m.wordEnd - m.start ≤ p.rest.length := by
      have := Text.size_eq_length isAscii_isWordChar hchars
      rw [hword, List.length_append, List.length_append]
      omega
    have htake' : (p.inFrontOf b later).rest.take (m.wordEnd - m.start) = word := by
      rw [inFrontOf, List.take_append_of_le_length hlength, htake]
    have hfront : (Piece.entry word m.rule).source <+: p.rest := ⟨after, hword.symm⟩
    have hpending : (p.pending ++ later).tail = p.pending.tail ++ later := by
      rw [pending_step_of_due rules due]
      rfl
    rw [step_of_due rules due, step_of_due rules (hdue.trans due), paintEntry, paintEntry, htake,
      htake', paint_inFrontOf _ hfront]
    simp only [inFrontOf, hpending]
  | none =>
    obtain ⟨c, r, hr⟩ := List.exists_cons_of_ne_nil (List.ne_nil_of_mem hrest)
    have hr' : (p.inFrontOf b later).rest = c :: (r ++ b) := by
      rw [inFrontOf, hr, List.cons_append]
    rw [step_eq_paint (hdue.trans due) hr'] at hpos ⊢
    have hchoose : p.region.choose rules p.previous c (r ++ b) =
        p.region.choose rules p.previous c r := by
      apply Region.choose_append rules p.region p.previous (hr ▸ hrest)
      rw [← hr]
      exact Nat.le_of_add_le_add_left hpos
    have move : Move rules p _ _ := move_choose due hr
    have hfront := move.source_isPrefix h
    change (p.inFrontOf b later).paint (p.region.choose rules p.previous c (r ++ b)).1
      (p.region.choose rules p.previous c (r ++ b)).2 = _
    rw [hchoose, step_eq_paint due hr, paint_inFrontOf _ hfront]

theorem Tracks.pos_add_size (h : p.Tracks rules entries text) :
    p.pos + p.rest.size = text.size := by
  rw [h.pos_eq, ← Text.size_append, h.text_eq]

theorem finish_of_pos_eq_size (h : p.Tracks rules entries text) (hpos : p.pos = text.size) :
    p.finish rules = p := by
  have hrest : p.rest = [] := by
    by_contra hne
    have := Text.size_pos hne
    have := h.pos_add_size
    omega
  rw [finish, hrest]
  rfl

/-- A run in front of more text that comes to the end of the text has painted the text. -/
theorem steps_inFrontOf {a : Text} (h : p.Tracks rules entries a)
    (h' : (p.inFrontOf b later).Tracks rules entries' text) (hrules : rules.WellFormed)
    (ha : a.getLast? = some '\n') (hlater : ∀ m ∈ later, a.size ≤ m.start) (k : Nat)
    (hpos : ((p.inFrontOf b later).steps rules k).pos = a.size) :
    (p.inFrontOf b later).steps rules k = (p.finish rules).inFrontOf b later := by
  induction k generalizing p with
  | zero =>
    rw [finish_of_pos_eq_size h hpos]
    rfl
  | succ k ih =>
    rw [steps] at hpos ⊢
    split
    · rename_i hdone
      rw [if_pos hdone] at hpos
      rw [finish_of_pos_eq_size h hpos]
    · rename_i hdone
      rw [if_neg hdone] at hpos
      rw [List.isEmpty_iff] at hdone
      have hstart : p.pos < ((p.inFrontOf b later).step rules).pos :=
        (h'.inBounds hrules hdone).pos_lt
      have hle : ((p.inFrontOf b later).step rules).pos ≤ a.size :=
        hpos ▸ pos_le_steps (h'.step hdone) hrules k
      have hsize := h.pos_add_size
      have hrest : p.rest ≠ [] := by
        intro hnil
        rw [hnil, Text.size_nil] at hsize
        omega
      have hline : '\n' ∈ p.rest := by
        rw [← h.text_eq, List.getLast?_append_of_ne_nil _ hrest] at ha
        exact List.mem_of_getLast? ha
      have hstep : (p.inFrontOf b later).step rules = (p.step rules).inFrontOf b later := by
        refine step_inFrontOf h hline (fun m hm => ?_) (hsize ▸ hle)
        have := hlater m hm
        omega
      have hnext := h'.step hdone
      rw [hstep] at hpos hnext ⊢
      rw [ih (h.step hrest) hnext hpos, finish_step h hrules hrest]

/-! ## Behind other text -/

/-- The same painter `n` bytes further back, behind a character that is not part of a word, when
the pieces `done` have been painted before. -/
def behind (p : Painter) (n : Nat) (c : Char) (done : List Piece) : Painter :=
  { p with
    pos := n + p.pos
    previous := p.previous.or (some c)
    pending := p.pending.map (shift n)
    painted := p.painted ++ done }

variable {n : Nat} {c : Char} {done : List Piece}

theorem due?_behind : (p.behind n c done).due? = p.due?.map (shift n) := by
  cases hp : p.pending with
  | nil => simp [due?, behind, hp]
  | cons m t =>
    by_cases hm : m.start = p.pos <;> simp [due?, behind, hp, hm, Option.filter_some]

theorem paint_behind (piece : Piece) (region : Region) :
    (p.behind n c done).paint piece region = (p.paint piece region).behind n c done := by
  simp only [paint, behind, Nat.add_assoc, Option.or_assoc, List.cons_append]

theorem step_behind (hc : Word.isPart c = false) (hrest : p.rest ≠ []) :
    (p.behind n c done).step rules = (p.step rules).behind n c done := by
  cases due : p.due? with
  | some m =>
    have due' : (p.behind n c done).due? = some (m.shift n) := by rw [due?_behind, due]; rfl
    have hword : (m.shift n).wordEnd - (m.shift n).start = m.wordEnd - m.start := by
      rw [shift_wordEnd, shift_start, Nat.add_sub_add_left]
    have hpending : (p.behind n c done).pending.tail = p.pending.tail.map (shift n) := by
      rw [behind, List.map_tail]
    rw [step_of_due rules due, step_of_due rules due', paintEntry, paintEntry, hpending, hword,
      shift_rule]
    simp only [behind, paint, Nat.add_assoc, Option.or_assoc, List.cons_append]
  | none =>
    have due' : (p.behind n c done).due? = none := by rw [due?_behind, due]; rfl
    obtain ⟨d, r, hr⟩ := List.exists_cons_of_ne_nil hrest
    have hr' : (p.behind n c done).rest = d :: r := hr
    rw [step_eq_paint due hr, step_eq_paint due' hr', ← paint_behind]
    simp only [behind, Region.choose_or hc]

theorem steps_behind (hc : Word.isPart c = false) (k : Nat) :
    (p.behind n c done).steps rules k = (p.steps rules k).behind n c done := by
  induction k generalizing p with
  | zero => rfl
  | succ k ih =>
    have hdone : (p.behind n c done).rest.isEmpty = p.rest.isEmpty := rfl
    rw [steps, steps, hdone]
    split
    · rfl
    · rename_i hrest
      rw [List.isEmpty_iff] at hrest
      rw [step_behind hc hrest, ih]

theorem finish_behind (hc : Word.isPart c = false) :
    (p.behind n c done).finish rules = (p.finish rules).behind n c done := steps_behind hc _

theorem painting_behind :
    (p.behind n c done).painting = done.reverse ++ p.painting := by
  simp [painting, pieces, closings, behind]

/-! ## The cut -/

/-- The run over two parts starts as the one over the first part, with the matches of the second
part to come. -/
theorem start_append (hentries : ∀ rule ∈ entries, '\n' ∉ rule.token) {a : Text}
    (ha : a.getLast? = some '\n') (b : Text) :
    start (a ++ b) (scan entries (a ++ b)) =
      (start a (scan entries a)).inFrontOf b ((scan entries b).map (shift a.size)) := by
  obtain ⟨line, rfl⟩ := List.getLast?_eq_some_iff.1 ha
  rw [List.append_assoc, List.singleton_append, scan_append_newline hentries]
  simp [start, inFrontOf]

/-- When the run over both parts has painted all matches of the first one, so does the run over the
first part. -/
theorem pending_finish_eq_nil {found : List EntryMatch} {k : Nat}
    (h : p.Tracks rules entries text) (hsorted : p.pending.Pairwise fun a b => a.stop ≤ b.start)
    (hsteps : (p.inFrontOf b later).steps rules k = (p.finish rules).inFrontOf b later)
    (hfound : fired ((loop rules).visited k (p.inFrontOf b later)) = found)
    (hpainted : ∀ m ∈ p.pending, m ∈ found) : (p.finish rules).pending = [] := by
  have hsplit := fired_append_pending rules k (p.inFrontOf b later)
  rw [hsteps, hfound] at hsplit
  change found ++ ((p.finish rules).pending ++ later) = p.pending ++ later at hsplit
  rw [← List.append_assoc, List.append_cancel_right_eq] at hsplit
  rw [List.eq_nil_iff_forall_not_mem]
  intro m hm
  have hmem : m ∈ p.pending := by
    rw [← hsplit]
    exact List.mem_append_right found hm
  rw [← hsplit, List.pairwise_append] at hsorted
  exact Nat.not_lt_of_ge (hsorted.2.2 m (hpainted m hmem) m hm)
    (h.pending_stand m hmem).start_lt_stop

/-- The run goes on behind the cut as the run over the second part. -/
theorem inFrontOf_finish_start (h : p.Tracks rules entries text) (hrules : rules.WellFormed)
    (hregion : (p.finish rules).region = .outside) (hpending : (p.finish rules).pending = [])
    (htext : text.getLast? = some '\n') (found : List EntryMatch) :
    (p.finish rules).inFrontOf b (found.map (shift text.size)) =
      (start b found).behind text.size '\n' (p.finish rules).painted := by
  have hend := tracks_finish h
  have hpos : (p.finish rules).pos = text.size := by
    rw [hend.pos_eq, source_finish h hrules]
  have hprevious : (p.finish rules).previous = some '\n' := by
    rw [hend.previous_eq, source_finish h hrules, htext]
  simp [inFrontOf, behind, start, hpos, hprevious, rest_finish h hrules, hregion, hpending]

/-- A run that has painted the first part in front of the second one paints the second part behind
the first one. -/
theorem painting_finish_inFrontOf {a : Text} {found : List EntryMatch} {k : Nat}
    (h : p.Tracks rules entries a)
    (h' : (p.inFrontOf b (found.map (shift a.size))).Tracks rules entries' text)
    (hrules : rules.WellFormed) (ha : a.getLast? = some '\n')
    (hsteps : (p.inFrontOf b (found.map (shift a.size))).steps rules k =
      (p.finish rules).inFrontOf b (found.map (shift a.size)))
    (hregion : (p.finish rules).region = .outside) (hpending : (p.finish rules).pending = []) :
    ((p.inFrontOf b (found.map (shift a.size))).finish rules).painting =
      (p.finish rules).painting ++ ((start b found).finish rules).painting := by
  -- nothing is open at the cut, so nothing is closed behind the first part
  have hpieces : (p.finish rules).painting = (p.finish rules).painted.reverse := by
    rw [painting, closings, hregion]
    exact List.append_nil _
  rw [← finish_steps h' hrules k, hsteps, inFrontOf_finish_start h hrules hregion hpending ha,
    finish_behind (by decide), painting_behind, hpieces]

end Painter

/-- A text is cut behind a line feed.  When the painter comes to the cut in no enclosure, and has
painted every match that starts before it, the HTML of the text is that of its parts. -/
theorem RuleSet.render_append {file : Text} {contents : RuleFile.Contents}
    (h : RuleFile.read file = .ok contents)
    (hentries : ∀ rule ∈ contents.rules.entries, '\n' ∉ rule.token)
    {a b : Text} (ha : a.getLast? = some '\n') (k : Nat) :
    let rules := contents.rules
    let found := scan rules.entries (a ++ b)
    let start := Painter.start (a ++ b) found
    let reached := start.steps rules k
    reached.pos = a.size → reached.region = .outside →
      (∀ m ∈ found, m.start < a.size → m ∈ Painter.fired ((Painter.loop rules).visited k start)) →
      rules.render (a ++ b) = rules.render a ++ rules.render b := by
  intro rules found start reached hpos hregion hpainted
  have hrules : rules.WellFormed := RuleFile.wellFormed_of_read h
  have htracks : start.Tracks rules rules.entries (a ++ b) :=
    rules.tracks_start_scan rules.entries (a ++ b)
  have hfirst := rules.tracks_start_scan rules.entries a
  -- the runs over the parts
  let first := Painter.start a (scan rules.entries a)
  let second := Painter.start b (scan rules.entries b)
  let later := (scan rules.entries b).map (shift a.size)
  have hstart : start = first.inFrontOf b later := Painter.start_append hentries ha b
  have hreached : (first.inFrontOf b later).steps rules k =
      (first.finish rules).inFrontOf b later := by
    have hlater : ∀ m ∈ later, a.size ≤ m.start := by
      intro m hm
      obtain ⟨m, -, rfl⟩ := List.mem_map.1 hm
      exact Nat.le_add_right _ _
    exact Painter.steps_inFrontOf hfirst (hstart ▸ htracks) hrules ha hlater k (hstart ▸ hpos)
  have hregion' : (first.finish rules).region = .outside := by
    rw [← hregion]
    change (first.finish rules).region = (start.steps rules k).region
    rw [hstart, hreached]
    rfl
  have hpending : (first.finish rules).pending = [] := by
    refine Painter.pending_finish_eq_nil hfirst (pairwise_scan rules.entries a) hreached rfl ?_
    intro m hm
    have hmem : m ∈ start.pending := by
      rw [hstart]
      exact List.mem_append_left later hm
    have hstand : m.StandsIn rules.entries a := standsIn_of_mem_scan hm
    exact hstart ▸ hpainted m hmem (Nat.lt_of_lt_of_le hstand.start_lt_stop hstand.stop_le)
  have hpainting : (start.finish rules).painting =
      (first.finish rules).painting ++ (second.finish rules).painting := by
    rw [hstart] at htracks ⊢
    exact Painter.painting_finish_inFrontOf hfirst htracks hrules ha hreached hregion' hpending
  change (start.finish rules).painting.html =
    (first.finish rules).painting.html ++ (second.finish rules).painting.html
  rw [hpainting, Painting.html, List.flatMap_append]
  rfl

/-- The cut is behind a strong enclosure that ends with the line.  It is reached in six steps, the
match before it has been painted, and there is one behind it. -/
theorem RuleSet.render_append_enclosed :
    ∃ contents, RuleFile.read
        "%highlight voice: snow-bud v1.3%\n*entry : #0f0\n*>enclose c // !newline".toList =
        .ok contents ∧
      let rules := contents.rules
      let a : Text := "a: // b\n".toList
      let b : Text := "c:".toList
      let start := Painter.start (a ++ b) (scan rules.entries (a ++ b))
      let reached := start.steps rules 6
      let colon : EntryRule := ⟨":".toList, "#0f0".toList⟩
      scan rules.entries (a ++ b) = [⟨0, 1, colon⟩, ⟨8, 9, colon⟩] ∧
      reached.pos = a.size ∧ reached.region = .outside ∧
      Painter.fired ((Painter.loop rules).visited 6 start) = [⟨0, 1, colon⟩] ∧
      rules.render (a ++ b) = rules.render a ++ rules.render b := by
  have hread : RuleFile.read
      "%highlight voice: snow-bud v1.3%\n*entry : #0f0\n*>enclose c // !newline".toList =
      .ok ⟨.ofDirectives [.entry ⟨":".toList, "#0f0".toList⟩,
        .enclosure .strong ⟨"c".toList, "//".toList, "\n".toList⟩], []⟩ := rfl
  refine ⟨_, hread, ?_⟩
  intro rules a b start reached colon
  have hfound : scan rules.entries (a ++ b) = [⟨0, 1, colon⟩, ⟨8, 9, colon⟩] := rfl
  have hpos : reached.pos = a.size := by decide +kernel
  have hregion : reached.region = .outside := by decide +kernel
  have hfired : Painter.fired ((Painter.loop rules).visited 6 start) = [⟨0, 1, colon⟩] := by
    decide +kernel
  refine ⟨hfound, hpos, hregion, hfired, ?_⟩
  refine render_append hread (by decide) (a := a) rfl 6 hpos hregion ?_
  change ∀ m ∈ scan rules.entries (a ++ b), m.start < 8 →
    m ∈ Painter.fired ((Painter.loop rules).visited 6 start)
  rw [hfound, hfired]
  decide

/-- A match of the first part that has not been painted holds up those of the second one. -/
example :
    let rules := RuleSet.ofDirectives [.entry ⟨":".toList, "#0f0".toList⟩,
      .keyword "@ab".toList "#f00".toList]
    rules.render "@ab:\nc:".toList ≠ rules.render "@ab:\n".toList ++ rules.render "c:".toList := by
  decide +kernel

end Tint
