import Tint.Proofs.Paint.Bounds
import Tint.Proofs.Paint.Kept
import Tint.Proofs.Paint.Preservation
set_option autoImplicit false

/-!
# Which entry matches are painted

The matches of a text have been found before it is painted, and the painter waits for one of them
at a time.  A match fires when a step is taken at its start.  As long as the painter has not gone
past the start of the match it waits for, it cannot miss it but in one way: a word or a delimiter
starts before it and ends behind it.  From then on nothing fires (`Handles`).

So the matches that fire are the first ones (`RuleSet.fired_eq_take`), each of them is painted as a
whole, and the next one, if there is one, starts inside a word or a delimiter.
-/

namespace Tint

open EntryMatch

namespace Piece

/-- A word with the marker behind it. -/
def isEntry : Piece → Bool
  | .entry _ _ => true
  | _ => false

/-- A keyword, a doc token or a delimiter. -/
def isWordOrDelimiter : Piece → Bool
  | .word _ _ => true
  | .opening _ _ => true
  | .closing _ => true
  | _ => false

/-- The piece is all of the match, in one span of its rule's color. -/
def IsMatch (text : Text) (m : EntryMatch) (piece : Piece) : Prop :=
  ∃ w, text.IsSlice m.start m.wordEnd w ∧ text.IsSlice m.wordEnd m.stop m.rule.token ∧
    piece = .entry w m.rule ∧ piece.html = Markup.colored m.rule.color (w ++ m.rule.token)

end Piece

/-- No range starts inside another one. -/
theorem Text.Tiles.start_ne {a z : Nat} {ranges : List (Nat × Nat)} (h : Tiles a z ranges)
    {r s : Nat × Nat} (hr : r ∈ ranges) (hs : s ∈ ranges) {x : Nat} (hlt : s.1 < x)
    (hgt : x < s.2) : r.1 ≠ x := by
  have hle {b z : Nat} {l : List (Nat × Nat)} (h : Tiles b z l) : ∀ t ∈ l, b ≤ t.1 := by
    induction h with
    | nil => simp
    | cons hab _ ih =>
      intro t ht
      rcases List.mem_cons.1 ht with rfl | ht
      · exact Nat.le_refl _
      · exact Nat.le_trans (Nat.le_of_lt hab) (ih t ht)
  induction h with
  | nil => cases hr
  | @cons a b z rest hab hrest ih =>
    have hafter := hle hrest
    rcases List.mem_cons.1 hr with rfl | hr
    · rcases List.mem_cons.1 hs with rfl | hs
      · exact Nat.ne_of_lt hlt
      · have := hafter s hs
        dsimp only
        omega
    · rcases List.mem_cons.1 hs with rfl | hs
      · have := hafter r hr
        dsimp only at hgt
        omega
      · exact ih hr hs

namespace Painter

/-- The matches that are painted from the states of a run, in order. -/
def fired (states : List Painter) : List EntryMatch := states.filterMap due?

/-- The step starts before the match and ends behind its start. -/
def Swallows (rules : RuleSet) (m : EntryMatch) (p : Painter) : Prop :=
  p.pos < m.start ∧ m.start < (p.step rules).pos

variable {rules : RuleSet} {entries : List EntryRule} {text : Text} {p : Painter}

/-! ## One step -/

theorem pending_step_of_due (rules : RuleSet) {m : EntryMatch} (due : p.due? = some m) :
    p.pending = m :: (p.step rules).pending := by
  obtain ⟨hhead, -⟩ := Option.filter_eq_some_iff.1 due
  obtain ⟨t, ht⟩ := List.head?_eq_some_iff.1 hhead
  rw [step_of_due rules due, paintEntry, ht]
  rfl

theorem pending_step_of_free (rules : RuleSet) (free : p.due? = none) (hrest : p.rest ≠ []) :
    (p.step rules).pending = p.pending := by
  obtain ⟨piece, region, -, hstep⟩ := exists_move rules hrest
  rw [hstep, after_of_free free]
  rfl

theorem region_step_of_due {m : EntryMatch} (due : p.due? = some m) :
    (p.step rules).region = p.region := by
  rw [step_of_due rules due]
  rfl

/-- A match that is due is painted as a whole. -/
theorem Tracks.isMatch_step (h : p.Tracks rules entries text) {m : EntryMatch}
    (due : p.due? = some m) :
    ∃ piece, (p.step rules).pieces = p.pieces ++ [piece] ∧ piece.IsMatch text m := by
  obtain ⟨word, -, -, htake, hne, hchars, hend, -⟩ := h.rest_of_due due
  obtain ⟨hstep, ⟨w, hw⟩, hmarker⟩ := h.isSlice_due due
  obtain ⟨-, hstart⟩ := due?_eq_some due
  have hslice : text.IsSlice m.start m.wordEnd word := by
    have hfront : word <+: p.rest := by
      rw [← htake]
      exact List.take_prefix _ _
    have hword := Text.IsSlice.of_dropBytes? h.dropBytes? hfront
    rwa [← hstart, ← hend] at hword
  refine ⟨.entry word m.rule, ?_, word, hslice, hmarker, rfl, rfl⟩
  rw [step_of_due rules due, paintEntry, htake]
  simp [paint, pieces]

/-- A step that is not due paints no entry. -/
theorem isEntry_of_free {piece : Piece} {region : Region} (move : Move rules p piece region)
    (free : p.due? = none) : piece.isEntry = false := by
  cases move with
  | entry due =>
    rw [free] at due
    cases due
  | closing => rfl
  | opening => rfl
  | word => rfl
  | char => rfl

/-- Only a word or a delimiter can start before a match and end behind its start, unless another
match is painted. -/
theorem Tracks.exists_piece_of_swallows (h : p.Tracks rules entries text)
    (hrules : rules.WellFormed) (hrest : p.rest ≠ []) (free : p.due? = none) {m : EntryMatch}
    (hm : m.StandsIn entries text) (hswallows : p.Swallows rules m) :
    ∃ piece, (p.step rules).pieces = p.pieces ++ [piece] ∧ piece.isWordOrDelimiter = true ∧
      text.IsSlice p.pos (p.step rules).pos piece.source := by
  obtain ⟨piece, region, move, hstep, hslice, -⟩ := h.isSlice_step hrules hrest
  have hpieces : (p.step rules).pieces = p.pieces ++ [piece] := by rw [hstep, pieces_after]
  obtain ⟨hlt, hgt⟩ := hswallows
  refine ⟨piece, hpieces, ?_, hslice⟩
  cases move with
  | entry due =>
    rw [free] at due
    cases due
  | closing => rfl
  | opening => rfl
  | word => rfl
  | @char c r _ _ hr =>
    -- the match starts at a boundary, and there is none inside a character
    obtain ⟨-, -, before, word, after, htext, hstart, -⟩ := hm
    have hcut : p.source ++ c :: r = before ++ (word ++ m.rule.token ++ after) := by
      rw [← hr, h.text_eq, htext]
      simp
    rw [hstart, h.pos_eq] at hlt
    have hle := Text.size_add_le_of_append_eq hcut hlt
    have hpos : (p.step rules).pos = p.source.size + c.utf8Size := by
      rw [hstep, pos_after, h.pos_eq, Piece.source, Text.size_cons, Text.size_nil, Nat.add_zero]
    omega

/-! ## A whole run -/

/-- Those that fire are the first of the pending ones, the others stay pending. -/
theorem fired_append_pending (rules : RuleSet) (fuel : Nat) (p : Painter) :
    fired ((loop rules).visited fuel p) ++ (p.steps rules fuel).pending = p.pending := by
  rw [steps_eq_run]
  induction fuel generalizing p with
  | zero => rfl
  | succ fuel ih =>
    cases hdone : (loop rules).done p with
    | true =>
      rw [Loop.visited_of_done hdone, Loop.run_of_done hdone]
      rfl
    | false =>
      have hih : fired ((loop rules).visited fuel (p.step rules)) ++
          ((loop rules).run fuel (p.step rules)).pending = (p.step rules).pending := ih _
      rw [Loop.visited_succ hdone, Loop.run_succ hdone]
      cases due : p.due? with
      | some m =>
        rw [pending_step_of_due rules due, ← hih, fired, List.filterMap_cons_some due]
        rfl
      | none =>
        rw [← pending_step_of_free rules due (rest_ne_nil_of_done hdone), ← hih, fired,
          List.filterMap_cons_none due]
        rfl

theorem exists_fired_eq_take (rules : RuleSet) (p : Painter) : ∃ k ≤ p.pending.length,
    fired (p.iterations rules) = p.pending.take k ∧
      (p.finish rules).pending = p.pending.drop k := by
  have hsplit : fired (p.iterations rules) ++ (p.finish rules).pending = p.pending :=
    fired_append_pending rules p.rest.length p
  refine ⟨(fired (p.iterations rules)).length, ?_, ?_, ?_⟩
  · rw [← hsplit, List.length_append]
    omega
  · rw [← hsplit, List.take_left]
  · rw [← hsplit, List.drop_left]

/-- What a run does with the matches that are pending at its start.  Once the next one has been
passed nothing fires; and what stays pending starts inside what a step reads, unless it had been
passed before. -/
structure Handles (rules : RuleSet) (p : Painter) (states : List Painter) (q : Painter) : Prop where
  pending_of_passed : ∀ m t, p.pending = m :: t → m.start < p.pos → q.pending = p.pending
  swallowed : (p.pending.Pairwise fun a b => a.stop ≤ b.start) →
    (∀ m ∈ p.pending, p.pos ≤ m.start) → ∀ m, q.pending.head? = some m →
      ∃ s ∈ states, s.Swallows rules m

theorem Handles.of_due (h : p.Tracks rules entries text) {states : List Painter} {q : Painter}
    (hq : Handles rules (p.step rules) states q) {m : EntryMatch} (due : p.due? = some m) :
    Handles rules p (p :: states) q := by
  have hpending := pending_step_of_due rules due
  obtain ⟨-, hstart⟩ := due?_eq_some due
  obtain ⟨hstop, -⟩ := h.isSlice_due due
  refine ⟨?_, ?_⟩
  · intro a t ha hpassed
    rw [hpending, List.cons.injEq] at ha
    rw [← ha.1, hstart] at hpassed
    exact absurd hpassed (Nat.lt_irrefl _)
  · intro hsorted _ a ha
    rw [hpending] at hsorted
    obtain ⟨hm, hsorted⟩ := List.pairwise_cons.1 hsorted
    rw [← hstop] at hm
    obtain ⟨s, hs, hswallows⟩ := hq.swallowed hsorted hm a ha
    exact ⟨s, List.mem_cons_of_mem p hs, hswallows⟩

theorem Handles.of_free (h : p.Tracks rules entries text) (hrules : rules.WellFormed)
    (hrest : p.rest ≠ []) {states : List Painter} {q : Painter}
    (hq : Handles rules (p.step rules) states q) (free : p.due? = none) :
    Handles rules p (p :: states) q := by
  have hpending := pending_step_of_free rules free hrest
  have hpos : p.pos < (p.step rules).pos := (h.inBounds hrules hrest).pos_lt
  refine ⟨?_, ?_⟩
  · intro m t hm hpassed
    rw [← hpending]
    exact hq.pending_of_passed m t (hpending.trans hm) (Nat.lt_trans hpassed hpos)
  · intro hsorted hahead a ha
    have hlater : (∀ m ∈ (p.step rules).pending, (p.step rules).pos ≤ m.start) →
        ∃ s ∈ p :: states, s.Swallows rules a := by
      intro hahead'
      rw [← hpending] at hsorted
      obtain ⟨s, hs, hswallows⟩ := hq.swallowed hsorted hahead' a ha
      exact ⟨s, List.mem_cons_of_mem p hs, hswallows⟩
    cases hm : p.pending with
    | nil =>
      apply hlater
      rw [hpending, hm]
      simp
    | cons m t =>
      rw [hm] at hsorted hahead
      have hne : m.start ≠ p.pos := by
        intro heq
        simp [due?, hm, heq] at free
      have hle := hahead m List.mem_cons_self
      rcases Nat.lt_or_ge m.start (p.step rules).pos with hlt | hge
      · -- the step goes past the start of `m`, so `m` stays the next one to the end
        rw [hq.pending_of_passed m t (hpending.trans hm) hlt, hpending, hm, List.head?_cons,
          Option.some.injEq] at ha
        subst ha
        exact ⟨p, List.mem_cons_self, by omega, hlt⟩
      · apply hlater
        rw [hpending, hm]
        intro b hb
        rcases List.mem_cons.1 hb with rfl | hb
        · exact hge
        · have hstand := h.pending_stand m (by rw [hm]; exact List.mem_cons_self)
          have := List.rel_of_pairwise_cons hsorted hb
          have := hstand.start_lt_stop
          omega

theorem handles_finish (h : p.Tracks rules entries text) (hrules : rules.WellFormed) :
    Handles rules p (p.iterations rules) (p.finish rules) := by
  rw [finish, steps_eq_run]
  refine Loop.run_induction (descends hrules entries text) (Q := Handles rules) ?_ ?_ h
    (Nat.le_refl _)
  · intro p hdone hp
    refine ⟨fun _ _ _ _ => rfl, ?_⟩
    intro _ hahead m hm
    have hnil : p.rest = [] := List.isEmpty_iff.1 hdone
    have hmem := List.mem_of_head? hm
    have hstand := hp.pending_stand m hmem
    have hle := hahead m hmem
    obtain ⟨-, -, before, word, after, htext, hstart, -, hne, -⟩ := hstand
    have hsize : text.size = p.pos := by rw [hp.pos_eq, ← hp.text_eq, hnil, List.append_nil]
    have := Text.size_pos hne
    simp only [htext, Text.size_append] at hsize
    omega
  · intro p states q hdone hp hq
    have hrest := rest_ne_nil_of_done hdone
    cases due : p.due? with
    | some m => exact .of_due hp hq due
    | none => exact .of_free hp hrules hrest hq due

/-- The entries among the pieces that a run adds are the matches that fire, in their order. -/
theorem exists_pieces_finish (h : p.Tracks rules entries text) (hrules : rules.WellFormed) :
    ∃ added, (p.finish rules).pieces = p.pieces ++ added ∧
      List.Forall₂ (Piece.IsMatch text) (fired (p.iterations rules))
        (added.filter Piece.isEntry) := by
  rw [finish, steps_eq_run]
  refine Loop.run_induction (descends hrules entries text) (Q := fun p states q =>
    ∃ added, q.pieces = p.pieces ++ added ∧
      List.Forall₂ (Piece.IsMatch text) (fired states) (added.filter Piece.isEntry)) ?_ ?_ h
      (Nat.le_refl _)
  · intro p _ _
    exact ⟨[], (List.append_nil _).symm, .nil⟩
  · rintro p states q hdone hp ⟨added, hadded, hmatches⟩
    have hrest := rest_ne_nil_of_done hdone
    change q.pieces = (p.step rules).pieces ++ added at hadded
    cases due : p.due? with
    | some m =>
      obtain ⟨piece, hpiece, hmatch⟩ := hp.isMatch_step due
      have hentry : piece.isEntry = true := by
        obtain ⟨w, -, -, rfl, -⟩ := hmatch
        rfl
      rw [hpiece, List.append_assoc] at hadded
      refine ⟨[piece] ++ added, hadded, ?_⟩
      rw [fired, List.filterMap_cons_some due, List.singleton_append,
        List.filter_cons_of_pos hentry]
      exact .cons hmatch hmatches
    | none =>
      obtain ⟨piece, region, move, hstep⟩ := exists_move rules hrest
      have hentry := isEntry_of_free move due
      rw [hstep, pieces_after, List.append_assoc] at hadded
      refine ⟨[piece] ++ added, hadded, ?_⟩
      rw [fired, List.filterMap_cons_none due, List.singleton_append,
        List.filter_cons_of_neg (by simp [hentry])]
      exact hmatches

theorem filter_isEntry_closings (p : Painter) : p.closings.filter Piece.isEntry = [] := by
  rw [closings, List.filter_eq_nil_iff]
  intro piece hpiece
  obtain ⟨e, -, rfl⟩ := List.mem_map.1 hpiece
  simp [Piece.isEntry]

end Painter

/-- The entries of a painting are the matches that fire. -/
theorem RuleSet.forall₂_isMatch_paint {rules : RuleSet} (hrules : rules.WellFormed) (text : Text) :
    List.Forall₂ (Piece.IsMatch text)
      (Painter.fired ((Painter.start text (scan rules.entries text)).iterations rules))
      ((rules.paint text).filter Piece.isEntry) := by
  obtain ⟨added, hadded, hmatches⟩ :=
    Painter.exists_pieces_finish (rules.tracks_start_scan rules.entries text) hrules
  have hpieces : Painter.pieces (Painter.start text (scan rules.entries text)) = [] := rfl
  rw [hpieces, List.nil_append] at hadded
  rw [paint, paintWith, Painter.painting, hadded, List.filter_append,
    Painter.filter_isEntry_closings, List.append_nil]
  exact hmatches

/-- The matches of a text are painted in their order up to one of them, each as a whole and in the
region it is met in, and no other entry is.  The first one that is not painted starts strictly
inside a word or a delimiter, where no step is taken, and neither it nor a later one is due
anywhere. -/
theorem RuleSet.fired_eq_take {file : Text} {contents : RuleFile.Contents}
    (h : RuleFile.read file = .ok contents) (text : Text) :
    let rules := contents.rules
    let found := scan rules.entries text
    let states := (Painter.start text found).iterations rules
    ∃ k ≤ found.length,
      Painter.fired states = found.take k ∧
      List.Forall₂ (Piece.IsMatch text) (found.take k)
        ((rules.paint text).filter Piece.isEntry) ∧
      (∀ p ∈ states, ∀ m, p.due? = some m → p.pos = m.start ∧ (p.step rules).pos = m.stop ∧
        (p.step rules).region = p.region) ∧
      (∀ m ∈ found.drop k, ∀ p ∈ states, p.due? ≠ some m) ∧
      ∀ m, found[k]? = some m →
        (∃ p ∈ states, p.Swallows rules m) ∧
        ∀ p ∈ states, p.pos ≠ m.start ∧ (p.Swallows rules m → ∃ piece,
          (p.step rules).pieces = p.pieces ++ [piece] ∧ piece.isWordOrDelimiter = true ∧
            text.IsSlice p.pos (p.step rules).pos piece.source) := by
  intro rules found states
  have hrules : rules.WellFormed := RuleFile.wellFormed_of_read h
  have hstart : (Painter.start text found).Tracks rules rules.entries text :=
    rules.tracks_start_scan rules.entries text
  have hsorted : found.Pairwise fun a b => a.stop ≤ b.start := pairwise_scan rules.entries text
  have hhandles := Painter.handles_finish hstart hrules
  obtain ⟨k, hlength, htake, hdrop⟩ :=
    Painter.exists_fired_eq_take rules (Painter.start text found)
  have hends {p : Painter} (hp : p ∈ states) {m a : EntryMatch} (due : p.due? = some m)
      (ha : a ∈ found.drop k) : m.stop ≤ a.start := by
    have hm : m ∈ found.take k := htake ▸ List.mem_filterMap.2 ⟨p, hp, due⟩
    rw [← List.take_append_drop k found] at hsorted
    exact (List.pairwise_append.1 hsorted).2.2 m hm a ha
  refine ⟨k, hlength, htake, htake ▸ rules.forall₂_isMatch_paint hrules text, ?_, ?_, ?_⟩
  · intro p hp m due
    obtain ⟨htracks, -⟩ := Painter.tracks_of_mem_iterations hstart hrules hp
    exact ⟨(Painter.due?_eq_some due).2.symm, (htracks.isSlice_due due).1,
      Painter.region_step_of_due due⟩
  · intro m hm p hp due
    have hstand : m.StandsIn rules.entries text :=
      standsIn_of_mem_scan (List.mem_of_mem_drop hm)
    exact Nat.not_lt_of_ge (hends hp due hm) hstand.start_lt_stop
  · intro m hm
    have hhead : (found.drop k).head? = some m := by rw [List.head?_drop, hm]
    have hmem := List.mem_of_head? hhead
    have hstand : m.StandsIn rules.entries text :=
      standsIn_of_mem_scan (List.mem_of_mem_drop hmem)
    obtain ⟨s, hs, hswallows⟩ :=
      hhandles.swallowed hsorted (fun _ _ => Nat.zero_le _) m (hdrop ▸ hhead)
    refine ⟨⟨s, hs, hswallows⟩, ?_⟩
    intro p hp
    obtain ⟨htracks, hrest⟩ := Painter.tracks_of_mem_iterations hstart hrules hp
    refine ⟨?_, ?_⟩
    · exact (Painter.tiles_iterations hstart hrules).start_ne (List.mem_map_of_mem hp)
        (List.mem_map_of_mem hs) hswallows.1 hswallows.2
    · intro hover
      have free : p.due? = none := by
        rw [Option.eq_none_iff_forall_ne_some]
        intro a due
        have hend := (htracks.isSlice_due due).1
        have hle := hends hp due hmem
        have hlt := hover.2
        omega
      exact htracks.exists_piece_of_swallows hrules hrest free hstand hover

/-- Of three matches one is painted: the keyword `@ab` starts before the second one, and the third
one is held up. -/
theorem RuleSet.fired_eq_take_swallowed :
    ∃ contents, RuleFile.read "%highlight voice: snow-bud v1.3%\n*entry : #0f0\n@ab #f00".toList =
        .ok contents ∧
      let rules := contents.rules
      let text : Text := "cd: @ab: ef:".toList
      let states := (Painter.start text (scan rules.entries text)).iterations rules
      let colon : EntryRule := ⟨":".toList, "#0f0".toList⟩
      scan rules.entries text = [⟨0, 2, colon⟩, ⟨5, 7, colon⟩, ⟨9, 11, colon⟩] ∧
      Painter.fired states = [⟨0, 2, colon⟩] ∧ ∃ p ∈ states, p.Swallows rules ⟨5, 7, colon⟩ := by
  have hread : RuleFile.read "%highlight voice: snow-bud v1.3%\n*entry : #0f0\n@ab #f00".toList =
      .ok ⟨.ofDirectives [.entry ⟨":".toList, "#0f0".toList⟩,
        .keyword "@ab".toList "#f00".toList], []⟩ := rfl
  refine ⟨_, hread, ?_⟩
  intro rules text states colon
  have hfound : scan rules.entries text = [⟨0, 2, colon⟩, ⟨5, 7, colon⟩, ⟨9, 11, colon⟩] := rfl
  have hfired : Painter.fired states = [⟨0, 2, colon⟩] := by decide +kernel
  refine ⟨hfound, hfired, ?_⟩
  obtain ⟨k, hk, htake, -, -, -, hnext⟩ := fired_eq_take hread text
  change Painter.fired states = (scan rules.entries text).take k at htake
  change ∀ m, (scan rules.entries text)[k]? = some m → _ at hnext
  have hlength := congrArg List.length (hfired.symm.trans htake)
  rw [hfound] at hlength hnext
  obtain rfl : k = 1 := by
    rw [List.length_take] at hlength
    simp only [List.length_cons, List.length_nil] at hlength
    omega
  exact (hnext _ rfl).1

end Tint
