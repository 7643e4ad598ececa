import Tint.Proofs.Paint.Move
set_option autoImplicit false

/-!
# The painter without entry matches

Without entry matches the next piece depends only on the region, the character before and the rest
(`Region.choose`), so the painter's loop is a recursion on the text (`RuleSet.flow`), which yields
the pieces in order and no state.  `painting_paintWith_nil` says that both paint the same.
-/

namespace Tint

/-- The painting of a text from a region on.  The next `skip` characters belong to a piece that
has been painted. -/
def RuleSet.flow (rules : RuleSet) : Region → Option Char → (skip : Nat) → Text → Painting
  | region, _, _, [] => region.opened.map .closing
  | region, _, skip + 1, c :: r => rules.flow region (some c) skip r
  | region, previous, 0, c :: r =>
    let next := region.choose rules previous c r
    next.1 :: rules.flow next.2 (some c) (next.1.source.length - 1) r

namespace RuleSet

variable {rules : RuleSet} {region : Region} {previous : Option Char}

theorem flow_append (u r : Text) (region : Region) (previous : Option Char) :
    rules.flow region previous u.length (u ++ r) =
      rules.flow region (u.getLast?.or previous) 0 r := by
  induction u generalizing previous with
  | nil => rfl
  | cons c u ih =>
    rw [List.cons_append, List.length_cons, flow, ih, Text.getLast?_cons_eq_or, Option.or_assoc,
      Option.some_or]

/-- A piece that is chosen, and the painting behind it. -/
theorem flow_cons {c : Char} {r : Text} {piece : Piece} {region' : Region}
    (h : region.choose rules previous c r = (piece, region')) (hne : piece.source ≠ [])
    (hfront : piece.source <+: c :: r) :
    rules.flow region previous 0 (c :: r) = piece ::
      rules.flow region' piece.source.getLast? 0 ((c :: r).drop piece.source.length) := by
  obtain ⟨u, after, hu, rfl⟩ := Text.exists_cons_of_isPrefix hne hfront
  rw [flow, h]
  dsimp only
  rw [hu, List.length_cons, Nat.add_sub_cancel, flow_append, List.drop_succ_cons, List.drop_left,
    Text.getLast?_cons_eq_or]

end RuleSet

namespace Painter

variable {rules : RuleSet} {entries : List EntryRule} {text : Text} {p : Painter}

/-- A painting is what has been painted, and the painting of the rest. -/
theorem painting_run (hrules : rules.WellFormed) {fuel : Nat} (h : p.Tracks rules entries text)
    (hp : p.pending = []) (hfuel : p.rest.length ≤ fuel) :
    ((loop rules).run fuel p).painting =
      p.pieces ++ rules.flow p.region p.previous 0 p.rest := by
  refine Loop.run_induction (descends hrules entries text) (Q := fun p _ q => p.pending = [] →
    q.painting = p.pieces ++ rules.flow p.region p.previous 0 p.rest) ?_ ?_ h hfuel hp
  · intro p hdone _ _
    have hnil : p.rest = [] := List.isEmpty_iff.1 hdone
    rw [hnil]
    rfl
  · intro p _ q hdone hp hq hpending
    obtain ⟨c, r, hr⟩ := List.exists_cons_of_ne_nil (rest_ne_nil_of_done hdone)
    have free : p.due? = none := by rw [due?, hpending]; rfl
    have move : Move rules p _ _ := move_choose free hr
    have hstep : p.step rules = p.paint _ _ := step_eq_paint free hr
    cases hchoose : p.region.choose rules p.previous c r with
    | mk piece region =>
      rw [hchoose] at move hstep
      dsimp only at move hstep
      have hne := move.source_ne_nil hp hrules
      have hfront := move.source_isPrefix hp
      rw [hr] at hfront
      obtain ⟨last, hlast⟩ := Option.ne_none_iff_exists'.1 fun hnone =>
        hne (List.getLast?_eq_none_iff.1 hnone)
      rw [← after_of_free free] at hstep
      change Loop.step (loop rules) p = p.after piece region at hstep
      have hpending' : (Loop.step (loop rules) p).pending = [] := by
        rw [hstep, after_of_free free]
        exact hpending
      rw [hq hpending', hstep, pieces_after, region_after, previous_after, rest_after, hr,
        RuleSet.flow_cons hchoose hne hfront, hlast, Option.some_or, List.append_assoc]
      rfl

end Painter

/-- The painting of a text without entry matches. -/
theorem RuleSet.painting_paintWith_nil {rules : RuleSet} (hrules : rules.WellFormed)
    (text : Text) :
    (rules.paintWith [] text).painting = rules.flow .outside none 0 text := by
  have hstart : (Painter.start text []).Tracks rules [] text :=
    Painter.tracks_start rules (by simp)
  rw [paintWith, Painter.finish, Painter.steps_eq_run,
    Painter.painting_run hrules hstart rfl (Nat.le_refl _)]
  rfl

end Tint
