import Mathlib.Data.List.FinRange
import Mathlib.Logic.Equiv.Fin.Rotate
import Tint.Proofs.RuleFile.Contents
import Tint.Proofs.Rules.Count
import Tint.Proofs.Rules.Queries
set_option autoImplicit false

/-!
# Files in another order

The order of two lines matters only when both may answer one question of the painter: enclosures of
one tier that open at one place, entry rules of one marker, colors of one key
(`Directive.Conflicts`).  A file whose lines are put in an order that keeps that of each such pair
(`Reorders`) has other lists of enclosures and entry rules, but it has as many rules, the same
colors, and it paints every text alike (`RuleFile.read_of_reorders`).

To every question the two files have the same answers in the same order: those that answer it
conflict with each other, so the reordering keeps their order.
-/

namespace Tint

/-- The second list holds the elements of the first in another order, in which any two that are
related are in the order of before. -/
def Reorders {α : Type} (R : α → α → Prop) (l l' : List α) : Prop :=
  ∃ place : Fin l'.length ≃ Fin l.length, (∀ i, l'.get i = l.get (place i)) ∧
    ∀ i j, i < j → R (l'.get i) (l'.get j) → place i < place j

theorem map_finRange_perm {n m : Nat} (place : Fin n ≃ Fin m) :
    ((List.finRange n).map place).Perm (List.finRange m) := by
  refine (List.perm_ext_iff_of_nodup ?_ (List.nodup_finRange m)).2 fun j => ?_
  · exact (List.nodup_finRange n).map place.injective
  · simp only [List.mem_map, List.mem_finRange, true_and, iff_true]
    exact place.surjective j

namespace Reorders

variable {α : Type} {R : α → α → Prop} {l l' : List α}

theorem perm (h : Reorders R l l') : l'.Perm l := by
  obtain ⟨place, hplace, -⟩ := h
  have hget : (List.finRange l'.length).map l'.get =
      ((List.finRange l'.length).map place).map l.get := by
    rw [List.map_map]
    exact List.map_congr_left fun i _ => hplace i
  rw [← List.map_get_finRange l', ← List.map_get_finRange l, hget]
  exact (map_finRange_perm place).map l.get

/-- Elements that are all related to each other keep their order. -/
theorem filter_eq (h : Reorders R l l') {p : α → Bool}
    (hp : ∀ a b, p a = true → p b = true → R a b) : l'.filter p = l.filter p := by
  obtain ⟨place, hplace, hkeeps⟩ := h
  have hchosen (l : List α) : l.filter p =
      ((List.finRange l.length).filter fun i => p (l.get i)).map l.get := by
    conv_lhs => rw [← List.map_get_finRange l, List.filter_map]
    rfl
  -- the places of the chosen elements ascend in both lists
  have hplaces : ((List.finRange l'.length).filter fun i => p (l'.get i)).map place =
      (List.finRange l.length).filter fun j => p (l.get j) := by
    have hascend : (((List.finRange l'.length).filter fun i => p (l'.get i)).map place).Pairwise
        (· < ·) := by
      refine List.pairwise_map.2 (((List.pairwise_lt_finRange _).filter _).imp_of_mem ?_)
      intro i j hi hj hij
      exact hkeeps i j hij (hp _ _ (List.mem_filter.1 hi).2 (List.mem_filter.1 hj).2)
    refine List.Perm.eq_of_pairwise (fun i j _ _ hij hji => absurd hij (lt_asymm hji)) hascend
      ((List.pairwise_lt_finRange _).filter _) ?_
    have hperm := (map_finRange_perm place).filter fun j => p (l.get j)
    rw [List.filter_map] at hperm
    simp only [hplace]
    exact hperm
  rw [hchosen l, hchosen l', ← hplaces, List.map_map]
  exact List.map_congr_left fun i _ => hplace i

end Reorders

namespace Directive

/-- Two directives that may both answer one question. -/
def Conflicts : Directive → Directive → Prop
  | .enclosure t e, .enclosure t' e' => t = t' ∧ (e.left <+: e'.left ∨ e'.left <+: e.left)
  | .entry r, .entry r' => r.token = r'.token
  | .delimiterColor name _, .delimiterColor name' _ => name = name'
  | .docToken word _, .docToken word' _ => word = word'
  | .keyword word _, .keyword word' _ => word = word'
  | _, _ => False

instance (d d' : Directive) : Decidable (d.Conflicts d') := by
  unfold Conflicts
  split <;> infer_instance

theorem conflicts_of_answers {q : Query} {d d' : Directive} (h : d.answers q = true)
    (h' : d'.answers q = true) : d.Conflicts d' := by
  cases answer_of_answers h with
  | opening starts =>
    cases answer_of_answers h' with
    | opening starts' => exact ⟨rfl, List.prefix_or_prefix_of_prefix starts starts'⟩
  | marker rule =>
    generalize htoken : rule.token = token at h'
    cases answer_of_answers h' with
    | marker rule' => exact htoken
  | delimiterColor name color =>
    cases answer_of_answers h' with
    | delimiterColor _ color' => exact rfl
  | docToken word color =>
    cases answer_of_answers h' with
    | docToken _ color' => exact rfl
  | keyword word color =>
    cases answer_of_answers h' with
    | keyword _ color' => exact rfl

end Directive

namespace RuleFile

/-- Both lines are accepted, and their directives conflict. -/
def LinesConflict (line line' : Text) : Prop :=
  ∃ d ∈ (readLine line).directive?, ∃ d' ∈ (readLine line').directive?, d.Conflicts d'

instance (line line' : Text) : Decidable (LinesConflict line line') := by
  unfold LinesConflict
  infer_instance

/-- What answers a question comes in the order of before. -/
theorem filter_answers_of_reorders {body body' : List Text}
    (h : Reorders LinesConflict body body') (q : Query) :
    (acceptedIn body').filter (Directive.answers q) =
      (acceptedIn body).filter (Directive.answers q) := by
  rw [acceptedIn, acceptedIn, filter_filterMap_any, filter_filterMap_any]
  refine congrArg _ (h.filter_eq fun line line' hline hline' => ?_)
  obtain ⟨d, hd, hq⟩ := (Option.any_eq_true _ _).1 hline
  obtain ⟨d', hd', hq'⟩ := (Option.any_eq_true _ _).1 hline'
  exact ⟨d, hd, d', hd', Directive.conflicts_of_answers hq hq'⟩

/-- A file read in another order that keeps the order of conflicting lines. -/
theorem read_of_reorders {file file' first : Text} {body body' : List Text} {contents : Contents}
    (hlines : file.lines = first :: body) (hlines' : file'.lines = first :: body')
    (horder : Reorders LinesConflict body body') (hread : read file = .ok contents) :
    ∃ contents' : Contents, read file' = .ok contents' ∧
      contents'.rules.ruleCount = contents.rules.ruleCount ∧
      contents'.rules.delimiterColors = contents.rules.delimiterColors ∧
      contents'.rules.docTokens = contents.rules.docTokens ∧
      contents'.rules.keywords = contents.rules.keywords ∧
      ∀ text, contents'.rules.render text = contents.rules.render text := by
  obtain ⟨_, _, heq, hfirst, rfl⟩ := read_eq_ok_iff.1 hread
  cases hlines.symm.trans heq
  have hfilter := filter_answers_of_reorders horder
  refine ⟨contentsOf body', read_of_lines hlines' hfirst, ?_, ?_, ?_, ?_, fun text => ?_⟩
  · exact RuleSet.ruleCount_perm (horder.perm.filterMap _)
  · exact RuleSet.ofAssignments_filterMap_congr fun name => hfilter (.delimiterColor name)
  · exact RuleSet.ofAssignments_filterMap_congr fun word => hfilter (.docToken word)
  · exact RuleSet.ofAssignments_filterMap_congr fun word => hfilter (.keyword word)
  · exact (RuleSet.agreeOn_ofDirectives fun q _ => hfilter q).render_eq

/-- The last line is put in front of all others, among which the order of enclosures matters and
that of two colors of one keyword. -/
theorem read_of_reorders_rotated :
    let first : Text := "%highlight voice: snow-bud v1.3%".toList
    let a : Text := "int #111\n*>enclose a / /\n*>enclose b // //\nint #222".toList
    let z : Text := "*entry : #333".toList
    let file : Text := first ++ '\n' :: (a ++ '\n' :: z)
    let file' : Text := first ++ '\n' :: (z ++ '\n' :: a)
    file.lines = first :: (a.lines ++ [z]) ∧ file'.lines = first :: z :: a.lines ∧
    Reorders LinesConflict (a.lines ++ [z]) (z :: a.lines) ∧
    ∃ contents contents' : Contents, read file = .ok contents ∧ read file' = .ok contents' ∧
      contents'.rules.ruleCount = contents.rules.ruleCount ∧
      contents'.rules.delimiterColors = contents.rules.delimiterColors ∧
      contents'.rules.docTokens = contents.rules.docTokens ∧
      contents'.rules.keywords = contents.rules.keywords ∧
      ∀ text, contents'.rules.render text = contents.rules.render text := by
  intro first a z file file'
  have hlines : file.lines = first :: (a.lines ++ [z]) := rfl
  have hlines' : file'.lines = first :: z :: a.lines := rfl
  have horder : Reorders LinesConflict (a.lines ++ [z]) (z :: a.lines) := by
    exact ⟨(finRotate 5).symm, by decide, by decide⟩
  have hread : read file = .ok (contentsOf (a.lines ++ [z])) := rfl
  obtain ⟨contents', hread', hsame⟩ := read_of_reorders hlines hlines' horder hread
  exact ⟨hlines, hlines', horder, _, contents', hread, hread', hsame⟩

end RuleFile

end Tint
