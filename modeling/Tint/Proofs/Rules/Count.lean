import Mathlib.Data.Finset.Card
import Mathlib.Data.List.Induction
import Tint.Rules.RuleSet
set_option autoImplicit false

/-!
# The number of rules

A rule set counts its enclosures, its entry rules and the keys that have a color in one of the three
maps (`RuleSet.ruleCount`).  In terms of the directives that it was built from, these are the
enclosures and entry rules among them, as many as there are, and the keys that they color, each
once however often it is given a color (`RuleSet.ruleCount_ofDirectives`).
-/

namespace Tint

theorem ColorMap.size_ofAssignments (as : List (Text × Text)) :
    (ofAssignments as).size = (as.map (·.1)).toFinset.card := by
  induction as using List.reverseRecOn with
  | nil => rfl
  | append_singleton as a ih =>
    have hmem : (ofAssignments as).contains a.1 = true ↔ a.1 ∈ (as.map (·.1)).toFinset := by
      rw [Std.ExtTreeMap.contains_eq_isSome_getElem?, getElem?_ofAssignments, Option.isSome_map,
        List.find?_isSome]
      simp
    have hinsert : ofAssignments (as ++ [a]) = (ofAssignments as).insert a.1 a.2 := by
      rw [ofAssignments, List.foldl_append]
      rfl
    rw [hinsert, Std.ExtTreeMap.size_insert, ih, List.map_append, List.toFinset_append,
      Finset.union_comm]
    by_cases h : a.1 ∈ (as.map (·.1)).toFinset
    · rw [if_pos (hmem.2 h)]
      simp [Finset.insert_eq_of_mem h]
    · rw [if_neg (mt hmem.1 h)]
      simp [Finset.card_insert_of_notMem h]

namespace Directive

/-- The directive declares an enclosure. -/
def isEnclosure : Directive → Bool
  | .enclosure _ _ => true
  | _ => false

/-- The directive declares an entry rule. -/
def isEntry : Directive → Bool
  | .entry _ => true
  | _ => false

/-- The keys that directives of one kind give a color. -/
def keys (color? : Directive → Option (Text × Text)) (ds : List Directive) : Finset Text :=
  ((ds.filterMap color?).map (·.1)).toFinset

theorem length_enclosures (ds : List Directive) :
    (ds.filterMap (enclosure? .strong)).length + (ds.filterMap (enclosure? .doc)).length +
      (ds.filterMap (enclosure? .weak)).length = ds.countP isEnclosure := by
  induction ds with
  | nil => rfl
  | cons d ds ih =>
    cases d with
    | enclosure tier e =>
      cases tier <;>
        simp only [List.filterMap_cons, enclosure?, reduceCtorEq, if_true, if_false,
          List.length_cons, List.countP_cons, isEnclosure] <;> omega
    | _ => simpa [List.filterMap_cons, enclosure?, isEnclosure] using ih

theorem length_entries (ds : List Directive) :
    (ds.filterMap entry?).length = ds.countP isEntry := by
  rw [List.length_filterMap_eq_countP]
  congr 1
  funext d
  cases d <;> rfl

end Directive

namespace RuleSet

/-- Rules are counted by the enclosures, the entry rules and the keys with a color. -/
theorem ruleCount_ofDirectives (ds : List Directive) :
    (ofDirectives ds).ruleCount = ds.countP Directive.isEnclosure + ds.countP Directive.isEntry +
      (Directive.keys Directive.delimiterColor? ds).card +
      (Directive.keys Directive.docToken? ds).card +
      (Directive.keys Directive.keyword? ds).card := by
  have hentries : (longestFirst (fun r : EntryRule => r.token.length)
      (ds.filterMap Directive.entry?)).length = ds.countP Directive.isEntry :=
    (longestFirst_perm _ _).length_eq.trans (Directive.length_entries ds)
  rw [← Directive.length_enclosures, ← hentries, Directive.keys, Directive.keys, Directive.keys,
    ← ColorMap.size_ofAssignments, ← ColorMap.size_ofAssignments, ← ColorMap.size_ofAssignments]
  rfl

/-- The number of rules does not depend on the order of the directives. -/
theorem ruleCount_perm {ds ds' : List Directive} (h : ds'.Perm ds) :
    (ofDirectives ds').ruleCount = (ofDirectives ds).ruleCount := by
  have hkeys (color? : Directive → Option (Text × Text)) :
      Directive.keys color? ds' = Directive.keys color? ds :=
    List.toFinset_eq_of_perm _ _ ((h.filterMap color?).map _)
  rw [ruleCount_ofDirectives, ruleCount_ofDirectives, h.countP_eq, h.countP_eq, hkeys, hkeys, hkeys]

end RuleSet

end Tint
