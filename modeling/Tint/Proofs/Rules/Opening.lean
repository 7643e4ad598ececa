import Tint.Rules.Enclosure
import Tint.Text.Offset
set_option autoImplicit false

/-!
# Which enclosure opens

The two steps in which an enclosure is found put the delimiters in different orders: the test tries
the longest first, the search goes by declaration.  They agree all the same on whether an enclosure
opens (`EnclosureSet.StepsAgree`), for lists of rules of any kind: delimiters may be empty, and two
rules may have the same one.

Since rules may be equal, the rule that is found is told by its place in the list
(`EnclosureSet.openIndexAt?`).  A rule whose delimiter goes on from that of an earlier one is never
found; every other rule is, at the front of its own delimiter (`EnclosureSet.exists_openIndexAt?_iff`).
-/

namespace Tint

/-- A test made of the delimiters of all rules does what trying the rules one by one does. -/
theorem OpeningTest.passes_longestFirst (rules : List Enclosure) (rest : Text) :
    passes ⟨(longestFirst Text.size (rules.map Enclosure.left)).eraseDups⟩ rest =
      rules.any (rest.startsWith ·.left) := by
  have hmem (left : Text) : left ∈ (longestFirst Text.size (rules.map Enclosure.left)).eraseDups ↔
      ∃ e ∈ rules, e.left = left := by
    rw [List.mem_eraseDups, mem_longestFirst, List.mem_map]
  rw [Bool.eq_iff_iff, passes, List.any_eq_true, List.any_eq_true]
  constructor
  · rintro ⟨left, hleft, hstarts⟩
    obtain ⟨e, he, rfl⟩ := (hmem left).1 hleft
    exact ⟨e, he, hstarts⟩
  · rintro ⟨e, he, hstarts⟩
    exact ⟨e.left, (hmem e.left).2 ⟨e, he, rfl⟩, hstarts⟩

namespace EnclosureSet

variable {s : EnclosureSet} {rest : Text} {i : Nat}

/-- The place of the rule that opens at the front of `rest`. -/
def openIndexAt? (s : EnclosureSet) (rest : Text) : Option Nat :=
  if s.opensAt rest then s.rules.findIdx? (rest.startsWith ·.left) else none

/-- The rule that opens is the one at its place. -/
theorem openAt?_eq_bind (s : EnclosureSet) (rest : Text) :
    s.openAt? rest = (s.openIndexAt? rest).bind (s.rules[·]?) := by
  unfold openAt? openIndexAt?
  split
  · exact List.find?_eq_bind_findIdx?_getElem?
  · rfl

theorem openIndexAt?_eq_findIdx? (s : EnclosureSet) (rest : Text) :
    s.openIndexAt? rest = s.rules.findIdx? (rest.startsWith ·.left) := by
  unfold openIndexAt?
  split
  · rfl
  · rename_i h
    refine (List.findIdx?_eq_none_iff.2 fun e he => ?_).symm
    rw [← Bool.not_eq_true, Text.startsWith_iff]
    exact fun hstands => h (opensAt_iff.2 ⟨e, he, hstands⟩)

/-- Of the rules whose opening delimiters stand at the front of `rest` the first one opens. -/
theorem openIndexAt?_eq_some_iff :
    s.openIndexAt? rest = some i ↔ ∃ hi : i < s.rules.length,
      s.rules[i].left <+: rest ∧ ∀ (j : Nat) (hj : j < i), ¬ s.rules[j].left <+: rest := by
  rw [openIndexAt?_eq_findIdx?, List.findIdx?_eq_some_iff_getElem]
  simp only [Text.startsWith_iff]

/-- Some enclosure is found exactly when the test says so. -/
theorem isSome_openAt? (s : EnclosureSet) (rest : Text) :
    (s.openAt? rest).isSome = s.opensAt rest := by
  rw [openAt?_eq_find?, Bool.eq_iff_iff, List.find?_isSome, opensAt_iff]
  simp only [Text.startsWith_iff]

/-- A rule opens somewhere exactly when no earlier delimiter is a front of its own. -/
theorem exists_openIndexAt?_iff (hi : i < s.rules.length) :
    (∃ (text : Text) (offset : Nat) (rest : Text), text.dropBytes? offset = some rest ∧
        s.openIndexAt? rest = some i) ↔
      ∀ (j : Nat) (hj : j < i), ¬ s.rules[j].left <+: s.rules[i].left := by
  constructor
  · rintro ⟨text, offset, rest, -, hopen⟩ j hj hfront
    obtain ⟨_, hstands, hfirst⟩ := openIndexAt?_eq_some_iff.1 hopen
    exact hfirst j hj (hfront.trans hstands)
  · intro hfirst
    -- its delimiter alone is such a text
    refine ⟨s.rules[i].left, 0, s.rules[i].left, Text.dropBytes?_size_append [] _, ?_⟩
    exact openIndexAt?_eq_some_iff.2 ⟨hi, List.prefix_rfl, hfirst⟩

/-- What the two steps come to at a place of a text. -/
structure StepsAgree (rules : List Enclosure) (rest : Text) : Prop where
  /-- the test, had it any size, and the search without it have the same outcome -/
  passes_eq : OpeningTest.passes ⟨(longestFirst Text.size (rules.map Enclosure.left)).eraseDups⟩ rest =
    rules.any (rest.startsWith ·.left)
  opensAt_iff : (ofList rules).opensAt rest = true ↔ ∃ e ∈ rules, e.left <+: rest
  isSome_openAt? : ((ofList rules).openAt? rest).isSome = (ofList rules).opensAt rest
  openAt?_eq : (ofList rules).openAt? rest = ((ofList rules).openIndexAt? rest).bind (rules[·]?)
  /-- the first rule in declaration order opens -/
  openIndexAt?_iff : ∀ i, (ofList rules).openIndexAt? rest = some i ↔ ∃ hi : i < rules.length,
    rules[i].left <+: rest ∧ ∀ (j : Nat) (hj : j < i), ¬ rules[j].left <+: rest

/-- At every character boundary of a text the test and the search agree, and the rules that are ever
found are those whose delimiters start with no earlier one. -/
theorem stepsAgree (rules : List Enclosure) :
    (∀ (text : Text) (offset : Nat) (rest : Text), text.dropBytes? offset = some rest →
      StepsAgree rules rest) ∧
    ∀ (i : Nat) (hi : i < rules.length),
      (∃ (text : Text) (offset : Nat) (rest : Text), text.dropBytes? offset = some rest ∧
          (ofList rules).openIndexAt? rest = some i) ↔
        ∀ (j : Nat) (hj : j < i), ¬ rules[j].left <+: rules[i].left := by
  constructor
  · intro text offset rest _
    exact {
      passes_eq := OpeningTest.passes_longestFirst rules rest
      opensAt_iff := opensAt_iff
      isSome_openAt? := isSome_openAt? _ rest
      openAt?_eq := openAt?_eq_bind _ rest
      openIndexAt?_iff := fun i => openIndexAt?_eq_some_iff }
  · intro i hi
    exact exists_openIndexAt?_iff (s := ofList rules) hi

/-- Behind the `a` the longest delimiter that stands there is the last one, and the second rule
opens.  The last one never does: it goes on from the second. -/
theorem stepsAgree_shadowed :
    let rules : List Enclosure := [⟨"c".toList, "/*".toList, "*/".toList⟩,
      ⟨"d".toList, "é.".toList, ".".toList⟩, ⟨"e".toList, "é.*".toList, "\n".toList⟩]
    Text.dropBytes? 1 "aé.*".toList = some "é.*".toList ∧
      (EnclosureSet.ofList rules).openAt? "é.*".toList = some ⟨"d".toList, "é.".toList, ".".toList⟩ ∧
      ¬ ∃ (text : Text) (offset : Nat) (rest : Text), text.dropBytes? offset = some rest ∧
        (EnclosureSet.ofList rules).openIndexAt? rest = some 2 := by
  intro rules
  obtain ⟨hagree, hreached⟩ := stepsAgree rules
  have hrest : Text.dropBytes? 1 "aé.*".toList = some "é.*".toList := by decide
  have hat := hagree _ 1 _ hrest
  have hindex : (EnclosureSet.ofList rules).openIndexAt? "é.*".toList = some 1 :=
    (hat.openIndexAt?_iff 1).2 ⟨by decide, by decide, by decide⟩
  refine ⟨hrest, ?_, ?_⟩
  · rw [hat.openAt?_eq, hindex]
    rfl
  · intro hopen
    exact (hreached 2 (by decide)).1 hopen 1 (by decide) (by decide)

end EnclosureSet

end Tint
