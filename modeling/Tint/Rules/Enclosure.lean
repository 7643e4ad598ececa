import Tint.Rules.OpeningTest
set_option autoImplicit false

/-!
# Enclosures

An enclosure is a region between two delimiters, such as a comment or a string.  Its tier
says what is recognised inside it.

Which enclosure of a set opens at a place is found in two steps.  A test over the opening
delimiters, longest first, tells whether any of them stands there; only then is the rule
looked up, and the first one in declaration order wins.  With `"` declared before `"""`, a
text that starts with `"""` passes the test and opens the shorter `"`.  Where the test would be
too large, the rules are tried one by one instead, to the same effect (`opensAt_iff`).
-/

namespace Tint

/-- What is recognised inside an enclosure, its closing delimiter and marked words apart. -/
inductive Tier where
  /-- nothing -/
  | strong
  /-- doc tokens -/
  | doc
  /-- strong enclosures -/
  | weak
  deriving DecidableEq, Repr, Inhabited

/-- The word that declares an enclosure of this tier. -/
def Tier.directive : Tier → Text
  | .strong => "*>enclose".toList
  | .doc => "+>enclose".toList
  | .weak => "->enclose".toList

/-- A region between two delimiters, both of them literal text.  The name is the key of the
delimiters' color. -/
structure Enclosure where
  name : Text
  left : Text
  right : Text
  deriving DecidableEq, Repr, Inhabited

/-- Enclosures in declaration order, with the test for their opening delimiters, unless it
would be too large. -/
structure EnclosureSet where
  rules : List Enclosure
  test? : Option OpeningTest := OpeningTest.ofDelimiters? (rules.map Enclosure.left)
  test?_eq : test? = OpeningTest.ofDelimiters? (rules.map Enclosure.left) := by rfl
  deriving DecidableEq, Repr

namespace EnclosureSet

/-- The set of the given enclosures. -/
def ofList (rules : List Enclosure) : EnclosureSet where
  rules := rules

instance : Inhabited EnclosureSet := ⟨ofList []⟩

/-- Two sets of the same rules are the same. -/
@[ext] theorem ext {s t : EnclosureSet} (h : s.rules = t.rules) : s = t := by
  obtain ⟨rs, os, hs⟩ := s
  obtain ⟨rt, ot, ht⟩ := t
  simp only at h
  subst h
  subst hs
  subst ht
  rfl

/-- Number of enclosures. -/
def length (s : EnclosureSet) : Nat := s.rules.length

/-- The set holds no enclosure. -/
def isEmpty (s : EnclosureSet) : Bool := s.rules.isEmpty

/-- The set is searched rule by rule, for want of a test. -/
def isUntested (s : EnclosureSet) : Bool := s.test?.isNone

/-- An opening delimiter stands at the front of `rest`. -/
def opensAt (s : EnclosureSet) (rest : Text) : Bool :=
  match s.test? with
  | some test => test.passes rest
  | none => s.rules.any (rest.startsWith ·.left)

/-- The enclosure that opens at the front of `rest`: the first one declared whose opening
delimiter stands there, not the longest. -/
def openAt? (s : EnclosureSet) (rest : Text) : Option Enclosure :=
  if s.opensAt rest then s.rules.find? (rest.startsWith ·.left) else none

@[simp] theorem rules_ofList (l : List Enclosure) : (ofList l).rules = l := rfl

/-- With a test or without, the delimiters of all rules are looked for. -/
theorem opensAt_iff {s : EnclosureSet} {rest : Text} :
    s.opensAt rest = true ↔ ∃ e ∈ s.rules, e.left <+: rest := by
  unfold opensAt
  split
  · rename_i test h
    rw [OpeningTest.passes_iff (s.test?_eq ▸ h)]
    constructor
    · rintro ⟨d, hd, hprefix⟩
      obtain ⟨e, he, rfl⟩ := List.mem_map.1 hd
      exact ⟨e, he, hprefix⟩
    · rintro ⟨e, he, hprefix⟩
      exact ⟨e.left, List.mem_map_of_mem he, hprefix⟩
  · simp

/-- Without the first step the same rule would be found. -/
theorem openAt?_eq_find? (s : EnclosureSet) (rest : Text) :
    s.openAt? rest = s.rules.find? (rest.startsWith ·.left) := by
  unfold openAt?
  split
  · rfl
  · rename_i h
    refine (List.find?_eq_none.2 fun e he hprefix => h ?_).symm
    exact opensAt_iff.2 ⟨e, he, Text.startsWith_iff.1 hprefix⟩

end EnclosureSet

end Tint
