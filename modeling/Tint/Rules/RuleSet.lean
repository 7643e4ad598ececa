import Std.Data.ExtTreeMap
import Tint.Rules.Enclosure
set_option autoImplicit false

/-!
# Rule sets

What a rule file says, in the form the painter looks it up: the enclosures of the three
tiers in declaration order, the marked words longest marker first, and three maps from a name
or word to its color.  A rule set is built from the directives of a file in one go
(`RuleSet.ofDirectives`), so each part is a function of the directives of its own kind.
-/

namespace Tint

/-- A trailing marker, such as `:`, that colors the word right before it together with
itself. -/
structure EntryRule where
  token : Text
  color : Text
  deriving DecidableEq, Repr, Inhabited

/-- Colors by name or word, in the order of the keys' characters.  Two maps with the same
colors are equal. -/
abbrev ColorMap := Std.ExtTreeMap Text Text

/-- What an accepted line of a rule file says. -/
inductive Directive where
  /-- an enclosure of a tier -/
  | enclosure (tier : Tier) (rule : Enclosure)
  /-- a trailing marker -/
  | entry (rule : EntryRule)
  /-- the color of the delimiters of the enclosures of one name -/
  | delimiterColor (name color : Text)
  /-- the color of a word inside doc enclosures -/
  | docToken (word color : Text)
  /-- the color of a word outside all enclosures -/
  | keyword (word color : Text)
  deriving DecidableEq, Repr, Inhabited

namespace Directive

/-- The enclosure of a tier that the directive declares. -/
def enclosure? (tier : Tier) : Directive → Option Enclosure
  | .enclosure t rule => if t = tier then some rule else none
  | _ => none

/-- The entry rule that the directive declares. -/
def entry? : Directive → Option EntryRule
  | .entry rule => some rule
  | _ => none

/-- The name and color of a delimiter color. -/
def delimiterColor? : Directive → Option (Text × Text)
  | .delimiterColor name color => some (name, color)
  | _ => none

/-- The word and color of a doc token. -/
def docToken? : Directive → Option (Text × Text)
  | .docToken word color => some (word, color)
  | _ => none

/-- The word and color of a keyword. -/
def keyword? : Directive → Option (Text × Text)
  | .keyword word color => some (word, color)
  | _ => none

variable {d : Directive}

theorem eq_of_enclosure? {tier : Tier} {e : Enclosure} (h : d.enclosure? tier = some e) :
    d = .enclosure tier e := by
  cases d with
  | enclosure t rule =>
    simp only [enclosure?, Option.ite_none_right_eq_some, Option.some.injEq] at h
    rw [h.1, h.2]
  | _ => cases h

theorem eq_of_entry? {rule : EntryRule} (h : d.entry? = some rule) : d = .entry rule := by
  cases d <;> cases h
  rfl

theorem eq_of_delimiterColor? {a : Text × Text} (h : d.delimiterColor? = some a) :
    d = .delimiterColor a.1 a.2 := by
  cases d <;> cases h
  rfl

theorem eq_of_docToken? {a : Text × Text} (h : d.docToken? = some a) : d = .docToken a.1 a.2 := by
  cases d <;> cases h
  rfl

theorem eq_of_keyword? {a : Text × Text} (h : d.keyword? = some a) : d = .keyword a.1 a.2 := by
  cases d <;> cases h
  rfl

end Directive

/-- The rules of one rule file. -/
structure RuleSet where
  strong : EnclosureSet := .ofList []
  doc : EnclosureSet := .ofList []
  weak : EnclosureSet := .ofList []
  /-- longest marker first, by characters -/
  entries : List EntryRule := []
  delimiterColors : ColorMap := ∅
  docTokens : ColorMap := ∅
  keywords : ColorMap := ∅
  deriving DecidableEq, Repr, Inhabited

/-- The map of the given assignments; of two to one key the later one holds. -/
def ColorMap.ofAssignments (assignments : List (Text × Text)) : ColorMap :=
  assignments.foldl (fun colors a => colors.insert a.1 a.2) ∅

namespace RuleSet

/-- The rules that a list of directives declares. -/
def ofDirectives (ds : List Directive) : RuleSet where
  strong := .ofList (ds.filterMap (Directive.enclosure? .strong))
  doc := .ofList (ds.filterMap (Directive.enclosure? .doc))
  weak := .ofList (ds.filterMap (Directive.enclosure? .weak))
  entries := longestFirst (fun r => r.token.length) (ds.filterMap Directive.entry?)
  delimiterColors := .ofAssignments (ds.filterMap Directive.delimiterColor?)
  docTokens := .ofAssignments (ds.filterMap Directive.docToken?)
  keywords := .ofAssignments (ds.filterMap Directive.keyword?)

/-- The enclosures of one tier. -/
def enclosures (rules : RuleSet) : Tier → EnclosureSet
  | .strong => rules.strong
  | .doc => rules.doc
  | .weak => rules.weak

/-- The tiers whose enclosures have no opening test. -/
def untested (rules : RuleSet) : List Tier :=
  [.strong, .doc, .weak].filter fun tier => (rules.enclosures tier).isUntested

/-- The color assigned to the delimiters of the enclosures of a name. -/
def delimiterColor? (rules : RuleSet) (name : Text) : Option Text := rules.delimiterColors[name]?

/-- The color of a word inside doc enclosures. -/
def docToken? (rules : RuleSet) (word : Text) : Option Text := rules.docTokens[word]?

/-- The color of a word outside all enclosures. -/
def keyword? (rules : RuleSet) (word : Text) : Option Text := rules.keywords[word]?

/-- Number of rules in effect. -/
def ruleCount (rules : RuleSet) : Nat :=
  rules.strong.length + rules.doc.length + rules.weak.length + rules.entries.length +
    rules.delimiterColors.size + rules.docTokens.size + rules.keywords.size

/-- No rule is in effect. -/
def isEmpty (rules : RuleSet) : Bool := rules.ruleCount == 0

theorem rules_enclosures_ofDirectives (tier : Tier) (ds : List Directive) :
    ((ofDirectives ds).enclosures tier).rules = ds.filterMap (Directive.enclosure? tier) := by
  cases tier <;> rfl

end RuleSet

namespace ColorMap

theorem getElem?_foldl_insert (as : List (Text × Text)) (colors : ColorMap) (key : Text) :
    (as.foldl (fun colors a => colors.insert a.1 a.2) colors)[key]? =
      ((as.reverse.find? (·.1 == key)).map (·.2)).or colors[key]? := by
  induction as generalizing colors with
  | nil => simp
  | cons a r ih =>
    rw [List.foldl_cons, ih, List.reverse_cons, List.find?_append]
    cases r.reverse.find? (·.1 == key) with
    | some b => simp
    | none =>
      by_cases h : a.1 = key
      · simp [h]
      · simp [Std.ExtTreeMap.getElem?_insert, h]

/-- The color of a key is that of its last assignment. -/
theorem getElem?_ofAssignments (as : List (Text × Text)) (key : Text) :
    (ofAssignments as)[key]? = (as.reverse.find? (·.1 == key)).map (·.2) := by
  simp [ofAssignments, getElem?_foldl_insert]

end ColorMap

end Tint
