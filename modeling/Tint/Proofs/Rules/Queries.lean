import Tint.Proofs.Paint.Agreement
set_option autoImplicit false

/-!
# What directives answer

A painting puts a few kinds of questions to the rules (`Query`), and a directive has an answer to
some of them (`Directive.answers`).  What the rules say depends on no more than the directives that
have an answer, in their order.  So two lists of directives with the same ones for every question
that painting a text may put (`Query.AskedOf`) agree on the text (`RuleSet.agreeOn_ofDirectives`).

Of the markers that stand at one place the longest counts, and of those of one length the first.
As markers of one length at one place are equal, it is enough to ask for one token at a time.
-/

namespace Tint

/-- What a painting asks of the rules. -/
inductive Query where
  /-- which enclosure of the tier opens at the front of `rest` -/
  | opening (tier : Tier) (rest : Text)
  /-- which rule has the marker -/
  | marker (token : Text)
  /-- which color the delimiters of a name have -/
  | delimiterColor (name : Text)
  /-- which color a word has inside doc enclosures -/
  | docToken (word : Text)
  /-- which color a word has outside all enclosures -/
  | keyword (word : Text)

/-- The name of the enclosure that the directive declares. -/
def Directive.enclosureName? : Directive → Option Text
  | .enclosure _ rule => some rule.name
  | _ => none

/-- The question may come up when a text is painted by the rules that `ds` declare. -/
def Query.AskedOf (ds : List Directive) (text : Text) : Query → Prop
  | .opening _ rest => rest <:+ text
  | .marker token => token <:+: text
  | .delimiterColor name => ∃ d ∈ ds, d.enclosureName? = some name
  | .docToken word => word <:+: text
  | .keyword word => word <:+: text

namespace Directive

/-- The directive has an answer. -/
def answers : Query → Directive → Bool
  | .opening tier rest, d => (d.enclosure? tier).any (rest.startsWith ·.left)
  | .marker token, d => d.entry?.any (·.token == token)
  | .delimiterColor name, d => d.delimiterColor?.any (·.1 == name)
  | .docToken word, d => d.docToken?.any (·.1 == word)
  | .keyword word, d => d.keyword?.any (·.1 == word)

/-- What a directive must be to answer a question. -/
inductive Answer : Query → Directive → Prop where
  | opening {tier : Tier} {rest : Text} {e : Enclosure} (starts : e.left <+: rest) :
      Answer (.opening tier rest) (.enclosure tier e)
  | marker (rule : EntryRule) : Answer (.marker rule.token) (.entry rule)
  | delimiterColor (name color : Text) :
      Answer (.delimiterColor name) (.delimiterColor name color)
  | docToken (word color : Text) : Answer (.docToken word) (.docToken word color)
  | keyword (word color : Text) : Answer (.keyword word) (.keyword word color)

theorem answer_of_answers {q : Query} {d : Directive} (h : d.answers q = true) : Answer q d := by
  cases q with
  | opening tier rest =>
    obtain ⟨e, he, hstarts⟩ := (Option.any_eq_true _ _).1 h
    cases eq_of_enclosure? he
    exact .opening (Text.startsWith_iff.1 hstarts)
  | marker token =>
    obtain ⟨rule, hrule, htoken⟩ := (Option.any_eq_true _ _).1 h
    cases eq_of_entry? hrule
    cases eq_of_beq htoken
    exact .marker rule
  | delimiterColor name =>
    obtain ⟨a, ha, hname⟩ := (Option.any_eq_true _ _).1 h
    cases eq_of_delimiterColor? ha
    cases eq_of_beq hname
    exact .delimiterColor a.1 a.2
  | docToken word =>
    obtain ⟨a, ha, hword⟩ := (Option.any_eq_true _ _).1 h
    cases eq_of_docToken? ha
    cases eq_of_beq hword
    exact .docToken a.1 a.2
  | keyword word =>
    obtain ⟨a, ha, hword⟩ := (Option.any_eq_true _ _).1 h
    cases eq_of_keyword? ha
    cases eq_of_beq hword
    exact .keyword a.1 a.2

end Directive

/-! ## Answers of the rules -/

theorem filter_filterMap_any {α β : Type} (f : α → Option β) (p : β → Bool) (l : List α) :
    (l.filterMap f).filter p = (l.filter fun a => (f a).any p).filterMap f := by
  rw [List.filter_filterMap, List.filterMap_filter]
  congr 1
  funext a
  cases f a with
  | none => rfl
  | some b => cases hb : p b <;> simp [Option.filter, hb]

namespace EntryMatch

/-- The marker of the rule stands at the front of `rest`. -/
def stands (rest : Text) (rule : EntryRule) : Bool :=
  !rule.token.isEmpty && rest.startsWith rule.token

theorem markerAt?_eq_head? (rules : List EntryRule) (rest : Text) :
    markerAt? rules rest = (rules.filter (stands rest)).head? :=
  List.head?_filter.symm

/-- A marker of `n` characters that stands at a place is the front of the rest. -/
theorem filter_stands (rest : Text) (n : Nat) (rules : List EntryRule) :
    (rules.filter fun r => r.token.length == n).filter (stands rest) =
      (rules.filter fun r => r.token == rest.take n).filter fun r =>
        stands rest r && r.token.length == n := by
  rw [List.filter_filter, List.filter_filter]
  congr 1
  funext r
  rw [Bool.eq_iff_iff]
  simp only [stands, Bool.and_eq_true, Text.startsWith_iff, beq_iff_eq]
  constructor
  · rintro ⟨hstands, hn⟩
    refine ⟨⟨hstands, hn⟩, ?_⟩
    rw [List.prefix_iff_eq_take.1 hstands.2, hn]
  · exact And.left

variable {rules rules' : List EntryRule} {rest : Text}

/-- The rules whose markers stand at a place are fixed, longest marker first, by the rules of each
of these markers. -/
theorem filter_stands_longestFirst (h : ∀ token, token <+: rest →
      rules.filter (·.token == token) = rules'.filter (·.token == token)) :
    (longestFirst (fun r => r.token.length) rules).filter (stands rest) =
      (longestFirst (fun r => r.token.length) rules').filter (stands rest) := by
  have hsorted (rules : List EntryRule) :
      ((longestFirst (fun r => r.token.length) rules).filter (stands rest)).Pairwise
        fun a b => b.token.length ≤ a.token.length :=
    (longestFirst_sorted (fun r : EntryRule => r.token.length) rules).filter (stands rest)
  have hlength (rules : List EntryRule) (n : Nat) :
      ((longestFirst (fun r => r.token.length) rules).filter (stands rest)).filter
          (fun r => r.token.length == n) =
        (rules.filter fun r => r.token == rest.take n).filter fun r =>
          stands rest r && r.token.length == n := by
    rw [List.filter_comm, filter_longestFirst (fun r : EntryRule => r.token.length), filter_stands]
  refine eq_of_filter_eq (hsorted rules) (hsorted rules') fun n => ?_
  rw [hlength, hlength, h _ (List.take_prefix n rest)]

end EntryMatch

namespace RuleSet

variable {ds ds' : List Directive}

theorem openAt?_ofDirectives (ds : List Directive) (tier : Tier) (rest : Text) :
    ((ofDirectives ds).enclosures tier).openAt? rest =
      ((ds.filter (Directive.answers (.opening tier rest))).filterMap
        (Directive.enclosure? tier)).head? := by
  rw [EnclosureSet.openAt?_eq_find?, rules_enclosures_ofDirectives, ← List.head?_filter,
    filter_filterMap_any]
  rfl

/-- The color of a key is the last one that is assigned to it. -/
theorem getElem?_ofAssignments_filterMap (color? : Directive → Option (Text × Text))
    (ds : List Directive) (key : Text) :
    (ColorMap.ofAssignments (ds.filterMap color?))[key]? =
      ((ds.filter fun d => (color? d).any (·.1 == key)).filterMap color?).getLast?.map (·.2) := by
  rw [ColorMap.getElem?_ofAssignments, ← List.head?_filter, List.filter_reverse, List.head?_reverse,
    filter_filterMap_any]

theorem getElem?_ofAssignments_congr {color? : Directive → Option (Text × Text)} {key : Text}
    (h : ds.filter (fun d => (color? d).any (·.1 == key)) =
      ds'.filter fun d => (color? d).any (·.1 == key)) :
    (ColorMap.ofAssignments (ds.filterMap color?))[key]? =
      (ColorMap.ofAssignments (ds'.filterMap color?))[key]? := by
  rw [getElem?_ofAssignments_filterMap, getElem?_ofAssignments_filterMap, h]

/-- The color maps are the same when the assignments to each key are. -/
theorem ofAssignments_filterMap_congr {color? : Directive → Option (Text × Text)}
    (h : ∀ key, ds.filter (fun d => (color? d).any (·.1 == key)) =
      ds'.filter fun d => (color? d).any (·.1 == key)) :
    ColorMap.ofAssignments (ds.filterMap color?) = .ofAssignments (ds'.filterMap color?) :=
  Std.ExtTreeMap.ext_getElem? fun key => getElem?_ofAssignments_congr (h key)

theorem markerAt?_ofDirectives_congr {rest : Text}
    (h : ∀ token, token <+: rest → ds.filter (Directive.answers (.marker token)) =
      ds'.filter (Directive.answers (.marker token))) :
    EntryMatch.markerAt? (ofDirectives ds).entries rest =
      EntryMatch.markerAt? (ofDirectives ds').entries rest := by
  rw [EntryMatch.markerAt?_eq_head?, EntryMatch.markerAt?_eq_head?]
  refine congrArg List.head? (EntryMatch.filter_stands_longestFirst fun token htoken => ?_)
  rw [filter_filterMap_any, filter_filterMap_any]
  exact congrArg (List.filterMap Directive.entry?) (h token htoken)

/-- Directives with the same answers to every question that the text gives rise to. -/
theorem agreeOn_ofDirectives {text : Text}
    (h : ∀ q : Query, q.AskedOf ds text →
      ds.filter (Directive.answers q) = ds'.filter (Directive.answers q)) :
    (ofDirectives ds).AgreeOn text (ofDirectives ds') := by
  constructor
  · intro tier rest hrest
    rw [openAt?_ofDirectives, openAt?_ofDirectives, h (.opening tier rest) hrest]
  · intro rest hrest
    exact markerAt?_ofDirectives_congr fun token htoken =>
      h (.marker token) (htoken.isInfix.trans hrest.isInfix)
  · intro tier e he
    rw [rules_enclosures_ofDirectives] at he
    obtain ⟨d, hd, hde⟩ := List.mem_filterMap.1 he
    cases Directive.eq_of_enclosure? hde
    have hname := h (.delimiterColor e.name) ⟨_, hd, rfl⟩
    exact congrArg (Option.getD · defaultDelimiterColor) (getElem?_ofAssignments_congr hname)
  · intro word hword
    exact getElem?_ofAssignments_congr (h (.docToken word) hword)
  · intro word hword
    exact getElem?_ofAssignments_congr (h (.keyword word) hword)

end RuleSet

end Tint
