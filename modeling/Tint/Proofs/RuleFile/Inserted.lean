import Tint.Proofs.Rules.Accepted
import Tint.Proofs.Rules.Queries
set_option autoImplicit false

/-!
# Rules that do not occur

A rule has no effect on a text that it says nothing about: an enclosure whose opening delimiter, a
marker or a word which does not occur in the text, or a color for delimiters that no enclosure has
(`Directive.Occurs`).  Wherever in a file its line is put, also where it replaces the color of a key
or comes to stand between two markers of its length, the text is painted as before
(`RuleFile.render_insert`).

Such a rule answers none of the questions that painting the text may put, so to each of them the two
files have the same answers.
-/

namespace Tint

/-- What the directive looks for occurs in the text; for the color of a name, this is the name of an
enclosure that `ds` declare. -/
def Directive.Occurs (ds : List Directive) (text : Text) : Directive → Prop
  | .enclosure _ e => e.left <:+: text
  | .entry rule => rule.token <:+: text
  | .delimiterColor name _ => ∃ d ∈ ds, d.enclosureName? = some name
  | .docToken word _ => word <:+: text
  | .keyword word _ => word <:+: text

instance (ds : List Directive) (text : Text) : (d : Directive) → Decidable (d.Occurs ds text)
  | .enclosure _ e => inferInstanceAs (Decidable (e.left <:+: text))
  | .entry rule => inferInstanceAs (Decidable (rule.token <:+: text))
  | .delimiterColor name _ => inferInstanceAs (Decidable (∃ d ∈ ds, d.enclosureName? = some name))
  | .docToken word _ => inferInstanceAs (Decidable (word <:+: text))
  | .keyword word _ => inferInstanceAs (Decidable (word <:+: text))

theorem Directive.occurs_of_answers {ds : List Directive} {text : Text} {q : Query} {d : Directive}
    (hasked : q.AskedOf ds text) (h : d.answers q = true) : d.Occurs ds text := by
  cases answer_of_answers h with
  | opening starts => exact starts.isInfix.trans (List.IsSuffix.isInfix hasked)
  | marker rule => exact hasked
  | delimiterColor name color => exact hasked
  | docToken word color => exact hasked
  | keyword word color => exact hasked

namespace RuleSet

variable {text : Text}

/-- A directive that does not occur may be left out. -/
theorem agreeOn_insert {before after : List Directive} {d : Directive}
    (h : ¬ d.Occurs (before ++ after) text) :
    (ofDirectives (before ++ after)).AgreeOn text (ofDirectives (before ++ d :: after)) := by
  refine agreeOn_ofDirectives fun q hasked => ?_
  have hanswers : ¬ d.answers q = true := fun hd => h (Directive.occurs_of_answers hasked hd)
  rw [List.filter_append, List.filter_append, List.filter_cons_of_neg hanswers]

/-- Where nothing opens it makes no difference what colors delimiters have. -/
theorem agreeOn_of_not_occurs {ds : List Directive} (h : ∀ d ∈ ds, ¬ d.Occurs [] text) :
    (ofDirectives []).AgreeOn text (ofDirectives ds) := by
  refine agreeOn_ofDirectives fun q hasked => ?_
  have hnone : ds.filter (Directive.answers q) = [] :=
    List.filter_eq_nil_iff.2 fun d hd hanswers => h d hd (Directive.occurs_of_answers hasked hanswers)
  rw [hnone, List.filter_nil]

end RuleSet

namespace RuleFile

/-- A line whose rule does not occur in a text can be put anywhere in a file, and a text in which no
rule of the file occurs is only escaped. -/
theorem render_insert {file : Text} {contents : Contents} (hread : read file = .ok contents)
    (text : Text) :
    (∀ (file' first line : Text) (before after : List Text) (d : Directive),
      file.lines = first :: (before ++ after) → file'.lines = first :: (before ++ line :: after) →
      readLine line = .accepted d → ¬ d.Occurs (accepted file) text →
      ∃ contents' : Contents, read file' = .ok contents' ∧
        contents'.rules.render text = contents.rules.render text) ∧
    ((∀ d ∈ accepted file, ¬ d.Occurs [] text) →
      contents.rules.render text = Markup.escape text) := by
  obtain ⟨first, body, hlines, hfirst, rfl⟩ := read_eq_ok_iff.1 hread
  rw [accepted_of_lines hlines]
  constructor
  · intro file' first' line before after d hlines₁ hlines₂ hline hoccurs
    cases hlines.symm.trans hlines₁
    refine ⟨_, read_of_lines hlines₂ hfirst, ?_⟩
    have haccepted : acceptedIn (before ++ line :: after) =
        acceptedIn before ++ d :: acceptedIn after := by
      rw [acceptedIn_append, acceptedIn, acceptedIn, acceptedIn, List.filterMap_cons, hline]
      rfl
    rw [acceptedIn_append] at hoccurs
    rw [contentsOf, contentsOf, haccepted, acceptedIn_append]
    exact (RuleSet.agreeOn_insert hoccurs).render_eq.symm
  · intro hoccurs
    exact (RuleSet.agreeOn_of_not_occurs hoccurs).render_eq.symm.trans (RuleSet.render_empty text)

/-- A keyword gets another color and an enclosure comes in front of a longer one, neither of which
occurs. -/
theorem render_insert_overwriting :
    let first : Text := "%highlight voice: snow-bud v1.3%".toList
    let file : Text := first ++ "\nelse #111\n*>enclose c /// .\nint #222".toList
    let file' : Text := first ++ "\nelse #111\nelse #333\n*>enclose c /// .\nint #222".toList
    ∃ contents contents' : Contents, read file = .ok contents ∧ read file' = .ok contents' ∧
      contents.rules.keyword? "else".toList = some "#111".toList ∧
      contents'.rules.keyword? "else".toList = some "#333".toList ∧
      contents'.rules.render "int <//>".toList = contents.rules.render "int <//>".toList ∧
      contents.rules.render "<//>".toList = "&lt;//&gt;".toList := by
  intro first file file'
  have hread : read file = .ok (contentsOf file.lines.tail) := rfl
  have haccepted : accepted file = [.keyword "else".toList "#111".toList,
      .enclosure .strong ⟨"c".toList, "///".toList, ".".toList⟩,
      .keyword "int".toList "#222".toList] := rfl
  have helse : ¬ (Directive.keyword "else".toList "#333".toList).Occurs (accepted file)
      "int <//>".toList := by
    rw [haccepted]
    decide +kernel
  have hnone : ∀ d ∈ accepted file, ¬ d.Occurs [] "<//>".toList := by
    rw [haccepted]
    decide +kernel
  obtain ⟨contents', hread', hrender⟩ := (render_insert hread "int <//>".toList).1 file' first
    "else #333".toList ["else #111".toList] ["*>enclose c /// .".toList, "int #222".toList]
    (.keyword "else".toList "#333".toList) rfl rfl rfl helse
  have hescape := (render_insert hread "<//>".toList).2 hnone
  refine ⟨_, contents', hread, hread', rfl, ?_, hrender, hescape⟩
  cases hread'
  rfl

end RuleFile

end Tint
