import Tint.Proofs.Rules.WellFormed
set_option autoImplicit false

/-!
# What a rule set holds

The rule set of a file is fixed by its accepted lines (`RuleFile.accepted`).  `RuleSet.Holds` says
what becomes of them: the enclosures of a tier stay in file order, and the entry rules are put
longest marker first without losing any, in file order where the markers are equally long.

A color map adds demands on its keys (`RuleSet.KeysFit`).  They hold because a key ends at the first
blank of its line and the line has no blank in front; so a keyword is never empty, and it is not a
key of one of the other two maps.
-/

namespace Tint

/-- No blank is in the text. -/
def Text.Unbroken (t : Text) : Prop := ∀ c ∈ t, isBlank c = false

/-- What a keyword looks like: it would not be read as the key of another map. -/
structure Text.IsKeyword (word : Text) : Prop where
  unbroken : word.Unbroken
  ne_nil : word ≠ []
  not_delimiterColor : ¬ "--".toList <+: word
  not_docToken : ¬ "+-".toList <+: word

/-- The trimmed text does not start with a blank. -/
theorem Text.not_isBlank_of_trim {t r : Text} {c : Char} (h : t.trim = c :: r) :
    isBlank c = false := by
  -- what trimming at the end leaves is a front of what trimming at the start has left
  have hfront : t.trim <+: t.dropWhile isBlank := by
    rw [trim, ← List.reverse_suffix, List.reverse_reverse]
    exact List.dropWhile_suffix _
  rw [h] at hfront
  obtain ⟨after, hafter⟩ := hfront
  have hhead := List.head?_dropWhile_not isBlank t
  rw [← hafter] at hhead
  simpa using hhead

/-! ## Keys -/

/-- What the key of an accepted line looks like. -/
def Directive.KeyFits : Directive → Prop
  | .delimiterColor name _ => name.Unbroken
  | .docToken word _ => word.Unbroken
  | .keyword word _ => word.IsKeyword
  | _ => True

namespace RuleFile

theorem keyFits_assign {key : Text} (hkey : key.Unbroken) (hne : key ≠ []) (color : Text) :
    (assign key color).KeyFits := by
  have htail {c : Char} {r : Text} (h : Text.Unbroken (c :: r)) : Text.Unbroken r :=
    fun d hd => h d (List.mem_cons_of_mem c hd)
  unfold assign
  split
  · exact htail (htail hkey)
  · exact htail (htail hkey)
  · rename_i hdash hplus
    refine ⟨hkey, hne, ?_, ?_⟩
    · rintro ⟨name, hname⟩
      exact hdash name hname.symm
    · rintro ⟨word, hword⟩
      exact hplus word hword.symm

theorem keyFits_of_readLine {line : Text} {d : Directive} (h : readLine line = .accepted d) :
    d.KeyFits := by
  cases reads_of_readLine h with
  | enclosure => trivial
  | entry => trivial
  | assignment _ cut _ =>
    obtain ⟨c, hc, hparts, hkey⟩ := Text.cutAt?_eq_some_iff.1 cut
    refine keyFits_assign hkey ?_ _
    rintro rfl
    rw [Text.not_isBlank_of_trim hparts] at hc
    cases hc

/-! ## The accepted lines of a file -/

/-- The rules of the accepted lines below the header, in file order. -/
def accepted (file : Text) : List Directive :=
  file.lines.tail.filterMap fun line => (readLine line).directive?

theorem accepted_of_lines {file first : Text} {body : List Text} (h : file.lines = first :: body) :
    accepted file = acceptedIn body := by
  rw [accepted, h]
  rfl

theorem rules_of_read {file : Text} {contents : Contents} (h : read file = .ok contents) :
    contents.rules = .ofDirectives (accepted file) := by
  obtain ⟨first, body, hlines, -, rfl⟩ := read_eq_ok_iff.1 h
  rw [accepted_of_lines hlines]
  rfl

end RuleFile

/-! ## Rule sets -/

namespace RuleSet

/-- The keys of the three maps are as a line can give them. -/
structure KeysFit (rules : RuleSet) : Prop where
  delimiterColor : ∀ {name color}, rules.delimiterColor? name = some color → name.Unbroken
  docToken : ∀ {word color}, rules.docToken? word = some color → word.Unbroken
  keyword : ∀ {word color}, rules.keyword? word = some color → word.IsKeyword

/-- The rules hold the enclosures and the entry rules of the directives, the former in their order,
the latter by the length of their markers. -/
structure Holds (rules : RuleSet) (ds : List Directive) : Prop where
  enclosures_eq : ∀ tier, (rules.enclosures tier).rules = ds.filterMap (Directive.enclosure? tier)
  entries_perm : rules.entries.Perm (ds.filterMap Directive.entry?)
  entries_descend : rules.entries.Pairwise fun a b => b.token.length ≤ a.token.length
  /-- entry rules with markers of one length keep their order -/
  entries_stable : ∀ n, rules.entries.filter (fun r => r.token.length == n) =
    (ds.filterMap Directive.entry?).filter fun r => r.token.length == n

theorem holds_ofDirectives (ds : List Directive) : (ofDirectives ds).Holds ds where
  enclosures_eq tier := rules_enclosures_ofDirectives tier ds
  entries_perm := longestFirst_perm _ _
  entries_descend := longestFirst_sorted _ _
  entries_stable n := filter_longestFirst _ n _

theorem keysFit_ofDirectives {ds : List Directive} (h : ∀ d ∈ ds, d.KeyFits) :
    (ofDirectives ds).KeysFit := by
  have hmem {f : Directive → Option (Text × Text)} {key color : Text}
      (hk : (ColorMap.ofAssignments (ds.filterMap f))[key]? = some color) :
      ∃ d, d.KeyFits ∧ f d = some (key, color) := by
    obtain ⟨d, hd, hfd⟩ := List.mem_filterMap.1 (ColorMap.mem_of_getElem? hk)
    exact ⟨d, h d hd, hfd⟩
  refine ⟨?_, ?_, ?_⟩
  · intro name color hk
    obtain ⟨d, hfits, hd⟩ := hmem hk
    cases Directive.eq_of_delimiterColor? hd
    exact hfits
  · intro word color hk
    obtain ⟨d, hfits, hd⟩ := hmem hk
    cases Directive.eq_of_docToken? hd
    exact hfits
  · intro word color hk
    obtain ⟨d, hfits, hd⟩ := hmem hk
    cases Directive.eq_of_keyword? hd
    exact hfits

/-- The rules of a file have delimiters and markers that are not empty and colors that are color
codes without blanks, their keys are as they should be, and they hold what the accepted lines say,
in the order that painting relies on. -/
theorem holds_accepted_of_read {file : Text} {contents : RuleFile.Contents}
    (h : RuleFile.read file = .ok contents) :
    contents.rules.WellFormed ∧ contents.rules.KeysFit ∧
      contents.rules.Holds (RuleFile.accepted file) := by
  refine ⟨RuleFile.wellFormed_of_read h, ?_, ?_⟩
  · rw [RuleFile.rules_of_read h]
    apply keysFit_ofDirectives
    intro d hd
    obtain ⟨line, -, hline⟩ := RuleFile.readLine_of_mem_acceptedIn hd
    exact RuleFile.keyFits_of_readLine hline
  · rw [RuleFile.rules_of_read h]
    exact holds_ofDirectives _

/-- A longer marker below two of one length, a delimiter that is empty, a key of dashes only and a
keyword that has a directive's name. -/
theorem holds_accepted_of_read_mixed :
    ∃ contents, RuleFile.read ("%highlight voice: snow-bud v1.3%\n*entry : #0f0\n".toList ++
        "*entry . #00f\n*entry :: #f00\n*>enclose c  x\n-- #999\n*entry\t#fff".toList) =
          .ok contents ∧
      contents.rules.WellFormed ∧ contents.rules.KeysFit ∧
      contents.rules.Holds [.entry ⟨":".toList, "#0f0".toList⟩, .entry ⟨".".toList, "#00f".toList⟩,
        .entry ⟨"::".toList, "#f00".toList⟩, .delimiterColor [] "#999".toList,
        .keyword "*entry".toList "#fff".toList] := by
  have hread : RuleFile.read ("%highlight voice: snow-bud v1.3%\n*entry : #0f0\n".toList ++
      "*entry . #00f\n*entry :: #f00\n*>enclose c  x\n-- #999\n*entry\t#fff".toList) =
        .ok ⟨.ofDirectives [.entry ⟨":".toList, "#0f0".toList⟩, .entry ⟨".".toList, "#00f".toList⟩,
          .entry ⟨"::".toList, "#f00".toList⟩, .delimiterColor [] "#999".toList,
          .keyword "*entry".toList "#fff".toList],
          [⟨5, .emptyDelimiter .strong "c".toList, "*>enclose c  x".toList⟩]⟩ := rfl
  exact ⟨_, hread, holds_accepted_of_read hread⟩

end RuleSet

end Tint
