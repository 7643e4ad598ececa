import Tint.Proofs.RuleFile.Contents
set_option autoImplicit false

/-!
# Rule files put together

The lines of one rule file are put below those of another one, under a single header.  What the
file then says is made of what the two files said (`read_append`), since no line bears on how
another one is read:

* the enclosures of a tier are those of the one file and then those of the other, and a key has the
  color that the other file gives it, if it gives one (`RuleSet.Joins`);
* the entry rules of both are sorted anew.  Both lists are longest marker first already, and within
  one length in file order, so sorting them together is sorting all entry rules at once;
* the diagnostics of the other file follow, with the numbers that its lines have now.
-/

namespace Tint

/-- The same report with `n` more lines above its own. -/
def Diagnostic.below (n : Nat) (d : Diagnostic) : Diagnostic := { d with line := d.line + n }

/-- The rules are those of a first and of a second file. -/
structure RuleSet.Joins (rules first second : RuleSet) : Prop where
  enclosures_eq : ∀ tier, (rules.enclosures tier).rules =
    (first.enclosures tier).rules ++ (second.enclosures tier).rules
  /-- longest marker first, and in their order where the markers are equally long -/
  entries_eq : rules.entries =
    (first.entries ++ second.entries).mergeSort fun a b => b.token.length ≤ a.token.length
  delimiterColor_eq : ∀ name,
    rules.delimiterColor? name = (second.delimiterColor? name).or (first.delimiterColor? name)
  docToken_eq : ∀ word, rules.docToken? word = (second.docToken? word).or (first.docToken? word)
  keyword_eq : ∀ word, rules.keyword? word = (second.keyword? word).or (first.keyword? word)

/-! ## Rules -/

theorem ColorMap.getElem?_ofAssignments_append (as bs : List (Text × Text)) (key : Text) :
    (ofAssignments (as ++ bs))[key]? = (ofAssignments bs)[key]?.or (ofAssignments as)[key]? := by
  rw [getElem?_ofAssignments bs, ofAssignments, List.foldl_append, getElem?_foldl_insert]
  rfl

theorem RuleSet.joins_ofDirectives (ds ds' : List Directive) :
    (ofDirectives (ds ++ ds')).Joins (ofDirectives ds) (ofDirectives ds') := by
  have hcolor (f : Directive → Option (Text × Text)) (key : Text) :
      (ColorMap.ofAssignments ((ds ++ ds').filterMap f))[key]? =
        (ColorMap.ofAssignments (ds'.filterMap f))[key]?.or
          (ColorMap.ofAssignments (ds.filterMap f))[key]? := by
    rw [List.filterMap_append, ColorMap.getElem?_ofAssignments_append]
  refine ⟨?_, ?_, hcolor _, hcolor _, hcolor _⟩
  · intro tier
    simp only [rules_enclosures_ofDirectives, List.filterMap_append]
  · rw [← longestFirst_eq_mergeSort fun r : EntryRule => r.token.length]
    simp only [ofDirectives, List.filterMap_append, longestFirst_append]

/-! ## Diagnostics -/

namespace RuleFile

theorem diagnose?_add (n m : Nat) (line : ReadLine) :
    diagnose? (n + m) line = (diagnose? n line).map (Diagnostic.below m) := by
  rw [diagnose?, diagnose?, Option.map_map]
  rfl

theorem diagnosticsFrom_add (n m : Nat) (body : List ReadLine) :
    diagnosticsFrom (n + m) body = (diagnosticsFrom n body).map (Diagnostic.below m) := by
  induction body generalizing n with
  | nil => rfl
  | cons line body ih =>
    rw [diagnosticsFrom_cons, diagnosticsFrom_cons, List.map_append, ← ih, diagnose?_add,
      Nat.add_right_comm]
    cases diagnose? n line <;> rfl

/-! ## Files -/

/-- A file whose lines are those of two files below one header holds the rules of both, and the
diagnostics of both. -/
theorem read_append {first : Text} (hline : '\n' ∉ first) (hfirst : first.trim = header)
    (a b : Text) :
    ∃ above below both : Contents,
      read (first ++ '\n' :: a) = .ok above ∧
      read (first ++ '\n' :: b) = .ok below ∧
      read (first ++ '\n' :: (a ++ '\n' :: b)) = .ok both ∧
      both.rules.Joins above.rules below.rules ∧
      both.diagnostics =
        above.diagnostics ++ below.diagnostics.map (Diagnostic.below a.lines.length) := by
  have hlines (t : Text) : (first ++ '\n' :: t).lines = first :: t.lines := by
    rw [Text.lines_append_newline, Text.lines, Text.pieces_of_notMem hline, List.singleton_append]
  have hread (t : Text) : read (first ++ '\n' :: t) = .ok (contentsOf t.lines) :=
    read_of_lines (hlines t) hfirst
  refine ⟨_, _, _, hread a, hread b, hread _, ?_, ?_⟩
  · simp only [contentsOf, Text.lines_append_newline, acceptedIn_append]
    exact RuleSet.joins_ofDirectives _ _
  · have hlength : (readings a.lines).length = a.lines.length := List.length_map _
    simp only [contentsOf, Text.lines_append_newline, readings_append, diagnosticsFrom_append,
      diagnosticsFrom_add, hlength]

/-- The second file gives a keyword another color and brings a longer marker; both have a bad
line. -/
theorem read_append_overriding :
    let first : Text := " %highlight voice: snow-bud v1.3%\r".toList
    let a : Text := "*entry : #0f0\nint #111\n\n// red\nint blue".toList
    let b : Text := "int #222\n*entry\n*entry :: #f00\n*entry .".toList
    '\n' ∉ first ∧ first.trim = header ∧
    ∃ above below both : Contents,
      read (first ++ '\n' :: a) = .ok above ∧
      read (first ++ '\n' :: b) = .ok below ∧
      read (first ++ '\n' :: (a ++ '\n' :: b)) = .ok both ∧
      both.rules.Joins above.rules below.rules ∧
      above.diagnostics = [⟨6, .notAColor "blue".toList, "int blue".toList⟩] ∧
      below.diagnostics = [⟨5, .incompleteEntry, "*entry .".toList⟩] ∧
      both.diagnostics = [⟨6, .notAColor "blue".toList, "int blue".toList⟩,
        ⟨10, .incompleteEntry, "*entry .".toList⟩] := by
  intro first a b
  have hline : '\n' ∉ first := by decide
  have hfirst : first.trim = header := rfl
  obtain ⟨above, below, both, habove, hbelow, hboth, hjoins, hdiagnostics⟩ :=
    read_append hline hfirst a b
  have habove' : above.diagnostics = [⟨6, .notAColor "blue".toList, "int blue".toList⟩] := by
    cases habove
    rfl
  have hbelow' : below.diagnostics = [⟨5, .incompleteEntry, "*entry .".toList⟩] := by
    cases hbelow
    rfl
  refine ⟨hline, hfirst, above, below, both, habove, hbelow, hboth, hjoins, habove', hbelow', ?_⟩
  rw [hdiagnostics, habove', hbelow']
  rfl

end RuleFile

end Tint
