import Tint.Proofs.Rules.Accepted
import Tint.Proofs.Rules.Count
set_option autoImplicit false

/-!
# An account of every line

A bad line of a rule file costs itself and nothing else.  Of each line below the header exactly one
thing becomes (`RuleFile.Fate`): it is skipped, or there is one diagnostic on it, or it adds one
directive to the rules.  `RuleFile.Account` says so of a whole file, with what follows from it:
diagnostics come in file order and point back to their lines, without the lines that add nothing
the file says the same and nothing is reported, and the number of rules is that of the enclosures,
the entry rules and the keys that have been given a color.
-/

namespace Tint

namespace RuleFile

/-! ## Skipped lines -/

/-- A line that says nothing: a blank one, a comment or a single word. -/
def IsIdle (line : Text) : Prop :=
  line.trim = [] ∨ "//".toList <+: line.trim ∨ line.trim.Unbroken

/-- A directive is followed by a space. -/
theorem bodyAfter?_of_unbroken {word line : Text} (h : line.Unbroken) :
    bodyAfter? word line = none := by
  unfold bodyAfter?
  rw [if_neg]
  rw [Text.startsWith_iff]
  intro hfront
  have hspace := h ' ' (hfront.subset (List.mem_append_right word List.mem_cons_self))
  exact absurd hspace (by decide)

theorem readLine_eq_skipped_iff {line : Text} : readLine line = .skipped ↔ IsIdle line := by
  constructor
  · intro h
    cases reads_of_readLine h with
    | nothing idle => exact idle.imp_right Or.inl
    | word _ uncut => exact Or.inr (Or.inr (Text.cutAt?_eq_none_iff.1 uncut))
  · unfold readLine readTrimmed
    rintro (hnil | hcomment | hunbroken)
    · rw [hnil]
      rfl
    · rw [Text.startsWith_iff.2 hcomment, Bool.or_true, if_pos rfl]
    · split
      · rfl
      · simp only [bodyAfter?_of_unbroken hunbroken]
        rw [readAssignment, Text.cutAt?_eq_none_iff.2 hunbroken]

/-! ## What becomes of a line -/

/-- What a line adds to the rules. -/
def adds (line : Text) : List Directive := (readLine line).directive?.toList

/-- What becomes of the line of a number, by the reports on it and the directives that it adds. -/
inductive Fate (number : Nat) (line : Text) : List Diagnostic → List Directive → Prop where
  | skipped (idle : IsIdle line) : Fate number line [] []
  | reported (busy : ¬ IsIdle line) (problem : Problem) :
      Fate number line [⟨number, problem, line.trim⟩] []
  | accepted (busy : ¬ IsIdle line) (directive : Directive) : Fate number line [] [directive]

theorem fate_line (number : Nat) (line : Text) :
    Fate number line (diagnose? number (line, readLine line)).toList (adds line) := by
  have hbusy (h : readLine line ≠ .skipped) : ¬ IsIdle line := fun hidle =>
    h (readLine_eq_skipped_iff.2 hidle)
  unfold adds diagnose?
  cases hread : readLine line with
  | skipped => exact .skipped (readLine_eq_skipped_iff.1 hread)
  | rejected p => exact .reported (hbusy (by simp [hread])) p
  | accepted d => exact .accepted (hbusy (by simp [hread])) d

theorem accepted_eq_flatMap (file : Text) : accepted file = file.lines.tail.flatMap adds :=
  List.filterMap_eq_flatMap_toList _ _

/-- The rejected color has lost its blanks, and is no color code. -/
theorem notAColor_of_readLine {line color : Text}
    (h : readLine line = .rejected (.notAColor color)) :
    color.Unbroken ∧ Color.isCode color = false := by
  cases reads_of_readLine h with
  | entryColor _ _ not_code => exact ⟨fun _ => Text.not_isBlank_of_mem_stripBlanks, not_code⟩
  | assignedColor _ _ not_code => exact ⟨fun _ => Text.not_isBlank_of_mem_stripBlanks, not_code⟩

/-! ## Diagnostics -/

/-- The diagnostics of the number of a line are the report on that line. -/
theorem filter_diagnosticsFrom {n i : Nat} {body : List Text} {line : Text}
    (h : body[i]? = some line) :
    (diagnosticsFrom n (readings body)).filter (fun d => d.line == n + i) =
      (diagnose? (n + i) (line, readLine line)).toList := by
  induction body generalizing n i with
  | nil => cases h
  | cons top body ih =>
    rw [readings, List.map_cons, diagnosticsFrom_cons, List.filter_append]
    have hnumber {d : Diagnostic} (hd : d ∈ (diagnose? n (top, readLine top)).toList) :
        d.line = n := (diagnose?_eq_some_iff.1 (Option.mem_toList.1 hd)).1
    cases i with
    | zero =>
      cases h
      have hhere : (diagnose? n (line, readLine line)).toList.filter (fun d => d.line == n + 0) =
          (diagnose? n (line, readLine line)).toList :=
        List.filter_eq_self.2 fun d hd => beq_iff_eq.2 (hnumber hd)
      have hlater : (diagnosticsFrom (n + 1) (readings body)).filter
          (fun d => d.line == n + 0) = [] := by
        refine List.filter_eq_nil_iff.2 fun d hd => ?_
        obtain ⟨j, -, -, hj, -⟩ := mem_diagnosticsFrom hd
        rw [beq_iff_eq]
        omega
      rw [hhere]
      exact (congrArg _ hlater).trans (List.append_nil _)
    | succ i =>
      have hearlier : (diagnose? n (top, readLine top)).toList.filter
          (fun d => d.line == n + (i + 1)) = [] := by
        refine List.filter_eq_nil_iff.2 fun d hd => ?_
        have := hnumber hd
        rw [beq_iff_eq]
        omega
      have hlater := ih (n := n + 1) (i := i) h
      rw [Nat.add_right_comm, Nat.add_assoc] at hlater
      rw [hearlier, List.nil_append]
      exact hlater

theorem pairwise_diagnosticsFrom (n : Nat) (body : List Text) :
    (diagnosticsFrom n (readings body)).Pairwise fun a b => a.line < b.line := by
  induction body generalizing n with
  | nil => exact .nil
  | cons line body ih =>
    rw [readings, List.map_cons, diagnosticsFrom_cons]
    refine List.pairwise_append.2 ⟨?_, ih (n + 1), ?_⟩
    · cases diagnose? n (line, readLine line) <;> simp
    · intro a ha b hb
      obtain ⟨hnumber, -⟩ := diagnose?_eq_some_iff.1 (Option.mem_toList.1 ha)
      obtain ⟨i, -, -, hi, -⟩ := mem_diagnosticsFrom hb
      omega

/-! ## The lines that are kept -/

/-- The file without the lines that add nothing to the rules. -/
def kept (file : Text) : Text :=
  .ofLines (file.lines.take 1 ++ file.lines.tail.filter fun line => !(adds line).isEmpty)

/-- What is kept says the same, and without a diagnostic. -/
theorem contentsOf_filter (body : List Text) :
    contentsOf (body.filter fun line => !(adds line).isEmpty) =
      ⟨(contentsOf body).rules, []⟩ := by
  have haccepted : acceptedIn (body.filter fun line => !(adds line).isEmpty) = acceptedIn body := by
    rw [acceptedIn, acceptedIn, List.filterMap_filter]
    congr 1
    funext line
    cases hd : (readLine line).directive? <;> simp [adds, hd]
  have hdiagnostics : diagnosticsFrom 2
      (readings (body.filter fun line => !(adds line).isEmpty)) = [] := by
    refine List.eq_nil_iff_forall_not_mem.2 fun d hd => ?_
    obtain ⟨i, line, hline, -, hrejected, -⟩ := mem_diagnosticsFrom hd
    have hkept := (List.mem_filter.1 (List.mem_of_getElem? hline)).2
    simp [adds, hrejected, LineReading.directive?] at hkept
  rw [contentsOf, haccepted, hdiagnostics]
  rfl

theorem read_kept {file first : Text} {body : List Text} (hlines : file.lines = first :: body)
    (hfirst : first.trim = header) : read (kept file) = .ok ⟨(contentsOf body).rules, []⟩ := by
  have hkept : (kept file).lines =
      first :: body.filter fun line => !(adds line).isEmpty := by
    rw [kept, hlines]
    refine Text.lines_ofLines fun line hline => ?_
    have hmem : line ∈ file.lines := by
      rw [hlines]
      rcases List.mem_cons.1 hline with rfl | hline
      · exact List.mem_cons_self
      · exact List.mem_cons_of_mem _ (List.mem_filter.1 hline).1
    exact Text.notMem_of_mem_pieces hmem
  rw [read_of_lines hkept hfirst, contentsOf_filter]

/-! ## Whole files -/

/-- What has become of the lines of a file, line `i` being the `i + 1`st one. -/
structure Account (file : Text) (contents : Contents) : Prop where
  fate : ∀ i line, 0 < i → file.lines[i]? = some line →
    Fate (i + 1) line (contents.diagnostics.filter fun d => d.line == i + 1) (adds line)
  accepted_eq : accepted file = file.lines.tail.flatMap adds
  /-- the rules are what the lines add, in file order -/
  rules_eq : contents.rules = .ofDirectives (accepted file)
  diagnostics_ascend : contents.diagnostics.Pairwise fun a b => a.line < b.line
  /-- every diagnostic shows the line that has its number -/
  diagnostic : ∀ d ∈ contents.diagnostics, 1 < d.line ∧
    ∃ line, file.lines[d.line - 1]? = some line ∧ d.text = line.trim
  severity : ∀ d ∈ contents.diagnostics,
    d.severity = .error ↔ ∃ color, d.problem = .notAColor color
  notAColor : ∀ d ∈ contents.diagnostics, ∀ color, d.problem = .notAColor color →
    color.Unbroken ∧ Color.isCode color = false
  /-- without the lines that add nothing the rules are the same and nothing is reported -/
  read_kept : read (kept file) = .ok ⟨contents.rules, []⟩
  ruleCount_eq : contents.rules.ruleCount =
    (accepted file).countP Directive.isEnclosure + (accepted file).countP Directive.isEntry +
      (Directive.keys Directive.delimiterColor? (accepted file)).card +
      (Directive.keys Directive.docToken? (accepted file)).card +
      (Directive.keys Directive.keyword? (accepted file)).card

/-- Every file that is read gives an account of each of its lines. -/
theorem account_of_read {file : Text} {contents : Contents} (h : read file = .ok contents) :
    Account file contents := by
  have hrules := rules_of_read h
  obtain ⟨first, body, hlines, hfirst, rfl⟩ := read_eq_ok_iff.1 h
  have hdiagnostic {d : Diagnostic} (hd : d ∈ (contentsOf body).diagnostics) :
      ∃ i line, body[i]? = some line ∧ d.line = 2 + i ∧ readLine line = .rejected d.problem ∧
        d.text = line.trim := mem_diagnosticsFrom hd
  refine ⟨?_, accepted_eq_flatMap file, hrules, pairwise_diagnosticsFrom 2 body, ?_, ?_, ?_,
    read_kept hlines hfirst, ?_⟩
  · intro i line hi hline
    obtain ⟨i, rfl⟩ : ∃ k, i = k + 1 := ⟨i - 1, by omega⟩
    rw [hlines, List.getElem?_cons_succ] at hline
    have hnumber : i + 1 + 1 = 2 + i := by omega
    rw [hnumber, contentsOf, filter_diagnosticsFrom hline]
    exact fate_line (2 + i) line
  · intro d hd
    obtain ⟨i, line, hline, hnumber, -, htext⟩ := hdiagnostic hd
    refine ⟨by omega, line, ?_, htext⟩
    have hindex : d.line - 1 = i + 1 := by omega
    rw [hindex, hlines, List.getElem?_cons_succ, hline]
  · intro d _
    exact Problem.severity_eq_error_iff
  · intro d hd color hcolor
    obtain ⟨i, line, -, -, hrejected, -⟩ := hdiagnostic hd
    rw [hcolor] at hrejected
    exact notAColor_of_readLine hrejected
  · rw [hrules]
    exact RuleSet.ruleCount_ofDirectives _

/-- Three of eight lines say nothing, two are bad, and the keyword that gets a color twice is one
rule. -/
theorem account_of_read_bad_lines :
    let file : Text := ("%highlight voice: snow-bud v1.3%\n" ++
      "int #111\n\n// red\nlonely\nint blue\n*entry + #00f\n*entry ,\n int  #22 2 ").toList
    ∃ contents : Contents, read file = .ok contents ∧ Account file contents ∧
      contents.diagnostics = [⟨6, .notAColor "blue".toList, "int blue".toList⟩,
        ⟨8, .incompleteEntry, "*entry ,".toList⟩] ∧
      contents.rules.ruleCount = 2 := by
  intro file
  have hread : read file = .ok (contentsOf file.lines.tail) := rfl
  have haccount := account_of_read hread
  refine ⟨_, hread, haccount, rfl, ?_⟩
  rw [haccount.ruleCount_eq]
  rfl

end RuleFile

end Tint
