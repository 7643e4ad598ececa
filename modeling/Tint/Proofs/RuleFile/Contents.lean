import Tint.Proofs.Text.Lines
import Tint.RuleFile.Reading
set_option autoImplicit false

/-!
# The contents of a rule file

Below the header every line is read by itself.  So what a file says is fixed by the list of the
lines there (`RuleFile.contentsOf`): the rules are those of the accepted lines, and a diagnostic
stems from one line, whose number it has (`mem_diagnosticsFrom`).
-/

namespace Tint

namespace RuleFile

/-- The rules of the accepted ones of some lines, in their order. -/
def acceptedIn (body : List Text) : List Directive :=
  body.filterMap fun line => (readLine line).directive?

/-- What the lines below a header say. -/
def contentsOf (body : List Text) : Contents where
  rules := .ofDirectives (acceptedIn body)
  diagnostics := diagnosticsFrom 2 (readings body)

theorem acceptedIn_append (a b : List Text) :
    acceptedIn (a ++ b) = acceptedIn a ++ acceptedIn b :=
  List.filterMap_append

theorem readLine_of_mem_acceptedIn {body : List Text} {d : Directive} (h : d ∈ acceptedIn body) :
    ∃ line ∈ body, readLine line = .accepted d := by
  obtain ⟨line, hline, hd⟩ := List.mem_filterMap.1 h
  refine ⟨line, hline, ?_⟩
  cases hread : readLine line with
  | skipped => simp [hread, LineReading.directive?] at hd
  | rejected p => simp [hread, LineReading.directive?] at hd
  | accepted e =>
    rw [hread] at hd
    cases hd
    rfl

/-- A file is read when its first line is the header, and then the other lines say what it says. -/
theorem read_eq_ok_iff {file : Text} {contents : Contents} :
    read file = .ok contents ↔ ∃ first body, file.lines = first :: body ∧ first.trim = header ∧
      contents = contentsOf body := by
  have hcontents (body : List Text) : contentsOf body =
      ⟨.ofDirectives (directives (readings body)), diagnosticsFrom 2 (readings body)⟩ := by
    rw [directives, readings, List.filterMap_map]
    rfl
  unfold read readLines
  cases hlines : file.lines with
  | nil => exact absurd hlines file.lines_ne_nil
  | cons first body =>
    dsimp only
    split
    · rename_i hfirst
      rw [← hcontents, Except.ok.injEq]
      constructor
      · rintro rfl
        exact ⟨first, body, rfl, hfirst, rfl⟩
      · rintro ⟨_, _, heq, -, rfl⟩
        cases heq
        rfl
    · rename_i hfirst
      constructor
      · intro h
        cases h
      · rintro ⟨_, _, heq, hheader, -⟩
        cases heq
        exact absurd hheader hfirst

theorem read_of_lines {file first : Text} {body : List Text} (h : file.lines = first :: body)
    (hfirst : first.trim = header) : read file = .ok (contentsOf body) :=
  read_eq_ok_iff.2 ⟨first, body, h, hfirst, rfl⟩

/-! ## Diagnostics -/

theorem diagnosticsFrom_cons (n : Nat) (line : ReadLine) (body : List ReadLine) :
    diagnosticsFrom n (line :: body) =
      (diagnose? n line).toList ++ diagnosticsFrom (n + 1) body := by
  rw [diagnosticsFrom, List.zipIdx_cons, List.filterMap_cons]
  cases diagnose? n line <;> rfl

theorem diagnose?_eq_some_iff {n : Nat} {line : ReadLine} {d : Diagnostic} :
    diagnose? n line = some d ↔
      d.line = n ∧ line.2 = .rejected d.problem ∧ d.text = line.1.trim := by
  obtain ⟨text, reading⟩ := line
  obtain ⟨number, problem, shown⟩ := d
  cases reading with
  | skipped => simp [diagnose?, LineReading.problem?]
  | accepted d => simp [diagnose?, LineReading.problem?]
  | rejected p =>
    simp only [diagnose?, LineReading.problem?, Option.map_some, Option.some.injEq,
      Diagnostic.mk.injEq, LineReading.rejected.injEq]
    rw [eq_comm (a := n), eq_comm (a := Text.trim text)]

/-- A diagnostic reports the line that has its number. -/
theorem mem_diagnosticsFrom {n : Nat} {body : List Text} {d : Diagnostic}
    (h : d ∈ diagnosticsFrom n (readings body)) :
    ∃ i line, body[i]? = some line ∧ d.line = n + i ∧ readLine line = .rejected d.problem ∧
      d.text = line.trim := by
  induction body generalizing n with
  | nil => cases h
  | cons line body ih =>
    rw [readings, List.map_cons, diagnosticsFrom_cons] at h
    rcases List.mem_append.1 h with h | h
    · obtain ⟨hnumber, hproblem, htext⟩ := diagnose?_eq_some_iff.1 (Option.mem_toList.1 h)
      exact ⟨0, line, rfl, hnumber, hproblem, htext⟩
    · obtain ⟨i, other, hother, hnumber, hreading⟩ := ih h
      refine ⟨i + 1, other, hother, ?_, hreading⟩
      omega

end RuleFile

end Tint
