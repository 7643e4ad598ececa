import Tint.Text.Escape
set_option autoImplicit false

/-!
# Runs of backslashes

A text is cut into its maximal runs of backslashes, each with the character behind it, in one way
only (`BackslashRuns.isCutOf_iff`).  The four passes of an expansion come to one pass over these
runs (`expand_isCutOf_expanded`), which rewrites every run by itself:

* in front of `n`, `t` or `r` the last backslash of the run and the letter become the character they
  name, and of the others one of every two is left, rounded up;
* in front of any other character and at the end of the text that is what becomes of all of them.

A pass puts no backslash next to another one that it has not read together with it, so runs never
grow together, and each pass can be followed run by run (`BackslashRuns.replacePair_text`,
`BackslashRuns.collapse_text`).
-/

namespace Tint.Text

/-- A text in runs of backslashes: the other characters, each with the number of backslashes right
before it, and the number of backslashes at the end. -/
structure BackslashRuns where
  runs : List (Nat × Char)
  last : Nat
  deriving DecidableEq, Repr, Inhabited

namespace BackslashRuns

/-- The text that is in these runs. -/
def text (cut : BackslashRuns) : Text :=
  cut.runs.flatMap (fun run => List.replicate run.1 '\\' ++ [run.2]) ++ List.replicate cut.last '\\'

/-- No run goes on in the character behind it. -/
def Maximal (cut : BackslashRuns) : Prop := ∀ run ∈ cut.runs, run.2 ≠ '\\'

/-- The text is cut into its maximal runs. -/
structure IsCutOf (cut : BackslashRuns) (t : Text) : Prop where
  text_eq : cut.text = t
  maximal : cut.Maximal

/-! ## The cut of a text -/

/-- Puts a character in front. -/
def cons (c : Char) (cut : BackslashRuns) : BackslashRuns :=
  if c = '\\' then
    match cut.runs with
    | [] => { cut with last := cut.last + 1 }
    | run :: runs => { cut with runs := (run.1 + 1, run.2) :: runs }
  else { cut with runs := (0, c) :: cut.runs }

/-- The runs of a text. -/
def ofText (t : Text) : BackslashRuns := t.foldr cons ⟨[], 0⟩

variable {cut : BackslashRuns} {runs : List (Nat × Char)} {k last : Nat} {c : Char} {t : Text}

@[simp] theorem text_nil (last : Nat) : text ⟨[], last⟩ = List.replicate last '\\' := rfl

@[simp] theorem text_cons_run (k : Nat) (c : Char) (runs : List (Nat × Char)) (last : Nat) :
    text ⟨(k, c) :: runs, last⟩ = List.replicate k '\\' ++ c :: text ⟨runs, last⟩ := by
  simp [text]

theorem maximal_cons_run_iff :
    Maximal ⟨(k, c) :: runs, last⟩ ↔ c ≠ '\\' ∧ Maximal ⟨runs, last⟩ := List.forall_mem_cons

theorem isCutOf_cons (h : cut.IsCutOf t) (c : Char) : (cut.cons c).IsCutOf (c :: t) := by
  obtain ⟨runs, last⟩ := cut
  obtain ⟨rfl, hmaximal⟩ := h
  unfold cons
  split
  · rename_i hc
    subst hc
    match runs with
    | [] => exact ⟨rfl, hmaximal⟩
    | (k, d) :: runs => exact ⟨by simp [List.replicate_succ], maximal_cons_run_iff.2
        (maximal_cons_run_iff.1 hmaximal)⟩
  · rename_i hc
    exact ⟨by simp, maximal_cons_run_iff.2 ⟨hc, hmaximal⟩⟩

theorem isCutOf_ofText (t : Text) : (ofText t).IsCutOf t := by
  induction t with
  | nil => exact ⟨rfl, fun _ h => nomatch h⟩
  | cons c r ih => exact isCutOf_cons ih c

theorem ofText_replicate (k : Nat) : ofText (List.replicate k '\\') = ⟨[], k⟩ := by
  induction k with
  | zero => rfl
  | succ k ih =>
    rw [List.replicate_succ, ofText, List.foldr_cons, ← ofText, ih]
    rfl

theorem ofText_replicate_append (hc : c ≠ '\\') (k : Nat) (t : Text) :
    ofText (List.replicate k '\\' ++ c :: t) =
      { ofText t with runs := (k, c) :: (ofText t).runs } := by
  induction k with
  | zero =>
    rw [List.replicate_zero, List.nil_append, ofText, List.foldr_cons, ← ofText, cons, if_neg hc]
  | succ k ih =>
    rw [List.replicate_succ, List.cons_append, ofText, List.foldr_cons, ← ofText, ih]
    rfl

/-- A text has its runs in one way only. -/
theorem isCutOf_iff : cut.IsCutOf t ↔ cut = ofText t := by
  constructor
  · rintro ⟨rfl, hmaximal⟩
    obtain ⟨runs, last⟩ := cut
    induction runs with
    | nil => exact (ofText_replicate last).symm
    | cons run runs ih =>
      obtain ⟨k, c⟩ := run
      obtain ⟨hc, hruns⟩ := maximal_cons_run_iff.1 hmaximal
      rw [text_cons_run, ofText_replicate_append hc, ← ih hruns]
  · rintro rfl
    exact isCutOf_ofText t

/-! ## What an expansion makes of a run -/

/-- Half of a number, rounded up. -/
def halfUp (n : Nat) : Nat := (n + 1) / 2

/-- The character that the letter names behind a backslash. -/
def namedBy? (letter : Char) : Option Char :=
  if letter = 'n' then some '\n'
  else if letter = 't' then some '\t'
  else if letter = 'r' then some '\r'
  else none

/-- What becomes of a run and the character behind it. -/
def expandRun (run : Nat × Char) : Nat × Char :=
  match namedBy? run.2 with
  | some named => if run.1 = 0 then run else (halfUp (run.1 - 1), named)
  | none => (halfUp run.1, run.2)

/-- What becomes of all runs. -/
def expanded (cut : BackslashRuns) : BackslashRuns := ⟨cut.runs.map expandRun, halfUp cut.last⟩

/-- What replacing a backslash and a letter makes of a run. -/
def replaceLetter (letter named : Char) (run : Nat × Char) : Nat × Char :=
  if run.1 ≠ 0 ∧ run.2 = letter then (run.1 - 1, named) else run

end BackslashRuns

/-! ## One pass -/

theorem replacePair_cons_of_ne {a b x c : Char} (h : c ≠ a) (t : Text) :
    replacePair a b x (c :: t) = c :: replacePair a b x t := by
  cases t with
  | nil => rfl
  | cons d r => rw [replacePair_cons_cons, if_neg fun hcd => h hcd.1]

theorem replacePair_of_notMem {a b x : Char} {t : Text} (h : b ∉ t) : replacePair a b x t = t := by
  induction t with
  | nil => rfl
  | cons c r ih =>
    cases r with
    | nil => rfl
    | cons d r =>
      have hr : b ∉ d :: r := fun hb => h (List.mem_cons_of_mem c hb)
      have hd : d ≠ b := fun hd => hr (hd ▸ List.mem_cons_self)
      rw [replacePair_cons_cons, if_neg fun hcd => hd hcd.2, ih hr]

namespace BackslashRuns

variable {cut : BackslashRuns} {letter named : Char}

/-- A pass for a letter takes the last backslash of a run in front of that letter. -/
theorem replacePair_run {c : Char} (hletter : letter ≠ '\\') (hc : c ≠ '\\') (named : Char)
    (k : Nat) (t : Text) :
    replacePair '\\' letter named (List.replicate k '\\' ++ c :: t) =
      List.replicate (replaceLetter letter named (k, c)).1 '\\' ++
        (replaceLetter letter named (k, c)).2 :: replacePair '\\' letter named t := by
  induction k with
  | zero => exact replacePair_cons_of_ne hc t
  | succ k ih =>
    cases k with
    | zero =>
      rw [List.replicate_one, List.singleton_append, replacePair_cons_cons]
      by_cases h : c = letter
      · simp [replaceLetter, h]
      · simp [replaceLetter, h, replacePair_cons_of_ne hc]
    | succ k =>
      -- the first backslash of two or more stands in front of another one
      have hskip : replacePair '\\' letter named (List.replicate (k + 2) '\\' ++ c :: t) =
          '\\' :: replacePair '\\' letter named (List.replicate (k + 1) '\\' ++ c :: t) := by
        rw [List.replicate_succ, List.replicate_succ, List.cons_append, List.cons_append,
          replacePair_cons_cons, if_neg fun h => hletter h.2.symm]
      rw [hskip, ih]
      by_cases h : c = letter
      · simp [replaceLetter, h, List.replicate_succ]
      · simp [replaceLetter, h, List.replicate_succ]

/-- A pass for a letter, run by run. -/
theorem replacePair_text (hletter : letter ≠ '\\') (named : Char) (h : cut.Maximal) :
    replacePair '\\' letter named cut.text =
      text ⟨cut.runs.map (replaceLetter letter named), cut.last⟩ := by
  obtain ⟨runs, last⟩ := cut
  induction runs with
  | nil =>
    refine replacePair_of_notMem fun hmem => hletter ?_
    exact List.eq_of_mem_replicate hmem
  | cons run runs ih =>
    obtain ⟨k, c⟩ := run
    obtain ⟨hc, hruns⟩ := maximal_cons_run_iff.1 h
    rw [text_cons_run, replacePair_run hletter hc, ih hruns, List.map_cons, ← text_cons_run]

theorem maximal_replaceLetter (letter : Char) {named : Char} (hnamed : named ≠ '\\')
    (h : cut.Maximal) :
    Maximal ⟨cut.runs.map (replaceLetter letter named), cut.last⟩ := by
  intro run hrun
  obtain ⟨old, hold, rfl⟩ := List.mem_map.1 hrun
  unfold replaceLetter
  split
  · exact hnamed
  · exact h old hold

/-- Of a run with no backslash behind it every second backslash is dropped. -/
theorem collapse_run {t : Text} (ht : t.head? ≠ some '\\') : ∀ k : Nat,
    replacePair '\\' '\\' '\\' (List.replicate k '\\' ++ t) =
      List.replicate (halfUp k) '\\' ++ replacePair '\\' '\\' '\\' t
  | 0 => rfl
  | 1 => by
    cases t with
    | nil => rfl
    | cons c r =>
      have hc : c ≠ '\\' := fun hc => ht (congrArg some hc)
      exact (replacePair_cons_cons ..).trans (if_neg fun h => hc h.2)
  | k + 2 => by
    have hhalf : halfUp (k + 2) = halfUp k + 1 := by
      unfold halfUp
      omega
    rw [List.replicate_succ, List.replicate_succ, List.cons_append, List.cons_append,
      replacePair_cons_cons, if_pos ⟨rfl, rfl⟩, collapse_run ht k, hhalf, List.replicate_succ,
      List.cons_append]

/-- The pass for pairs of backslashes, run by run. -/
theorem collapse_text (h : cut.Maximal) :
    replacePair '\\' '\\' '\\' cut.text =
      text ⟨cut.runs.map fun run => (halfUp run.1, run.2), halfUp cut.last⟩ := by
  obtain ⟨runs, last⟩ := cut
  induction runs with
  | nil => simpa using collapse_run (t := []) (fun h => nomatch h) last
  | cons run runs ih =>
    obtain ⟨k, c⟩ := run
    obtain ⟨hc, hruns⟩ := maximal_cons_run_iff.1 h
    have hhead : (c :: text ⟨runs, last⟩).head? ≠ some '\\' := fun h => hc (Option.some.inj h)
    rw [text_cons_run, collapse_run hhead, replacePair_cons_of_ne hc, ih hruns, List.map_cons,
      ← text_cons_run]

/-! ## All passes -/

theorem named_of_namedBy? {letter named : Char} (h : namedBy? letter = some named) :
    letter = 'n' ∧ named = '\n' ∨ letter = 't' ∧ named = '\t' ∨ letter = 'r' ∧ named = '\r' := by
  unfold namedBy? at h
  split at h
  · rename_i hn
    exact .inl ⟨hn, (Option.some.inj h).symm⟩
  · split at h
    · rename_i ht
      exact .inr (.inl ⟨ht, (Option.some.inj h).symm⟩)
    · split at h
      · rename_i hr
        exact .inr (.inr ⟨hr, (Option.some.inj h).symm⟩)
      · cases h

theorem ne_of_namedBy?_eq_none {c : Char} (h : namedBy? c = none) : c ≠ 'n' ∧ c ≠ 't' ∧ c ≠ 'r' := by
  refine ⟨?_, ?_, ?_⟩
  all_goals
    rintro rfl
    cases h

/-- What the four passes make of a run, one after the other. -/
theorem expandRun_eq (run : Nat × Char) :
    expandRun run =
      let left := replaceLetter 'r' '\r' (replaceLetter 't' '\t' (replaceLetter 'n' '\n' run))
      (halfUp left.1, left.2) := by
  obtain ⟨k, c⟩ := run
  cases hc : namedBy? c with
  | none =>
    obtain ⟨hn, ht, hr⟩ := ne_of_namedBy?_eq_none hc
    simp [expandRun, replaceLetter, hc, hn, ht, hr]
  | some named =>
    by_cases hk : k = 0
    · simp [expandRun, replaceLetter, hc, hk, halfUp]
    · rcases named_of_namedBy? hc with ⟨rfl, rfl⟩ | ⟨rfl, rfl⟩ | ⟨rfl, rfl⟩ <;>
        simp [expandRun, replaceLetter, hc, hk]

/-- A word that is no name is expanded run by run. -/
theorem expandSequences_text (h : cut.Maximal) : expandSequences cut.text = cut.expanded.text := by
  have hn := maximal_replaceLetter 'n' (show '\n' ≠ '\\' by decide) h
  have ht := maximal_replaceLetter 't' (show '\t' ≠ '\\' by decide) hn
  have hr := maximal_replaceLetter 'r' (show '\r' ≠ '\\' by decide) ht
  unfold expandSequences
  rw [replacePair_text (by decide) '\n' h, replacePair_text (by decide) '\t' hn,
    replacePair_text (by decide) '\r' ht, collapse_text hr]
  simp only [expanded, List.map_map]
  congr 3
  funext run
  exact (expandRun_eq run).symm

/-- Runs stay apart from each other. -/
theorem maximal_expanded (h : cut.Maximal) : cut.expanded.Maximal := by
  intro run hrun
  obtain ⟨old, hold, rfl⟩ := List.mem_map.1 hrun
  unfold expandRun
  split
  · rename_i named hnamed
    split
    · exact h old hold
    · have hne : named ≠ '\\' := by
        rcases named_of_namedBy? hnamed with ⟨-, rfl⟩ | ⟨-, rfl⟩ | ⟨-, rfl⟩ <;> decide
      exact hne
  · exact h old hold

/-! ## Length -/

/-- The sum of the weights of the characters. -/
def weigh (weight : Char → Nat) (t : Text) : Nat := t.foldr (fun c n => weight c + n) 0

theorem weigh_cons (weight : Char → Nat) (c : Char) (t : Text) :
    weigh weight (c :: t) = weight c + weigh weight t := rfl

theorem weigh_replicate_append (weight : Char → Nat) (k : Nat) (t : Text) :
    weigh weight (List.replicate k '\\' ++ t) = k * weight '\\' + weigh weight t := by
  induction k with
  | zero => simp
  | succ k ih =>
    rw [List.replicate_succ, List.cons_append, weigh_cons, ih, Nat.succ_mul]
    omega

theorem expandRun_le {weight : Char → Nat}
    (hweight : ∀ letter named, namedBy? letter = some named → weight named ≤ weight letter)
    (run : Nat × Char) :
    (expandRun run).1 ≤ run.1 ∧ weight (expandRun run).2 ≤ weight run.2 := by
  unfold expandRun halfUp
  split
  · rename_i named hnamed
    split
    · exact ⟨Nat.le_refl _, Nat.le_refl _⟩
    · exact ⟨by dsimp only; omega, hweight _ _ hnamed⟩
  · exact ⟨by dsimp only; omega, Nat.le_refl _⟩

theorem weigh_expanded_le {weight : Char → Nat}
    (hweight : ∀ letter named, namedBy? letter = some named → weight named ≤ weight letter)
    (cut : BackslashRuns) : weigh weight cut.expanded.text ≤ weigh weight cut.text := by
  obtain ⟨runs, last⟩ := cut
  induction runs with
  | nil =>
    have hlast : halfUp last ≤ last := by
      unfold halfUp
      omega
    have hle := Nat.mul_le_mul_right (weight '\\') hlast
    have hweigh (k : Nat) : weigh weight (text ⟨[], k⟩) = k * weight '\\' := by
      simpa [weigh] using weigh_replicate_append weight k []
    rwa [expanded, List.map_nil, hweigh, hweigh]
  | cons run runs ih =>
    obtain ⟨k, c⟩ := run
    obtain ⟨hk, hc⟩ := expandRun_le hweight (k, c)
    have hbackslashes := Nat.mul_le_mul_right (weight '\\') hk
    have hrest : weigh weight (text ⟨runs.map expandRun, halfUp last⟩) ≤
        weigh weight (text ⟨runs, last⟩) := ih
    rw [expanded, List.map_cons, text_cons_run, text_cons_run,
      weigh_replicate_append, weigh_replicate_append, weigh_cons, weigh_cons]
    dsimp only at *
    omega

end BackslashRuns

/-! ## Expansion -/

open BackslashRuns

theorem length_expandSequences_le (word : Text) :
    (expandSequences word).length ≤ word.length := by
  obtain ⟨htext, hmaximal⟩ := isCutOf_ofText word
  have hlength (t : Text) : t.length = weigh (fun _ => 1) t := by
    induction t with
    | nil => rfl
    | cons c r ih => rw [List.length_cons, ih, weigh_cons, Nat.add_comm]
  have hle := weigh_expanded_le (fun _ _ _ => Nat.le_refl 1) (ofText word)
  rwa [← expandSequences_text hmaximal, htext, ← hlength, ← hlength] at hle

theorem size_expandSequences_le (word : Text) : (expandSequences word).size ≤ word.size := by
  obtain ⟨htext, hmaximal⟩ := isCutOf_ofText word
  have hsize (t : Text) : t.size = weigh Char.utf8Size t := rfl
  have hweight (letter named : Char) (h : namedBy? letter = some named) :
      named.utf8Size ≤ letter.utf8Size := by
    rcases named_of_namedBy? h with ⟨rfl, rfl⟩ | ⟨rfl, rfl⟩ | ⟨rfl, rfl⟩ <;> decide
  have hle := weigh_expanded_le hweight (ofText word)
  rwa [← expandSequences_text hmaximal, htext, ← hsize, ← hsize] at hle

/-- The words that stand for one character as a whole. -/
def charNames : List Text := ["!tab".toList, "!space".toList, "!newline".toList]

theorem expand_of_notMem {word : Text} (h : word ∉ charNames) :
    expand word = expandSequences word := by
  simp only [charNames, List.mem_cons, List.not_mem_nil, or_false, not_or] at h
  rw [expand, namedChar?, if_neg h.1, if_neg h.2.1, if_neg h.2.2]

/-- A word that is no name of a character is expanded in one pass over its maximal runs of
backslashes, which stay apart.  It is not emptied and gets no longer, in characters or in bytes. -/
theorem expand_isCutOf_expanded {word : Text} (h : word ∉ charNames) :
    (∀ cut : BackslashRuns, cut.IsCutOf word ↔ cut = ofText word) ∧
      (ofText word).expanded.IsCutOf (expand word) ∧ (expand word = [] ↔ word = []) ∧
      (expand word).length ≤ word.length ∧ (expand word).size ≤ word.size := by
  obtain ⟨htext, hmaximal⟩ := isCutOf_ofText word
  have hexpand := expand_of_notMem h
  refine ⟨fun _ => isCutOf_iff, ⟨?_, maximal_expanded hmaximal⟩, expand_eq_nil_iff, ?_, ?_⟩
  · rw [hexpand, ← expandSequences_text hmaximal, htext]
  · rw [hexpand]
    exact length_expandSequences_le word
  · rw [hexpand]
    exact size_expandSequences_le word

/-- Of four backslashes in front of a letter one names a character, and the others leave two; the
three at the end leave two as well. -/
theorem expand_isCutOf_expanded_four :
    "\\\\\\\\tn\\x\\\\\\".toList ∉ charNames ∧
      ofText "\\\\\\\\tn\\x\\\\\\".toList = ⟨[(4, 't'), (0, 'n'), (1, 'x')], 3⟩ ∧
      expand "\\\\\\\\tn\\x\\\\\\".toList = "\\\\\tn\\x\\\\".toList := by
  have hword : "\\\\\\\\tn\\x\\\\\\".toList ∉ charNames := by decide
  obtain ⟨hcut, hexpanded, -⟩ := expand_isCutOf_expanded hword
  have hruns : ofText "\\\\\\\\tn\\x\\\\\\".toList =
      ⟨[(4, 't'), (0, 'n'), (1, 'x')], 3⟩ := ((hcut _).1 ⟨rfl, by simp [BackslashRuns.Maximal]⟩).symm
  refine ⟨hword, hruns, ?_⟩
  rw [← hexpanded.text_eq, hruns]
  rfl

end Tint.Text
