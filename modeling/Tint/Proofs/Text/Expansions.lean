import Mathlib.Data.List.Basic
import Tint.Proofs.Text.Backslashes
set_option autoImplicit false

/-!
# Texts that a word can stand for

After an expansion no backslash stands in front of `n`, `t` or `r`: a run of backslashes in front
of such a letter has become the character that they name.  A text with such a pair is therefore the
expansion of no word, and neither is the name of a character, which stands for that character.  All
other texts can be written (`exists_expand_eq_iff`), with every backslash doubled: a run of `2 * k`
backslashes is halved to `k` again as long as no such letter is behind it
(`BackslashRuns.expanded_double`).
-/

namespace Tint.Text

/-- The text with two backslashes in place of each one. -/
def doubled (t : Text) : Text := t.flatMap fun c => if c = '\\' then ['\\', '\\'] else [c]

theorem doubled_append (s t : Text) : doubled (s ++ t) = doubled s ++ doubled t :=
  List.flatMap_append

theorem doubled_replicate (k : Nat) :
    doubled (List.replicate k '\\') = List.replicate (2 * k) '\\' := by
  induction k with
  | zero => rfl
  | succ k ih =>
    rw [List.replicate_succ, doubled, List.flatMap_cons, ← doubled, ih]
    rfl

theorem doubled_cons_of_ne {c : Char} (h : c ≠ '\\') (t : Text) :
    doubled (c :: t) = c :: doubled t := by
  rw [doubled, List.flatMap_cons, if_neg h, List.singleton_append, ← doubled]

theorem doubled_of_notMem {t : Text} (h : '\\' ∉ t) : doubled t = t := by
  induction t with
  | nil => rfl
  | cons c r ih =>
    obtain ⟨hc, hr⟩ := not_or.1 (mt List.mem_cons.2 h)
    rw [doubled_cons_of_ne (Ne.symm hc), ih hr]

/-- No backslash has a letter behind it that names a character there, and the whole text is not the
name of a character. -/
structure IsWritable (t : Text) : Prop where
  no_sequence : ∀ letter ∈ ['n', 't', 'r'], ¬ ['\\', letter] <:+: t
  no_name : t ∉ charNames

/-! ## Run by run -/

namespace BackslashRuns

/-- No backslash stands in front of a letter that names a character. -/
def Settled (cut : BackslashRuns) : Prop := ∀ run ∈ cut.runs, (namedBy? run.2).isSome → run.1 = 0

instance (cut : BackslashRuns) : Decidable cut.Settled :=
  inferInstanceAs (Decidable (∀ run ∈ cut.runs, (namedBy? run.2).isSome → run.1 = 0))

/-- The runs at twice their length. -/
def double (cut : BackslashRuns) : BackslashRuns :=
  ⟨cut.runs.map fun run => (2 * run.1, run.2), 2 * cut.last⟩

variable {cut : BackslashRuns} {letter : Char}

/-- A backslash and a letter stand at the end of a run or behind it. -/
theorem isInfix_run_iff {c : Char} (hletter : letter ≠ '\\') (hc : c ≠ '\\') (k : Nat) (t : Text) :
    ['\\', letter] <:+: List.replicate k '\\' ++ c :: t ↔
      k ≠ 0 ∧ c = letter ∨ ['\\', letter] <:+: t := by
  induction k with
  | zero =>
    have hfront : ¬ ['\\', letter] <+: c :: t := fun h => hc (List.cons_prefix_cons.1 h).1.symm
    simp [List.infix_cons_iff, hfront]
  | succ k ih =>
    rw [List.replicate_succ, List.cons_append, List.infix_cons_iff, ih, List.cons_prefix_cons]
    cases k with
    | zero => simp [List.cons_prefix_cons, eq_comm]
    | succ k =>
      -- the letter does not go on with the run
      have hfront : ¬ [letter] <+: List.replicate (k + 1) '\\' ++ c :: t :=
        fun h => hletter (List.cons_prefix_cons.1 h).1
      simp [hfront]

theorem isInfix_text_iff (hletter : letter ≠ '\\') (h : cut.Maximal) :
    ['\\', letter] <:+: cut.text ↔ ∃ run ∈ cut.runs, run.1 ≠ 0 ∧ run.2 = letter := by
  obtain ⟨runs, last⟩ := cut
  induction runs with
  | nil =>
    have hnot : ¬ ['\\', letter] <:+: List.replicate last '\\' := by
      intro hpair
      exact hletter (List.eq_of_mem_replicate (hpair.subset (by simp)))
    simp [hnot]
  | cons run runs ih =>
    obtain ⟨k, c⟩ := run
    obtain ⟨hc, hruns⟩ := maximal_cons_run_iff.1 h
    rw [text_cons_run, isInfix_run_iff hletter hc, ih hruns, List.exists_mem_cons_iff]

theorem isSome_namedBy?_iff : (namedBy? letter).isSome ↔ letter ∈ ['n', 't', 'r'] := by
  constructor
  · intro h
    obtain ⟨named, hnamed⟩ := Option.isSome_iff_exists.1 h
    rcases named_of_namedBy? hnamed with ⟨rfl, -⟩ | ⟨rfl, -⟩ | ⟨rfl, -⟩ <;> decide
  · intro h
    simp only [List.mem_cons, List.not_mem_nil, or_false] at h
    rcases h with rfl | rfl | rfl <;> rfl

theorem settled_iff (h : cut.Maximal) :
    cut.Settled ↔ ∀ letter ∈ ['n', 't', 'r'], ¬ ['\\', letter] <:+: cut.text := by
  have hne : ∀ letter ∈ ['n', 't', 'r'], letter ≠ '\\' := by simp
  constructor
  · intro hsettled letter hletter hpair
    obtain ⟨run, hrun, hlength, rfl⟩ := (isInfix_text_iff (hne letter hletter) h).1 hpair
    exact hlength (hsettled run hrun (isSome_namedBy?_iff.2 hletter))
  · intro hnone run hrun hnamed
    have hletter := isSome_namedBy?_iff.1 hnamed
    by_cases hlength : run.1 = 0
    · exact hlength
    · have hpair := (isInfix_text_iff (hne run.2 hletter) h).2 ⟨run, hrun, hlength, rfl⟩
      exact absurd hpair (hnone run.2 hletter)

/-- What a letter names is not such a letter itself. -/
theorem settled_expanded (cut : BackslashRuns) : cut.expanded.Settled := by
  intro run hrun hnamed
  obtain ⟨old, -, rfl⟩ := List.mem_map.1 hrun
  cases hold : namedBy? old.2 with
  | none =>
    have hletter : (expandRun old).2 = old.2 := by rw [expandRun, hold]
    rw [hletter, hold] at hnamed
    cases hnamed
  | some named =>
    by_cases hzero : old.1 = 0
    · rw [expandRun, hold]
      simp [hzero]
    · have hletter : (expandRun old).2 = named := by
        rw [expandRun, hold]
        simp [hzero]
      rw [hletter] at hnamed
      rcases named_of_namedBy? hold with ⟨-, rfl⟩ | ⟨-, rfl⟩ | ⟨-, rfl⟩ <;> cases hnamed

theorem maximal_double (h : cut.Maximal) : cut.double.Maximal := by
  intro run hrun
  obtain ⟨old, hold, rfl⟩ := List.mem_map.1 hrun
  exact h old hold

theorem doubled_text (h : cut.Maximal) : doubled cut.text = cut.double.text := by
  obtain ⟨runs, last⟩ := cut
  induction runs with
  | nil => exact doubled_replicate last
  | cons run runs ih =>
    obtain ⟨k, c⟩ := run
    obtain ⟨hc, hruns⟩ := maximal_cons_run_iff.1 h
    rw [text_cons_run, doubled_append, doubled_replicate, doubled_cons_of_ne hc, ih hruns, double,
      double, List.map_cons, text_cons_run]

/-- An expansion halves what has been doubled. -/
theorem expanded_double (h : cut.Settled) : cut.double.expanded = cut := by
  obtain ⟨runs, last⟩ := cut
  have hhalf (k : Nat) : halfUp (2 * k) = k := by
    unfold halfUp
    omega
  have hrun : ∀ run ∈ runs, expandRun (2 * run.1, run.2) = run := by
    rintro ⟨k, c⟩ hmem
    unfold expandRun
    split
    · rename_i named hnamed
      have hsome : (namedBy? c).isSome := Option.isSome_iff_exists.2 ⟨named, hnamed⟩
      obtain rfl : k = 0 := h (k, c) hmem hsome
      rfl
    · dsimp only
      rw [hhalf]
  rw [double, expanded, hhalf, List.map_map]
  exact congrArg (BackslashRuns.mk · last) ((List.map_congr_left hrun).trans (List.map_id' runs))

end BackslashRuns

/-! ## Words without anything to expand -/

theorem replacePair_eq_self {a b x : Char} {t : Text} (h : x ∉ replacePair a b x t) :
    replacePair a b x t = t := by
  induction t with
  | nil => rfl
  | cons c r ih =>
    cases r with
    | nil => rfl
    | cons d r =>
      rw [replacePair_cons_cons] at h ⊢
      split at h
      · exact absurd List.mem_cons_self h
      · rename_i hpair
        rw [if_neg hpair, ih fun hx => h (List.mem_cons_of_mem c hx)]

/-- A pass that finds something leaves the character it puts in. -/
theorem expandSequences_eq_self {word : Text}
    (h : ∀ c ∈ ['\n', '\t', '\r', '\\'], c ∉ expandSequences word) :
    expandSequences word = word := by
  unfold expandSequences at *
  have hbackslash := replacePair_eq_self (h '\\' (by simp))
  rw [hbackslash] at h ⊢
  have hreturn := replacePair_eq_self (h '\r' (by simp))
  rw [hreturn] at h ⊢
  have htab := replacePair_eq_self (h '\t' (by simp))
  rw [htab] at h ⊢
  exact replacePair_eq_self (h '\n' (by simp))

/-! ## The texts that can be written -/

open BackslashRuns

theorem isWritable_iff {t : Text} : IsWritable t ↔ (ofText t).Settled ∧ t ∉ charNames := by
  obtain ⟨htext, hmaximal⟩ := isCutOf_ofText t
  rw [settled_iff hmaximal, htext]
  exact ⟨fun h => ⟨h.no_sequence, h.no_name⟩, fun h => ⟨h.1, h.2⟩⟩

theorem isWritable_expand (word : Text) : IsWritable (expand word) := by
  by_cases hword : word ∈ charNames
  · have hnames : ∀ name ∈ charNames, (ofText (expand name)).Settled ∧ expand name ∉ charNames := by
      decide
    exact isWritable_iff.2 (hnames word hword)
  · obtain ⟨htext, hmaximal⟩ := isCutOf_ofText word
    have hcut : (ofText word).expanded.IsCutOf (expandSequences word) :=
      ⟨by rw [← expandSequences_text hmaximal, htext], maximal_expanded hmaximal⟩
    rw [expand_of_notMem hword, isWritable_iff, ← isCutOf_iff.1 hcut]
    refine ⟨settled_expanded _, ?_⟩
    intro hname
    have hplain : ∀ name ∈ charNames, ∀ c ∈ ['\n', '\t', '\r', '\\'], c ∉ name := by
      simp [charNames]
    rw [expandSequences_eq_self (hplain _ hname)] at hname
    exact hword hname

theorem doubled_notMem_charNames {t : Text} (h : t ∉ charNames) : doubled t ∉ charNames := by
  by_cases hbackslash : '\\' ∈ t
  · have hplain : ∀ name ∈ charNames, '\\' ∉ name := by decide
    intro hname
    refine hplain _ hname (List.mem_flatMap.2 ⟨'\\', hbackslash, ?_⟩)
    exact List.mem_cons_self
  · rwa [doubled_of_notMem hbackslash]

theorem expand_doubled {t : Text} (h : IsWritable t) : expand (doubled t) = t := by
  obtain ⟨hsettled, hname⟩ := isWritable_iff.1 h
  obtain ⟨htext, hmaximal⟩ := isCutOf_ofText t
  calc expand (doubled t)
      = expandSequences (doubled t) := expand_of_notMem (doubled_notMem_charNames hname)
    _ = expandSequences (ofText t).double.text := by rw [← doubled_text hmaximal, htext]
    _ = (ofText t).double.expanded.text := expandSequences_text (maximal_double hmaximal)
    _ = t := by rw [expanded_double hsettled, htext]

/-- A text is the expansion of a word exactly when no backslash in it has `n`, `t` or `r` behind it
and it is not the name of a character.  Then doubling its backslashes gives such a word. -/
theorem exists_expand_eq_iff (t : Text) :
    ((∃ word, expand word = t) ↔ IsWritable t) ∧ (IsWritable t → expand (doubled t) = t) := by
  refine ⟨⟨?_, ?_⟩, expand_doubled⟩
  · rintro ⟨word, rfl⟩
    exact isWritable_expand word
  · intro h
    exact ⟨doubled t, expand_doubled h⟩

/-- Three backslashes can be written in front of a line feed, but not in front of `n`. -/
theorem exists_expand_eq_iff_newline :
    IsWritable "\\\\\\\n!tab\\".toList ∧
      expand "\\\\\\\\\\\\\n!tab\\\\".toList = "\\\\\\\n!tab\\".toList ∧
      ¬ ∃ word, expand word = "\\\\\\n!tab\\".toList := by
  have hwritable : IsWritable "\\\\\\\n!tab\\".toList := isWritable_iff.2 (by decide)
  refine ⟨hwritable, (exists_expand_eq_iff _).2 hwritable, ?_⟩
  rw [(exists_expand_eq_iff _).1, isWritable_iff]
  decide

end Tint.Text
