import Mathlib.Data.List.SplitBy
import Tint.Proofs.Paint.Agreement
set_option autoImplicit false

/-!
# Keywords alone

A text is made of maximal runs of word characters and of the characters between them
(`Word.AreRuns`), in one way only (`Word.areRuns_iff`).  Rules that have neither enclosures nor
entry rules paint each run by itself (`RuleSet.render_eq_flatMap_paintRun`): as a keyword if it is
one and starts as a word does, and otherwise character by character.  The painter finds no word
inside of a run, since the character before decides too, and a run that it does not paint is copied
to its end.
-/

namespace Tint

namespace Word

/-! ## Runs -/

/-- Of two neighbours at most one is a character of a word. -/
def Apart (a b : Option Char) : Prop := a.any isPart = false ∨ b.any isPart = false

/-- A run of word characters, or a single other character. -/
def IsRun (run : Text) : Prop :=
  (run ≠ [] ∧ ∀ c ∈ run, isPart c = true) ∨ ∃ c, isPart c = false ∧ run = [c]

/-- The text is cut into its maximal runs. -/
structure AreRuns (text : Text) (runs : List Text) : Prop where
  flatten_eq : runs.flatten = text
  isRun : ∀ run ∈ runs, IsRun run
  maximal : runs.IsChain fun run next => Apart run.getLast? next.head?

/-- The maximal runs of a text. -/
def runs (text : Text) : List Text := text.splitBy fun a b => isPart a && isPart b

theorem isChain_isPart_iff {c d : Char} {r : Text} :
    (c :: d :: r).IsChain (fun a b => (isPart a && isPart b) = true) ↔
      ∀ x ∈ c :: d :: r, isPart x = true := by
  induction r generalizing c d with
  | nil => simp [List.isChain_cons_cons]
  | cons e r ih =>
    rw [List.isChain_cons_cons, ih, Bool.and_eq_true, List.forall_mem_cons (a := c), and_assoc]
    exact and_congr_right fun _ => and_iff_right_of_imp fun h => h d List.mem_cons_self

theorem isRun_iff {run : Text} :
    IsRun run ↔ run ≠ [] ∧ run.IsChain fun a b => (isPart a && isPart b) = true := by
  unfold IsRun
  match run with
  | [] => simp
  | [c] => cases hc : isPart c <;> simp [hc]
  | c :: d :: r =>
    rw [isChain_isPart_iff]
    simp

theorem apart_iff {run next : Text} (hrun : run ≠ []) (hnext : next ≠ []) :
    Apart run.getLast? next.head? ↔
      ∃ ha hb, (isPart (run.getLast ha) && isPart (next.head hb)) = false := by
  rw [Apart, List.getLast?_eq_some_getLast hrun, List.head?_eq_some_head hnext, Option.any_some,
    Option.any_some, ← Bool.and_eq_false_iff]
  simp [hrun, hnext]

/-- A text has its runs in one way only. -/
theorem areRuns_iff {text : Text} {cut : List Text} : AreRuns text cut ↔ cut = runs text := by
  have hchain (hne : ∀ run ∈ cut, run ≠ []) :
      (cut.IsChain fun run next => Apart run.getLast? next.head?) ↔ cut.IsChain fun run next =>
        ∃ ha hb, (isPart (run.getLast ha) && isPart (next.head hb)) = false :=
    List.IsChain.iff_of_mem_imp fun run next hrun hnext => apart_iff (hne run hrun) (hne next hnext)
  rw [eq_comm, runs, List.splitBy_eq_iff]
  constructor
  · rintro ⟨hflatten, hrun, hmaximal⟩
    have hne : ∀ run ∈ cut, run ≠ [] := fun run hmem => (isRun_iff.1 (hrun run hmem)).1
    exact ⟨hflatten.symm, fun hmem => hne [] hmem rfl,
      fun run hmem => (isRun_iff.1 (hrun run hmem)).2, (hchain hne).1 hmaximal⟩
  · rintro ⟨hflatten, hnil, hrun, hmaximal⟩
    have hne : ∀ run ∈ cut, run ≠ [] := fun run hmem h => hnil (h ▸ hmem)
    exact ⟨hflatten.symm, fun run hmem => isRun_iff.2 ⟨hne run hmem, hrun run hmem⟩,
      (hchain hne).2 hmaximal⟩

/-- A word is a whole run. -/
theorem at?_run {previous : Option Char} {c : Char} {u rest : Text}
    (hrun : ∀ x ∈ c :: u, isPart x = true) (hprevious : Apart previous (some c))
    (hrest : Apart (c :: u).getLast? rest.head?) :
    at? previous (c :: (u ++ rest)) = if isStart c then some (c :: u) else none := by
  have hfirst : previous.any isPart = false := by
    refine hprevious.resolve_right ?_
    simp [hrun c List.mem_cons_self]
  have hlast : rest.head?.any isPart = false := by
    refine hrest.resolve_left ?_
    have hmem := List.getLast_mem (List.cons_ne_nil c u)
    simp [List.getLast?_eq_some_getLast (List.cons_ne_nil c u), hrun _ hmem]
  have hend : rest.takeWhile isPart = [] := by
    cases rest with
    | nil => rfl
    | cons d r => exact List.takeWhile_cons_of_neg (by simpa using hlast)
  have hword : (c :: (u ++ rest)).takeWhile isPart = c :: u := by
    rw [← List.cons_append, List.takeWhile_append_of_pos hrun, hend, List.append_nil]
  rw [at?, if_neg (by simp [hfirst]), hword]
  rfl

theorem isStart_of_not_isPart {c : Char} (h : isPart c = false) : isStart c = false :=
  Bool.eq_false_iff.2 fun hstart => Bool.eq_false_iff.1 h (isPart_of_isStart hstart)

/-- No word starts with a character that no word has. -/
theorem at?_of_not_isPart {previous : Option Char} {c : Char} (hc : isPart c = false)
    (rest : Text) : at? previous (c :: rest) = none := by
  rw [at?]
  simp [isStart_of_not_isPart hc]

end Word

/-! ## Painting runs -/

namespace RuleSet

/-- Nothing but keywords has a color. -/
structure KeywordsOnly (rules : RuleSet) : Prop where
  no_enclosures : ∀ tier, (rules.enclosures tier).rules = []
  no_entries : rules.entries = []

/-- A run, colored if it is a keyword and starts as a word does. -/
def paintRun (rules : RuleSet) (run : Text) : Text :=
  if run.head?.any Word.isStart then
    match rules.keyword? run with
    | some color => Markup.colored color run
    | none => Markup.escape run
  else Markup.escape run

end RuleSet

namespace Region

variable {rules : RuleSet} {previous : Option Char}

theorem choose_outside (h : rules.KeywordsOnly) (c : Char) (r : Text) :
    outside.choose rules previous c r =
      (word? .outside previous (c :: r) rules.keyword?).getD (.char c, .outside) := by
  have hinside : outside.inside? rules previous (c :: r) =
      word? .outside previous (c :: r) rules.keyword? := by
    rw [inside?, opening?_eq_none (h.no_enclosures _), opening?_eq_none (h.no_enclosures _),
      opening?_eq_none (h.no_enclosures _)]
    rfl
  rw [← hinside]
  rfl

end Region

namespace RuleSet

variable {rules : RuleSet} {previous : Option Char}

/-- Where no keyword stands, a character is copied. -/
theorem flow_char (h : rules.KeywordsOnly) {c : Char} {r : Text}
    (hword : Region.word? .outside previous (c :: r) rules.keyword? = none) :
    rules.flow .outside previous 0 (c :: r) = .char c :: rules.flow .outside (some c) 0 r := by
  rw [flow, Region.choose_outside h, hword]
  rfl

/-- Behind a word character the run is copied to its end. -/
theorem flow_inside_run (h : rules.KeywordsOnly) {u : Text} (hu : ∀ c ∈ u, Word.isPart c = true)
    (rest : Text) (hprevious : previous.any Word.isPart = true) :
    rules.flow .outside previous 0 (u ++ rest) =
      u.map .char ++ rules.flow .outside (u.getLast?.or previous) 0 rest := by
  induction u generalizing previous with
  | nil => rfl
  | cons c u ih =>
    have hword : Region.word? .outside previous (c :: (u ++ rest)) rules.keyword? = none := by
      rw [Region.word?, Word.at?, if_pos hprevious]
      rfl
    have hc : (some c).any Word.isPart = true := hu c List.mem_cons_self
    rw [List.cons_append, flow_char h hword, ih (fun d hd => hu d (List.mem_cons_of_mem c hd)) hc,
      Text.getLast?_cons_eq_or, Option.or_assoc, Option.some_or]
    rfl

/-- A run that is no keyword is copied. -/
theorem html_flow_copied (h : rules.KeywordsOnly) {c : Char} {u rest : Text}
    (hrun : ∀ x ∈ c :: u, Word.isPart x = true)
    (hword : Region.word? .outside previous (c :: (u ++ rest)) rules.keyword? = none) :
    (rules.flow .outside previous 0 (c :: (u ++ rest))).html =
      Markup.escape (c :: u) ++ (rules.flow .outside (c :: u).getLast? 0 rest).html := by
  have hu : ∀ x ∈ u, Word.isPart x = true := fun x hx => hrun x (List.mem_cons_of_mem c hx)
  have hc : (some c).any Word.isPart = true := hrun c List.mem_cons_self
  rw [flow_char h hword, flow_inside_run h hu rest hc, ← List.cons_append, ← List.map_cons,
    Painting.html, List.flatMap_append, ← Painting.html, Painting.html_map_char,
    Text.getLast?_cons_eq_or]
  rfl

/-- A keyword is painted as a whole. -/
theorem html_flow_keyword (h : rules.KeywordsOnly) {c : Char} {u rest color : Text}
    (hat : Word.at? previous (c :: (u ++ rest)) = some (c :: u))
    (hkeyword : rules.keyword? (c :: u) = some color) :
    (rules.flow .outside previous 0 (c :: (u ++ rest))).html =
      Markup.colored color (c :: u) ++ (rules.flow .outside (c :: u).getLast? 0 rest).html := by
  have hchoose : Region.outside.choose rules previous c (u ++ rest) =
      (.word color (c :: u), .outside) := by
    rw [Region.choose_outside h, Region.word?, hat, Option.bind_some, hkeyword]
    rfl
  have hrest : (c :: (u ++ rest)).drop (c :: u).length = rest := List.drop_left
  rw [flow_cons hchoose (List.cons_ne_nil c u) (List.prefix_append (c :: u) rest), Piece.source,
    hrest]
  rfl

/-- A run is painted by itself. -/
theorem html_flow_run (h : rules.KeywordsOnly) {run rest : Text} (hrun : Word.IsRun run)
    (hprevious : Word.Apart previous run.head?) (hrest : Word.Apart run.getLast? rest.head?) :
    (rules.flow .outside previous 0 (run ++ rest)).html =
      rules.paintRun run ++ (rules.flow .outside run.getLast? 0 rest).html := by
  rcases hrun with ⟨hne, hparts⟩ | ⟨c, hc, rfl⟩
  · obtain ⟨c, u, rfl⟩ := List.exists_cons_of_ne_nil hne
    have hat := Word.at?_run hparts hprevious hrest
    rw [paintRun, List.head?_cons, Option.any_some]
    split
    · rename_i hstart
      rw [if_pos hstart] at hat
      cases hkeyword : rules.keyword? (c :: u) with
      | some color => exact html_flow_keyword h hat hkeyword
      | none =>
        refine html_flow_copied h hparts ?_
        rw [Region.word?, hat, Option.bind_some, hkeyword]
        rfl
    · rename_i hstart
      rw [if_neg hstart] at hat
      refine html_flow_copied h hparts ?_
      rw [Region.word?, hat]
      rfl
  · have hat : Word.at? previous (c :: rest) = none := Word.at?_of_not_isPart hc rest
    have hword : Region.word? .outside previous (c :: rest) rules.keyword? = none := by
      rw [Region.word?, hat]
      rfl
    have hstart : ¬ Word.isStart c = true := Bool.eq_false_iff.1 (Word.isStart_of_not_isPart hc)
    rw [paintRun, List.head?_cons, Option.any_some, if_neg hstart, List.singleton_append,
      flow_char h hword, Markup.escape_cons, Markup.escape_nil, List.append_nil]
    rfl

/-- Runs are painted one after the other. -/
theorem html_flow_runs (h : rules.KeywordsOnly) {runs : List Text}
    (hruns : ∀ run ∈ runs, Word.IsRun run)
    (hmaximal : runs.IsChain fun run next => Word.Apart run.getLast? next.head?)
    (hprevious : ∀ run ∈ runs.head?, Word.Apart previous run.head?) :
    (rules.flow .outside previous 0 runs.flatten).html = runs.flatMap rules.paintRun := by
  induction runs generalizing previous with
  | nil => rfl
  | cons run runs ih =>
    rw [List.isChain_cons] at hmaximal
    have hrest : Word.Apart run.getLast? runs.flatten.head? := by
      cases runs with
      | nil => exact .inr rfl
      | cons next runs =>
        have hne : next ≠ [] := (Word.isRun_iff.1 (hruns next (by simp))).1
        rw [List.flatten_cons, List.head?_append_of_ne_nil next hne]
        exact hmaximal.1 next rfl
    rw [List.flatten_cons, html_flow_run h (hruns run List.mem_cons_self) (hprevious run rfl) hrest,
      ih (fun next hnext => hruns next (List.mem_cons_of_mem run hnext)) hmaximal.2 hmaximal.1,
      List.flatMap_cons]

/-- Rules of a file that has neither enclosures nor entry rules paint each maximal run of word
characters by itself, and copy what is between the runs. -/
theorem render_eq_flatMap_paintRun {file : Text} {contents : RuleFile.Contents}
    (hread : RuleFile.read file = .ok contents)
    (henclosures : ∀ tier, (contents.rules.enclosures tier).rules = [])
    (hentries : contents.rules.entries = []) (text : Text) :
    (∀ runs, Word.AreRuns text runs ↔ runs = Word.runs text) ∧
      contents.rules.render text = (Word.runs text).flatMap contents.rules.paintRun := by
  refine ⟨fun _ => Word.areRuns_iff, ?_⟩
  have hkeywords : contents.rules.KeywordsOnly := ⟨henclosures, hentries⟩
  obtain ⟨hflatten, hruns, hmaximal⟩ := Word.areRuns_iff.2 (Eq.refl (Word.runs text))
  have hpainting := painting_paintWith_nil (RuleFile.wellFormed_of_read hread) text
  rw [render_eq_renderWith, hentries, EntryMatch.scan_nil, renderWith, hpainting]
  conv_lhs => rw [← hflatten]
  exact html_flow_runs hkeywords hruns hmaximal fun _ _ => .inl rfl

/-- One key starts with a digit, and is not painted; another one stands behind a character of two
bytes. -/
theorem render_eq_flatMap_paintRun_digit :
    ∃ contents, RuleFile.read "%highlight voice: snow-bud v1.3%\nif #222\n9a #333\n<b> #111".toList =
        .ok contents ∧
      contents.rules.render "if 9a é<b>".toList = ("<span style=\"color:#222\">if</span> 9a é".toList ++
        "<span style=\"color:#111\">&lt;b&gt;</span>".toList) := by
  have hread : RuleFile.read "%highlight voice: snow-bud v1.3%\nif #222\n9a #333\n<b> #111".toList =
      .ok ⟨.ofDirectives [.keyword "if".toList "#222".toList, .keyword "9a".toList "#333".toList,
        .keyword "<b>".toList "#111".toList], []⟩ := rfl
  refine ⟨_, hread, ?_⟩
  have hruns : Word.runs "if 9a é<b>".toList = ["if", " ", "9a", " ", "é", "<b>"].map String.toList :=
    rfl
  rw [(render_eq_flatMap_paintRun hread (fun tier => by cases tier <;> rfl) rfl _).2, hruns]
  rfl

end RuleSet

end Tint
