import Tint.Paint.EntryMatch
import Tint.Proofs.Loop
import Tint.Proofs.Text.Slice
set_option autoImplicit false

/-!
# The search for entry matches, place by place

`EntryMatch.candidates` recurses on the text and skips the rest of a marker it has found.  Here
the same search is a loop over places: at each place a marker behind a word is taken and passed
as a whole, or a single character is passed.  `candidates_eq_found` says that both find the same.

The places keep three facts (`Scanner.Tracks`): the text is what has been passed and what is left,
the offset is the size of the one, and every candidate stands in the text where it says
(`EntryMatch.StandsIn`).  The matches of a text inherit the last one (`standsIn_of_mem_scan`).
-/

namespace Tint

namespace EntryMatch

/-- A marker of the rules stands in `text` behind a maximal word, both where the match says. -/
def StandsIn (rules : List EntryRule) (text : Text) (m : EntryMatch) : Prop :=
  m.rule ∈ rules ∧ m.rule.token ≠ [] ∧ ∃ before word after : Text,
    text = before ++ word ++ m.rule.token ++ after ∧ m.start = before.size ∧
      m.wordEnd = m.start + word.size ∧ word ≠ [] ∧ (∀ c ∈ word, isWordChar c = true) ∧
      before.getLast?.any isWordChar = false

theorem isAscii_isWordChar : Text.IsAscii isWordChar := by
  have halphanum : Text.IsAscii Char.isAlphanum := Text.isAscii_isAlpha.or Text.isAscii_isDigit
  have hunderscore : Text.IsAscii (· == '_') := Text.isAscii_beq (by decide)
  have hhyphen : Text.IsAscii (· == '-') := Text.isAscii_beq (by decide)
  exact (halphanum.or hunderscore).or hhyphen

theorem of_markerAt? {rules : List EntryRule} {rest : Text} {rule : EntryRule}
    (h : markerAt? rules rest = some rule) :
    rule ∈ rules ∧ rule.token ≠ [] ∧ rule.token <+: rest := by
  have hstands := List.find?_some h
  simp only [Bool.and_eq_true, Bool.not_eq_true', Text.startsWith_iff] at hstands
  refine ⟨List.mem_of_find?_eq_some h, ?_, hstands.2⟩
  rintro hnil
  rw [hnil] at hstands
  exact absurd hstands.1 (by decide)

/-! ## Passing characters -/

theorem length_takeWhile_reverse_append (t passed : Text) :
    ((t.reverse ++ passed).takeWhile isWordChar).length =
      t.foldl extendWord (passed.takeWhile isWordChar).length := by
  induction t generalizing passed with
  | nil => rfl
  | cons c r ih =>
    have hc : ((c :: passed).takeWhile isWordChar).length =
        extendWord (passed.takeWhile isWordChar).length c := by
      unfold extendWord
      rw [List.takeWhile_cons]
      split <;> rfl
    rw [List.reverse_cons, List.append_assoc, List.singleton_append, ih, hc, List.foldl_cons]

/-- Skipping the rest of a marker is passing its characters. -/
theorem candidatesFrom_append (rules : List EntryRule) (pos word : Nat) (u rest : Text) :
    candidatesFrom rules pos word u.length (u ++ rest) =
      candidatesFrom rules (pos + u.size) (u.foldl extendWord word) 0 rest := by
  induction u generalizing pos word with
  | nil => rfl
  | cons c r ih =>
    rw [List.cons_append, List.length_cons, candidatesFrom, ih, Text.size_cons, List.foldl_cons,
      Nat.add_assoc]

end EntryMatch

open EntryMatch

/-- The state of the search between two places. -/
structure Scanner where
  /-- bytes passed so far -/
  pos : Nat
  /-- what has been passed, the latest character first -/
  passed : Text
  /-- what is left -/
  rest : Text
  /-- the candidates so far, the latest first -/
  found : List EntryMatch

namespace Scanner

def start (text : Text) : Scanner := ⟨0, [], text, []⟩

/-- The length of the word that ends here. -/
def word (s : Scanner) : Nat := (s.passed.takeWhile isWordChar).length

/-- The rule whose marker stands here, if a word ends here. -/
def hit? (rules : List EntryRule) (s : Scanner) : Option EntryRule :=
  if s.word = 0 then none else markerAt? rules s.rest

/-- Passes what stands at the front of the rest. -/
def pass (s : Scanner) (t : Text) : Scanner :=
  { s with
    pos := s.pos + t.size
    passed := t.reverse ++ s.passed
    rest := s.rest.drop t.length }

def step (rules : List EntryRule) (s : Scanner) : Scanner :=
  match s.hit? rules with
  | some rule => { s.pass rule.token with found := ⟨s.pos - s.word, s.pos, rule⟩ :: s.found }
  | none => s.pass (s.rest.take 1)

/-- The loop over all places. -/
def loop (rules : List EntryRule) : Loop Scanner := ⟨step rules, fun s => s.rest.isEmpty⟩

variable {rules : List EntryRule} {text : Text} {s : Scanner}

/-- What a step passes: a marker that stands here, or a character. -/
def next (rules : List EntryRule) (s : Scanner) : Text :=
  match s.hit? rules with
  | some rule => rule.token
  | none => s.rest.take 1

theorem next_ne_nil (rules : List EntryRule) (h : s.rest ≠ []) : s.next rules ≠ [] := by
  unfold next
  split
  · rename_i rule hit
    unfold hit? at hit
    split at hit
    · cases hit
    · exact (of_markerAt? hit).2.1
  · cases hr : s.rest with
    | nil => exact absurd hr h
    | cons c r => simp

theorem next_isPrefix (rules : List EntryRule) (s : Scanner) : s.next rules <+: s.rest := by
  unfold next
  split
  · rename_i rule hit
    unfold hit? at hit
    split at hit
    · cases hit
    · exact (of_markerAt? hit).2.2
  · exact List.take_prefix _ _

theorem pos_step (rules : List EntryRule) (s : Scanner) :
    (s.step rules).pos = s.pos + (s.next rules).size := by
  unfold step next
  split <;> rfl

theorem passed_step (rules : List EntryRule) (s : Scanner) :
    (s.step rules).passed = (s.next rules).reverse ++ s.passed := by
  unfold step next
  split <;> rfl

theorem rest_step (rules : List EntryRule) (s : Scanner) :
    (s.step rules).rest = s.rest.drop (s.next rules).length := by
  unfold step next
  split <;> rfl

theorem length_rest_step (rules : List EntryRule) (h : s.rest ≠ []) :
    (s.step rules).rest.length < s.rest.length := by
  have hnext := List.length_pos_iff.2 (next_ne_nil rules h)
  have hrest := List.length_pos_iff.2 h
  rw [rest_step, List.length_drop]
  omega

theorem rest_ne_nil_of_done (h : (loop rules).done s = false) : s.rest ≠ [] := by
  intro hnil
  simp [loop, hnil] at h

/-! ## The invariant -/

/-- The state fits the text. -/
structure Tracks (rules : List EntryRule) (text : Text) (s : Scanner) : Prop where
  text_eq : s.passed.reverse ++ s.rest = text
  pos_eq : s.pos = s.passed.size
  found_stand : ∀ m ∈ s.found, m.StandsIn rules text

theorem tracks_start (rules : List EntryRule) (text : Text) : (start text).Tracks rules text :=
  ⟨rfl, rfl, by simp [start]⟩

theorem size_reverse (t : Text) : Text.size t.reverse = t.size := by
  induction t with
  | nil => rfl
  | cons c r ih =>
    rw [List.reverse_cons, Text.size_append, ih, Text.size_cons, Text.size_cons, Text.size_nil]
    omega

/-- The word that ends here, cut off from what comes before it. -/
theorem exists_word (s : Scanner) : ∃ before word : Text,
    s.passed.reverse = before ++ word ∧ word.length = s.word ∧
      (∀ c ∈ word, isWordChar c = true) ∧ before.getLast?.any isWordChar = false := by
  refine ⟨(s.passed.dropWhile isWordChar).reverse, (s.passed.takeWhile isWordChar).reverse, ?_, ?_,
    ?_, ?_⟩
  · rw [← List.reverse_append, List.takeWhile_append_dropWhile]
  · rw [List.length_reverse]
    rfl
  · intro c hc
    exact List.all_eq_true.1 List.all_takeWhile c (List.mem_reverse.1 hc)
  · rw [List.getLast?_reverse]
    cases hd : (s.passed.dropWhile isWordChar).head? with
    | none => rfl
    | some c => simpa [hd] using List.head?_dropWhile_not isWordChar s.passed

/-- A word ends here exactly when the last character that was passed is a word character. -/
theorem any_getLast?_passed (s : Scanner) :
    s.passed.reverse.getLast?.any isWordChar = decide (0 < s.word) := by
  rw [List.getLast?_reverse, word]
  cases s.passed with
  | nil => rfl
  | cons c r =>
    rw [List.head?_cons, Option.any_some, List.takeWhile_cons]
    cases isWordChar c <;> simp

theorem Tracks.dropBytes? (h : s.Tracks rules text) : text.dropBytes? s.pos = some s.rest := by
  rw [← h.text_eq, h.pos_eq, ← size_reverse]
  exact Text.dropBytes?_size_append _ _

theorem Tracks.standsIn_of_hit (h : s.Tracks rules text) {rule : EntryRule}
    (hit : s.hit? rules = some rule) : StandsIn rules text ⟨s.pos - s.word, s.pos, rule⟩ := by
  unfold hit? at hit
  split at hit
  · cases hit
  · rename_i hword
    obtain ⟨hmem, htoken, after, hafter⟩ := of_markerAt? hit
    obtain ⟨before, word, hpassed, hlength, hchars, hbefore⟩ := s.exists_word
    have hsize : word.size = s.word := by
      rw [Text.size_eq_length isAscii_isWordChar hchars, hlength]
    have hpos : s.pos = before.size + word.size := by
      rw [h.pos_eq, ← size_reverse, hpassed, Text.size_append]
    refine ⟨hmem, htoken, before, word, after, ?_, ?_, ?_, ?_, hchars, hbefore⟩
    · rw [← h.text_eq, hpassed, ← hafter, List.append_assoc (before ++ word)]
    · dsimp only
      omega
    · dsimp only
      omega
    · rintro rfl
      exact hword (hlength.symm.trans rfl)

theorem Tracks.step (h : s.Tracks rules text) : (s.step rules).Tracks rules text := by
  obtain ⟨after, hafter⟩ := next_isPrefix rules s
  refine ⟨?_, ?_, ?_⟩
  · rw [passed_step, rest_step, ← h.text_eq, ← hafter, List.drop_left]
    simp
  · rw [pos_step, passed_step, h.pos_eq, Text.size_append, size_reverse]
    omega
  · intro m hm
    unfold Scanner.step at hm
    split at hm
    · rename_i rule hit
      rcases List.mem_cons.1 hm with rfl | hm
      · exact h.standsIn_of_hit hit
      · exact h.found_stand m hm
    · exact h.found_stand m hm

theorem descends (rules : List EntryRule) (text : Text) :
    (loop rules).Descends (Tracks rules text) fun s => s.rest.length := by
  constructor
  · intro s _ hs
    exact hs.step
  · intro s hdone _
    exact length_rest_step rules (rest_ne_nil_of_done hdone)

/-! ## The same candidates -/

theorem word_step (rules : List EntryRule) (s : Scanner) :
    (s.step rules).word = (s.next rules).foldl extendWord s.word := by
  rw [word, passed_step, length_takeWhile_reverse_append]
  rfl

theorem candidatesFrom_step (h : s.rest ≠ []) :
    (s.step rules).found.reverse ++
        candidatesFrom rules (s.step rules).pos (s.step rules).word 0 (s.step rules).rest =
      s.found.reverse ++ candidatesFrom rules s.pos s.word 0 s.rest := by
  obtain ⟨c, r, hr⟩ := List.exists_cons_of_ne_nil h
  rw [pos_step, word_step, rest_step]
  have hfront := next_isPrefix rules s
  unfold step next at *
  rw [hr] at hfront ⊢
  cases hit : s.hit? rules with
  | none =>
    have hnone : (if s.word = 0 then none else markerAt? rules (c :: r)) = none := by
      rw [← hr]
      exact hit
    rw [candidatesFrom, hnone]
    simp [pass]
  | some rule =>
    have hsome : (if s.word = 0 then none else markerAt? rules (c :: r)) = some rule := by
      rw [← hr]
      exact hit
    rw [hit] at hfront
    obtain ⟨after, hafter⟩ := hfront
    have hne : rule.token ≠ [] := by
      have := next_ne_nil rules h
      rwa [next, hit] at this
    obtain ⟨d, token, htoken⟩ := List.exists_cons_of_ne_nil hne
    dsimp only at hafter ⊢
    rw [htoken, List.cons_append] at hafter
    obtain ⟨rfl, rfl⟩ := List.cons.inj hafter
    rw [candidatesFrom, hsome]
    simp only [htoken, List.length_cons, Nat.add_sub_cancel, candidatesFrom_append,
      Text.size_cons, List.foldl_cons, List.drop_succ_cons, List.drop_left, List.reverse_cons,
      List.append_assoc, List.singleton_append, Nat.add_assoc]

/-- The loop finds the candidates that the recursion on the text finds. -/
theorem found_run (h : s.Tracks rules text) {fuel : Nat} (hfuel : s.rest.length ≤ fuel) :
    ((loop rules).run fuel s).found.reverse =
      s.found.reverse ++ candidatesFrom rules s.pos s.word 0 s.rest := by
  refine Loop.run_induction (descends rules text) (Q := fun s _ t => t.found.reverse =
    s.found.reverse ++ candidatesFrom rules s.pos s.word 0 s.rest) ?_ ?_ h hfuel
  · intro s hdone _
    have hnil : s.rest = [] := List.isEmpty_iff.1 hdone
    rw [hnil]
    simp [candidatesFrom]
  · intro s _ t hdone _ ht
    rw [← candidatesFrom_step (rest_ne_nil_of_done hdone)]
    exact ht

theorem candidates_eq_found (rules : List EntryRule) (text : Text) {fuel : Nat}
    (h : text.length ≤ fuel) :
    candidates rules text = ((loop rules).run fuel (start text)).found.reverse := by
  rw [candidates_eq, found_run (tracks_start rules text) h]
  rfl

end Scanner

namespace EntryMatch

theorem standsIn_of_mem_candidates {rules : List EntryRule} {text : Text} {m : EntryMatch}
    (h : m ∈ candidates rules text) : m.StandsIn rules text := by
  rw [Scanner.candidates_eq_found rules text (Nat.le_refl _), List.mem_reverse] at h
  have htracks : ((Scanner.loop rules).run text.length (Scanner.start text)).Tracks rules text :=
    Loop.run_invariant (Scanner.descends rules text).keeps _ (Scanner.tracks_start rules text)
  exact htracks.found_stand m h

/-- Every match of a text stands in it. -/
theorem standsIn_of_mem_scan {rules : List EntryRule} {text : Text} {m : EntryMatch}
    (h : m ∈ scan rules text) : m.StandsIn rules text :=
  standsIn_of_mem_candidates (mem_of_mem_keepDisjoint h)

end EntryMatch

end Tint
