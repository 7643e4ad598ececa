import Tint.Proofs.Paint.Kept
set_option autoImplicit false

/-!
# The matches of a text line by line

A line feed is not a character of a word.  When no marker holds one either, nothing that the search
looks at lies on both sides of it: the candidates of a text are those of its first lines, and then
those of the other lines, further back in the text (`candidatesFrom_append_newline`).  The same
holds of the matches (`scan_append_newline`), since those of the first lines end before the others
start.
-/

namespace Tint

/-- What does not hold a character cannot reach behind it. -/
theorem Text.isPrefix_append_cons_iff {s a b : Text} {c : Char} (hc : c ∉ s) :
    s <+: a ++ c :: b ↔ s <+: a := by
  constructor
  · intro h
    rcases List.prefix_or_prefix_of_prefix h (List.prefix_append a (c :: b)) with hs | ⟨x, rfl⟩
    · exact hs
    · cases x with
      | nil => simp
      | cons d x =>
        obtain ⟨rfl, -⟩ := List.cons_prefix_cons.1 ((List.prefix_append_right_inj a).1 h)
        exact absurd (List.mem_append_right a List.mem_cons_self) hc
  · intro h
    exact h.trans (List.prefix_append a (c :: b))

namespace EntryMatch

/-- The same match with `n` more bytes before it. -/
def shift (n : Nat) (m : EntryMatch) : EntryMatch :=
  { m with start := n + m.start, wordEnd := n + m.wordEnd }

@[simp] theorem shift_start (n : Nat) (m : EntryMatch) : (m.shift n).start = n + m.start := rfl

@[simp] theorem shift_wordEnd (n : Nat) (m : EntryMatch) :
    (m.shift n).wordEnd = n + m.wordEnd := rfl

@[simp] theorem shift_rule (n : Nat) (m : EntryMatch) : (m.shift n).rule = m.rule := rfl

@[simp] theorem shift_stop (n : Nat) (m : EntryMatch) : (m.shift n).stop = n + m.stop := by
  simp [stop, Nat.add_assoc]

variable {rules : List EntryRule}

/-! ## Candidates -/

theorem candidatesFrom_shift (rules : List EntryRule) (n : Nat) (text : Text)
    {pos word : Nat} (hword : word ≤ pos) (skip : Nat) :
    candidatesFrom rules (n + pos) word skip text =
      (candidatesFrom rules pos word skip text).map (shift n) := by
  induction text generalizing pos word skip with
  | nil => cases skip <;> rfl
  | cons c r ih =>
    have hnext : extendWord word c ≤ pos + c.utf8Size := by
      have := Char.utf8Size_pos c
      unfold extendWord
      split <;> omega
    cases skip with
    | succ skip => rw [candidatesFrom, candidatesFrom, Nat.add_assoc, ih hnext]
    | zero =>
      rw [candidatesFrom, candidatesFrom]
      cases if word = 0 then none else markerAt? rules (c :: r) with
      | none =>
        dsimp only
        rw [Nat.add_assoc, ih hnext]
      | some rule =>
        dsimp only
        rw [Nat.add_assoc, ih hnext, List.map_cons, shift, Nat.add_sub_assoc hword]

theorem markerAt?_append_newline (h : ∀ rule ∈ rules, '\n' ∉ rule.token) (a b : Text) :
    markerAt? rules (a ++ '\n' :: b) = markerAt? rules a := by
  induction rules with
  | nil => rfl
  | cons r rules ih =>
    have hr : (a ++ '\n' :: b).startsWith r.token = a.startsWith r.token := by
      rw [Bool.eq_iff_iff, Text.startsWith_iff, Text.startsWith_iff,
        Text.isPrefix_append_cons_iff (h r List.mem_cons_self)]
    have hrules : ∀ rule ∈ rules, '\n' ∉ rule.token :=
      fun rule hrule => h rule (List.mem_cons_of_mem r hrule)
    rw [markerAt?_cons, markerAt?_cons, hr, ih hrules]

theorem candidatesFrom_append_newline (h : ∀ rule ∈ rules, '\n' ∉ rule.token) (b : Text)
    (a : Text) (pos word : Nat) :
    candidatesFrom rules pos word 0 (a ++ '\n' :: b) =
      candidatesFrom rules pos word 0 (a ++ ['\n']) ++
        candidatesFrom rules (pos + a.size + 1) 0 0 b := by
  induction hn : a.length using Nat.strongRecOn generalizing a pos word with
  | ind n ih =>
    subst hn
    cases a with
    | nil =>
      have hnone (r : Text) : markerAt? rules ('\n' :: r) = none := by
        rw [← List.nil_append ('\n' :: r), markerAt?_append_newline h]
        refine List.find?_eq_none.2 fun rule _ hstands => ?_
        cases htoken : rule.token <;> simp [htoken, Text.startsWith] at hstands
      simp only [List.nil_append, candidatesFrom, hnone, ite_self, Text.size_nil, Nat.add_zero]
      rfl
    | cons c a =>
      have hmarker (r : Text) :
          (if word = 0 then none else markerAt? rules (c :: (a ++ '\n' :: r))) =
            if word = 0 then none else markerAt? rules (c :: a) := by
        rw [← List.cons_append, markerAt?_append_newline h]
      rw [List.cons_append, List.cons_append, candidatesFrom, candidatesFrom, hmarker b,
        hmarker [], Text.size_cons, ← Nat.add_assoc pos]
      cases hrule : if word = 0 then none else markerAt? rules (c :: a) with
      | none => exact ih a.length (Nat.lt_succ_self _) a _ _ rfl
      | some rule =>
        have hmarkerAt : markerAt? rules (c :: a) = some rule := by
          split at hrule
          · cases hrule
          · exact hrule
        obtain ⟨-, hne, hfront⟩ := of_markerAt? hmarkerAt
        obtain ⟨u, after, htoken, rfl⟩ := Text.exists_cons_of_isPrefix hne hfront
        have hlt : after.length < (c :: (u ++ after)).length := by
          rw [List.length_cons, List.length_append]
          omega
        -- the search goes on behind the marker, which ends before the line does
        dsimp only
        rw [htoken, List.length_cons, Nat.add_sub_cancel, List.append_assoc, List.append_assoc,
          candidatesFrom_append, candidatesFrom_append, ih _ hlt after _ _ rfl, Text.size_append,
          List.cons_append, Nat.add_assoc (pos + c.utf8Size)]

/-! ## Matches -/

theorem keepDisjoint_shift (n free : Nat) (l : List EntryMatch) :
    keepDisjoint (n + free) (l.map (shift n)) = (keepDisjoint free l).map (shift n) := by
  induction l generalizing free with
  | nil => rfl
  | cons m r ih =>
    rw [List.map_cons, keepDisjoint, keepDisjoint, shift_start, shift_stop, ih, ih]
    by_cases hfree : free ≤ m.start
    · rw [if_pos (Nat.add_le_add_left hfree n), if_pos hfree, List.map_cons]
    · rw [if_neg (by omega), if_neg hfree]

theorem keepDisjoint_append {free n : Nat} {l l' : List EntryMatch} (hfree : free ≤ n)
    (hl : ∀ m ∈ l, m.stop ≤ n) (hl' : ∀ m ∈ l', n ≤ m.start) :
    keepDisjoint free (l ++ l') = keepDisjoint free l ++ keepDisjoint n l' := by
  induction l generalizing free with
  | nil =>
    cases l' with
    | nil => rfl
    | cons m r =>
      have hm := hl' m List.mem_cons_self
      rw [List.nil_append, keepDisjoint, keepDisjoint, keepDisjoint, if_pos hm,
        if_pos (Nat.le_trans hfree hm), List.nil_append]
  | cons m r ih =>
    have hr : ∀ k ∈ r, k.stop ≤ n := fun k hk => hl k (List.mem_cons_of_mem m hk)
    rw [List.cons_append, keepDisjoint, keepDisjoint, ih (hl m List.mem_cons_self) hr,
      ih hfree hr]
    split
    · rw [List.cons_append]
    · rfl

theorem StandsIn.stop_le {text : Text} {m : EntryMatch} (h : m.StandsIn rules text) :
    m.stop ≤ text.size := by
  obtain ⟨-, -, before, word, after, rfl, hstart, hend, -⟩ := h
  simp only [stop, Text.size_append]
  omega

/-- The matches of two lots of lines are those of the first lot, and those of the second one
behind it. -/
theorem scan_append_newline (h : ∀ rule ∈ rules, '\n' ∉ rule.token) (a b : Text) :
    scan rules (a ++ '\n' :: b) =
      scan rules (a ++ ['\n']) ++ (scan rules b).map (shift (a ++ ['\n']).size) := by
  have hsize : 0 + a.size + 1 = (a ++ ['\n']).size + 0 := by
    rw [Text.size_append, Nat.zero_add]
    rfl
  have hcandidates : candidates rules (a ++ '\n' :: b) = candidates rules (a ++ ['\n']) ++
      (candidates rules b).map (shift (a ++ ['\n']).size) := by
    rw [candidates_eq, candidates_eq, candidates_eq, candidatesFrom_append_newline h, hsize,
      candidatesFrom_shift rules _ b (Nat.le_refl 0)]
  rw [scan, hcandidates, keepDisjoint_append (Nat.zero_le _), scan, scan, ← keepDisjoint_shift,
    Nat.add_zero]
  · intro m hm
    exact (standsIn_of_mem_candidates hm).stop_le
  · intro m hm
    obtain ⟨k, -, rfl⟩ := List.mem_map.1 hm
    exact Nat.le_add_right _ _

end EntryMatch

end Tint
