import Tint.Proofs.Paint.Scanner
set_option autoImplicit false

/-!
# The matches that are kept

A word reaches back exactly as far as the bytes before its marker are those of word characters
(`StandsIn.start_le_iff`).  So the candidates of a text start one after another, though their words
may reach back over markers found before (`StandsIn.start_le`).  Of them the search keeps the first
one and then each one that starts no earlier than the last one kept ends; `EntryMatch.Keeps` says so
of two lists, and `keepDisjoint` does it (`keeps_keepDisjoint`).

So no two matches overlap (`pairwise_scan`), and what is left out overlaps a match that is kept and
starts no later (`Keeps.overlaps`).
-/

namespace Tint.EntryMatch

/-- The second list is made of the matches of the first one that start no earlier than the last
one kept ends. -/
inductive Keeps : (last : Option EntryMatch) → List EntryMatch → List EntryMatch → Prop where
  | nil (last : Option EntryMatch) : Keeps last [] []
  | keep {last : Option EntryMatch} {m : EntryMatch} {r kept : List EntryMatch}
      (free : ∀ k, last = some k → k.stop ≤ m.start) :
      Keeps (some m) r kept → Keeps last (m :: r) (m :: kept)
  | drop {k m : EntryMatch} {r kept : List EntryMatch} (overlaps : m.start < k.stop) :
      Keeps (some k) r kept → Keeps (some k) (m :: r) kept

theorem keeps_keepDisjoint (last : Option EntryMatch) (l : List EntryMatch) :
    Keeps last l (keepDisjoint (last.elim 0 stop) l) := by
  induction l generalizing last with
  | nil => exact .nil last
  | cons m r ih =>
    unfold keepDisjoint
    split
    · rename_i hle
      refine .keep ?_ (ih (some m))
      rintro k rfl
      exact hle
    · rename_i hgt
      cases last with
      | none => exact absurd (Nat.zero_le m.start) hgt
      | some k => exact .drop (Nat.lt_of_not_le hgt) (ih (some k))

variable {last : Option EntryMatch} {l kept : List EntryMatch}

theorem Keeps.stop_le (h : Keeps last l kept) (hl : ∀ m ∈ l, m.start < m.stop) {k m : EntryMatch}
    (hlast : last = some k) (hm : m ∈ kept) : k.stop ≤ m.start := by
  induction h generalizing k with
  | nil => cases hm
  | @keep last a r kept free _ ih =>
    have hka := free k hlast
    rcases List.mem_cons.1 hm with rfl | hm
    · exact hka
    · have ham := ih (fun b hb => hl b (List.mem_cons_of_mem a hb)) rfl hm
      have ha := hl a List.mem_cons_self
      omega
  | @drop _ a r kept _ _ ih =>
    exact ih (fun b hb => hl b (List.mem_cons_of_mem a hb)) hlast hm

/-- No two of the kept matches overlap. -/
theorem Keeps.pairwise (h : Keeps last l kept) (hl : ∀ m ∈ l, m.start < m.stop) :
    kept.Pairwise fun a b => a.stop ≤ b.start := by
  induction h with
  | nil => exact .nil
  | @keep last a r kept _ hr ih =>
    have hlr : ∀ m ∈ r, m.start < m.stop := fun b hb => hl b (List.mem_cons_of_mem a hb)
    exact .cons (fun b hb => hr.stop_le hlr rfl hb) (ih hlr)
  | @drop _ a r kept _ _ ih => exact ih fun b hb => hl b (List.mem_cons_of_mem a hb)

/-- What is not kept overlaps a match kept before it. -/
theorem Keeps.overlaps (h : Keeps last l kept) (hsorted : l.Pairwise fun a b => a.start ≤ b.start)
    (hlast : ∀ k, last = some k → ∀ m ∈ l, k.start ≤ m.start) {m : EntryMatch} (hm : m ∈ l) :
    m ∈ kept ∨ ∃ k, (last = some k ∨ k ∈ kept) ∧ k.start ≤ m.start ∧ m.start < k.stop := by
  induction h with
  | nil => cases hm
  | @keep last a r kept _ _ ih =>
    obtain ⟨ha, hr⟩ := List.pairwise_cons.1 hsorted
    rcases List.mem_cons.1 hm with rfl | hm
    · exact .inl List.mem_cons_self
    · have hfrom : ∀ k, some a = some k → ∀ b ∈ r, k.start ≤ b.start := by
        rintro k ⟨⟩ b hb
        exact ha b hb
      rcases ih hr hfrom hm with hm | ⟨k, hk | hk, hover⟩
      · exact .inl (List.mem_cons_of_mem a hm)
      · cases hk
        exact .inr ⟨a, .inr List.mem_cons_self, hover⟩
      · exact .inr ⟨k, .inr (List.mem_cons_of_mem a hk), hover⟩
  | @drop k a r kept hover _ ih =>
    obtain ⟨-, hr⟩ := List.pairwise_cons.1 hsorted
    rcases List.mem_cons.1 hm with rfl | hm
    · exact .inr ⟨k, .inl rfl, hlast k rfl m List.mem_cons_self, hover⟩
    · exact ih hr (fun d hd b hb => hlast d hd b (List.mem_cons_of_mem a hb)) hm

/-! ## Words that reach back -/

variable {rules : List EntryRule} {text : Text} {a b m : EntryMatch}

theorem StandsIn.start_lt_stop (h : m.StandsIn rules text) : m.start < m.stop := by
  obtain ⟨-, htoken, before, word, after, -, -, hend, -⟩ := h
  have := Text.size_pos htoken
  rw [stop]
  omega

/-- All bytes from one offset to another are those of word characters. -/
def AreWordBytes (text : Text) (first stop : Nat) : Prop :=
  ∀ i, first ≤ i → i < stop → ∃ b, text.bytes[i]? = some b ∧ Text.asciiByte isWordChar b = true

/-- The word before a marker reaches back exactly as far as there are word characters. -/
theorem StandsIn.start_le_iff (h : m.StandsIn rules text) {offset : Nat} :
    m.start ≤ offset ↔ AreWordBytes text offset m.wordEnd := by
  obtain ⟨-, -, before, word, after, rfl, hstart, hend, -, hchars, hbefore⟩ := h
  constructor
  · intro hle i hi hlt
    rw [List.append_assoc]
    exact Text.exists_byte_within isAscii_isWordChar hchars _ (by omega) (by omega)
  · intro hbytes
    rcases Nat.lt_or_ge offset m.start with hlt | hge
    · -- the byte before a maximal word is not that of a word character
      have hpos : 0 < before.size := by omega
      obtain ⟨b, hget, hb⟩ := Text.exists_byte_before isAscii_isWordChar hpos
        (word ++ m.rule.token ++ after)
      obtain ⟨b', hget', hb'⟩ := hbytes (before.size - 1) (by omega) (by omega)
      rw [← List.append_assoc, ← List.append_assoc, hget', Option.some.injEq] at hget
      rw [hbefore, ← hget, hb'] at hb
      cases hb
    · exact hge

/-- Nothing but word characters stands between the start of a word and an earlier marker behind
that start. -/
theorem StandsIn.start_le (ha : a.StandsIn rules text) (hb : b.StandsIn rules text)
    (hle : a.wordEnd ≤ b.wordEnd) : a.start ≤ b.start := by
  refine ha.start_le_iff.2 fun i hi hlt => ?_
  have hbytes : AreWordBytes text b.start b.wordEnd := hb.start_le_iff.1 (Nat.le_refl _)
  exact hbytes i hi (Nat.lt_of_lt_of_le hlt hle)

/-! ## The matches of a text -/

theorem keeps_scan (rules : List EntryRule) (text : Text) :
    Keeps none (candidates rules text) (scan rules text) :=
  keeps_keepDisjoint none (candidates rules text)

/-- The matches of a text follow one another and do not overlap. -/
theorem pairwise_scan (rules : List EntryRule) (text : Text) :
    (scan rules text).Pairwise fun a b => a.stop ≤ b.start :=
  (keeps_scan rules text).pairwise fun _ hm => (standsIn_of_mem_candidates hm).start_lt_stop

end Tint.EntryMatch
