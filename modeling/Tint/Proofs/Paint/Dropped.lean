import Mathlib.Data.List.Perm.Subperm
import Tint.Proofs.Paint.Candidates
set_option autoImplicit false

/-!
# The candidates that are dropped

Candidates come in the order of their starts, so a stable sort by the start leaves them as they are.
Of all that has been kept before a candidate, what becomes of it depends on the end of the last one
only (`keepDisjoint_append_reach`): the candidates dropped in between do not matter.

A candidate is dropped when its word reaches back into that last match, that is, when all bytes from
the last one of the match to the marker of the candidate are those of word characters
(`notMem_scan_iff`).  No word reaches back into a marker that ends in another character, so every
candidate is kept when all markers do (`scan_eq_candidates`).
-/

namespace Tint

open Text

namespace EntryMatch

variable {rules : List EntryRule} {text : Text} {m : EntryMatch}

/-- The last byte of a match is that of its marker. -/
theorem StandsIn.exists_last_byte (h : m.StandsIn rules text) :
    ∃ b, text.bytes[m.stop - 1]? = some b ∧
      asciiByte isWordChar b = m.rule.token.getLast?.any isWordChar := by
  have hlt := h.start_lt_stop
  obtain ⟨-, htoken, before, word, after, rfl, hstart, hend, -⟩ := h
  have hsize : m.stop = size (before ++ word ++ m.rule.token) := by
    rw [stop, size_append, size_append, hend, hstart]
  have hpos : 0 < size (before ++ word ++ m.rule.token) := by omega
  obtain ⟨b, hget, hb⟩ := exists_byte_before isAscii_isWordChar hpos after
  refine ⟨b, by rw [hsize, hget], ?_⟩
  rw [hb, List.getLast?_append, List.getLast?_eq_some_getLast htoken, Option.some_or]

/-! ## What has been kept -/

/-- Where the last of the matches ends, or `free` when there are none. -/
def reach (free : Nat) (kept : List EntryMatch) : Nat := (kept.getLast?.map stop).getD free

theorem reach_cons (free : Nat) (m : EntryMatch) (kept : List EntryMatch) :
    reach free (m :: kept) = reach m.stop kept := by
  rw [reach, reach, List.getLast?_cons]
  cases kept.getLast? <;> rfl

theorem lt_reach_iff {kept : List EntryMatch} {n : Nat} :
    n < reach 0 kept ↔ ∃ k, kept.getLast? = some k ∧ n < k.stop := by
  rw [reach]
  cases kept.getLast? with
  | none => simp
  | some k => simp

/-- Of what has been kept, only the end of the last match counts for the others. -/
theorem keepDisjoint_append_reach (free : Nat) (l l' : List EntryMatch) :
    keepDisjoint free (l ++ l') =
      keepDisjoint free l ++ keepDisjoint (reach free (keepDisjoint free l)) l' := by
  induction l generalizing free with
  | nil => rfl
  | cons m r ih =>
    rw [List.cons_append, keepDisjoint, keepDisjoint]
    split
    · rw [ih, reach_cons, List.cons_append]
    · exact ih free

theorem keepDisjoint_sublist (free : Nat) (l : List EntryMatch) :
    (keepDisjoint free l).Sublist l := by
  induction l generalizing free with
  | nil => exact .slnil
  | cons m r ih =>
    unfold keepDisjoint
    split
    · exact (ih m.stop).cons_cons m
    · exact (ih free).cons m

/-! ## Candidate by candidate -/

theorem pairwise_stop_candidates (rules : List EntryRule) (text : Text) :
    (candidates rules text).Pairwise fun a b => a.stop ≤ b.wordEnd :=
  (meets_candidates rules text).pairwise

theorem nodup_candidates (rules : List EntryRule) (text : Text) :
    (candidates rules text).Nodup := by
  refine (pairwise_stop_candidates rules text).imp_of_mem ?_
  rintro a b ha - hstop rfl
  obtain ⟨-, htoken, -⟩ := standsIn_of_mem_candidates ha
  have := size_pos htoken
  rw [stop] at hstop
  omega

variable {earlier later : List EntryMatch}

/-- What is kept of the candidates before one are the matches of the text among them. -/
theorem filter_scan (h : candidates rules text = earlier ++ m :: later) :
    (scan rules text).filter (· ∈ earlier) = keepDisjoint 0 earlier := by
  have hnodup := nodup_candidates rules text
  rw [h, List.nodup_append] at hnodup
  rw [scan, h, keepDisjoint_append_reach, List.filter_append]
  have hearlier : (keepDisjoint 0 earlier).filter (· ∈ earlier) = keepDisjoint 0 earlier := by
    refine List.filter_eq_self.2 fun k hk => ?_
    exact decide_eq_true (mem_of_mem_keepDisjoint hk)
  have hlater : (keepDisjoint (reach 0 (keepDisjoint 0 earlier)) (m :: later)).filter
      (· ∈ earlier) = [] := by
    refine List.filter_eq_nil_iff.2 fun k hk hmem => ?_
    exact hnodup.2.2 k (of_decide_eq_true hmem) k (mem_of_mem_keepDisjoint hk) rfl
  rw [hearlier, hlater, List.append_nil]

theorem notMem_scan_iff_lt_reach (h : candidates rules text = earlier ++ m :: later) :
    m ∉ scan rules text ↔ m.start < reach 0 (keepDisjoint 0 earlier) := by
  have hnodup := nodup_candidates rules text
  rw [h, List.nodup_append, List.nodup_cons] at hnodup
  obtain ⟨-, ⟨hlater, -⟩, hdisjoint⟩ := hnodup
  have hearlier : m ∉ keepDisjoint 0 earlier := fun hm =>
    hdisjoint m (mem_of_mem_keepDisjoint hm) m List.mem_cons_self rfl
  rw [scan, h, keepDisjoint_append_reach, List.mem_append, keepDisjoint]
  split
  · rename_i hfree
    simp [hfree]
  · rename_i hfree
    have hdropped : m ∉ keepDisjoint (reach 0 (keepDisjoint 0 earlier)) later := fun hm =>
      hlater (mem_of_mem_keepDisjoint hm)
    simp [hearlier, hdropped, Nat.lt_of_not_le hfree]

theorem stop_le_wordEnd (h : candidates rules text = earlier ++ m :: later) {k : EntryMatch}
    (hk : k ∈ earlier) : k.stop ≤ m.wordEnd := by
  have hpairwise := pairwise_stop_candidates rules text
  rw [h, List.pairwise_append] at hpairwise
  exact hpairwise.2.2 k hk m List.mem_cons_self

/-- A candidate is dropped when the word before its marker reaches back into the last match kept
before it. -/
theorem notMem_scan_iff (h : candidates rules text = earlier ++ m :: later) :
    m ∉ scan rules text ↔ ∃ k, ((scan rules text).filter (· ∈ earlier)).getLast? = some k ∧
      AreWordBytes text (k.stop - 1) m.wordEnd := by
  have hm : m.StandsIn rules text := by
    refine standsIn_of_mem_candidates ?_
    rw [h]
    simp
  rw [notMem_scan_iff_lt_reach h, lt_reach_iff, ← filter_scan h]
  refine exists_congr fun k => and_congr_right fun hlast => ?_
  obtain ⟨hscan, hearlier⟩ := List.mem_filter.1 (List.mem_of_getLast? hlast)
  have hstop := stop_le_wordEnd h (of_decide_eq_true hearlier)
  have hpos := (standsIn_of_mem_scan hscan).start_lt_stop
  rw [← hm.start_le_iff]
  omega

theorem scan_eq_candidates (h : ∀ rule ∈ rules, rule.token.getLast?.any isWordChar = false)
    (text : Text) : scan rules text = candidates rules text := by
  have hkept : candidates rules text ⊆ scan rules text := by
    intro m hm
    by_contra hdropped
    obtain ⟨earlier, later, hsplit⟩ := List.append_of_mem hm
    obtain ⟨k, hlast, hbytes⟩ := (notMem_scan_iff hsplit).1 hdropped
    obtain ⟨hscan, hearlier⟩ := List.mem_filter.1 (List.mem_of_getLast? hlast)
    have hk := standsIn_of_mem_scan hscan
    -- the last byte of the marker would be that of a word character
    have hstop := stop_le_wordEnd hsplit (of_decide_eq_true hearlier)
    have hpos := hk.start_lt_stop
    obtain ⟨b, hget, hb⟩ := hbytes (k.stop - 1) (Nat.le_refl _) (by omega)
    obtain ⟨b', hget', hb'⟩ := hk.exists_last_byte
    rw [hget, Option.some.injEq] at hget'
    rw [h k.rule hk.1, ← hget', hb] at hb'
    cases hb'
  have hlength := ((nodup_candidates rules text).subperm hkept).length_le
  exact (keepDisjoint_sublist 0 (candidates rules text)).eq_of_length_le hlength

/-! ## What the search drops -/

/-- Candidates are found in the order of their starts, so sorting them changes nothing.  One of them
is dropped exactly when a match has been kept before it and all bytes from the last byte of the last
such match up to its marker are those of word characters.  Without a marker that ends in a word
character none is dropped. -/
theorem scan_drops (rules : List EntryRule) (text : Text) :
    (candidates rules text).Pairwise (fun a b => a.start ≤ b.start) ∧
      (candidates rules text).mergeSort (fun a b => a.start ≤ b.start) = candidates rules text ∧
      (∀ earlier m later, candidates rules text = earlier ++ m :: later →
        (m ∉ scan rules text ↔ ∃ k, ((scan rules text).filter (· ∈ earlier)).getLast? = some k ∧
          AreWordBytes text (k.stop - 1) m.wordEnd)) ∧
      ((∀ rule ∈ rules, rule.token.getLast?.any isWordChar = false) →
        scan rules text = candidates rules text) := by
  have hsorted := pairwise_start_candidates rules text
  refine ⟨hsorted, List.mergeSort_of_pairwise ?_, ?_, ?_⟩
  · simpa only [decide_eq_true_eq] using hsorted
  · intro earlier m later h
    exact notMem_scan_iff h
  · intro h
    exact scan_eq_candidates h text

/-- The word before each `-` reaches back to the start of the text, and only the first one is kept;
it is the last one kept before the third, too.  Behind `:` a new word starts each time. -/
theorem scan_drops_hyphens :
    let hyphen : EntryRule := ⟨"-".toList, "#f00".toList⟩
    let colon : EntryRule := ⟨":".toList, "#0f0".toList⟩
    candidates [hyphen] "a-b-c-".toList = [⟨0, 1, hyphen⟩, ⟨0, 3, hyphen⟩] ++ ⟨0, 5, hyphen⟩ :: [] ∧
      scan [hyphen] "a-b-c-".toList = [⟨0, 1, hyphen⟩] ∧
      AreWordBytes "a-b-c-".toList 1 5 ∧
      colon.token.getLast?.any isWordChar = false ∧
      scan [colon] "a:b:c:".toList = [⟨0, 1, colon⟩, ⟨2, 3, colon⟩, ⟨4, 5, colon⟩] := by
  intro hyphen colon
  have hcandidates : candidates [hyphen] "a-b-c-".toList =
      [⟨0, 1, hyphen⟩, ⟨0, 3, hyphen⟩] ++ ⟨0, 5, hyphen⟩ :: [] := rfl
  have hscan : scan [hyphen] "a-b-c-".toList = [⟨0, 1, hyphen⟩] := rfl
  have hcolon : colon.token.getLast?.any isWordChar = false := rfl
  refine ⟨hcandidates, hscan, ?_, hcolon, ?_⟩
  · obtain ⟨-, -, hdrops, -⟩ := scan_drops [hyphen] "a-b-c-".toList
    have hdropped : (⟨0, 5, hyphen⟩ : EntryMatch) ∉ scan [hyphen] "a-b-c-".toList := by
      rw [hscan]
      decide
    obtain ⟨k, hlast, hbytes⟩ := (hdrops _ _ _ hcandidates).1 hdropped
    obtain rfl : (⟨0, 1, hyphen⟩ : EntryMatch) = k := Option.some.inj hlast
    exact hbytes
  · obtain ⟨-, -, -, hkept⟩ := scan_drops [colon] "a:b:c:".toList
    rw [hkept fun rule hrule => by rw [List.mem_singleton.1 hrule, hcolon]]
    rfl

end EntryMatch

end Tint
