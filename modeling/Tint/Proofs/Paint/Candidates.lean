import Tint.Proofs.Paint.Kept
import Tint.Proofs.Rules.Accepted
set_option autoImplicit false

/-!
# What the search finds

The search for entry matches is described without its loop.  At an offset a rule is a candidate
when its marker stands there behind a word and no rule before it in the list has one that does
(`IsCandidate`, by the bytes of the text).  `Meets` goes through the offsets from left to right:
the next candidate is the first one there is, and the way goes on behind its marker.

The search meets exactly these candidates (`meets_candidates`), and keeps those that do not overlap
what it has kept.  With the entry rules of a file, longest marker first, a match has the longest
marker that stands at its place.
-/

namespace Tint

open Text

/-- The marker of the rule stands at the front of a text; an empty one stands nowhere. -/
def EntryRule.Stands (rule : EntryRule) (rest : Text) : Prop :=
  rule.token ≠ [] ∧ rule.token <+: rest

namespace EntryMatch

/-- The byte before the offset belongs to a word, and the rule is the first whose marker stands at
the offset. -/
structure IsCandidate (rules : List EntryRule) (text : Text) (offset : Nat) (rule : EntryRule) :
    Prop where
  behind_word : 0 < offset ∧
    ∃ b, text.bytes[offset - 1]? = some b ∧ asciiByte isWordChar b = true
  first : ∃ rest earlier later, text.dropBytes? offset = some rest ∧
    rules = earlier ++ rule :: later ∧ rule.Stands rest ∧ ∀ e ∈ earlier, ¬ e.Stands rest

/-- The candidates met from an offset on, from left to right, where the way goes on behind the
marker of each candidate. -/
inductive Meets (rules : List EntryRule) (text : Text) : Nat → List EntryMatch → Prop where
  | nil {place : Nat} (none : ∀ q rule, place ≤ q → ¬ IsCandidate rules text q rule) :
      Meets rules text place []
  | cons {place : Nat} {m : EntryMatch} {l : List EntryMatch} (le : place ≤ m.wordEnd)
      (candidate : IsCandidate rules text m.wordEnd m.rule)
      (between : ∀ q rule, place ≤ q → q < m.wordEnd → ¬ IsCandidate rules text q rule) :
      Meets rules text m.stop l → Meets rules text place (m :: l)

variable {rules : List EntryRule} {text : Text} {place : Nat} {l : List EntryMatch}

theorem markerAt?_eq_some_iff {rest : Text} {rule : EntryRule} :
    markerAt? rules rest = some rule ↔ ∃ earlier later, rules = earlier ++ rule :: later ∧
      rule.Stands rest ∧ ∀ e ∈ earlier, ¬ e.Stands rest := by
  have hstands (e : EntryRule) :
      (!e.token.isEmpty && rest.startsWith e.token) = true ↔ e.Stands rest := by
    rw [Bool.and_eq_true, startsWith_iff, Bool.not_eq_true', List.isEmpty_eq_false_iff]
    rfl
  rw [markerAt?, List.find?_eq_some_iff_append, hstands]
  constructor
  · rintro ⟨hrule, earlier, later, hrules, hearlier⟩
    refine ⟨earlier, later, hrules, hrule, ?_⟩
    intro e he hestands
    have hnot := hearlier e he
    rw [(hstands e).2 hestands] at hnot
    cases hnot
  · rintro ⟨earlier, later, hrules, hrule, hearlier⟩
    refine ⟨hrule, earlier, later, hrules, ?_⟩
    intro e he
    rw [Bool.not_eq_true', Bool.eq_false_iff, ne_eq, hstands]
    exact hearlier e he

/-! ## The way from candidate to candidate -/

/-- Offsets without candidates can be put in front of the way. -/
theorem Meets.of_le {next : Nat} (h : Meets rules text next l)
    (hnone : ∀ q rule, place ≤ q → q < next → ¬ IsCandidate rules text q rule)
    (hle : place ≤ next) : Meets rules text place l := by
  cases h with
  | nil none =>
    refine .nil fun q rule hq => ?_
    rcases Nat.lt_or_ge q next with hlt | hge
    · exact hnone q rule hq hlt
    · exact none q rule hge
  | cons le candidate between rest =>
    refine .cons (Nat.le_trans hle le) candidate ?_ rest
    intro q rule hq hend
    rcases Nat.lt_or_ge q next with hlt | hge
    · exact hnone q rule hq hlt
    · exact between q rule hge hend

theorem Meets.le_wordEnd (h : Meets rules text place l) {m : EntryMatch} (hm : m ∈ l) :
    place ≤ m.wordEnd := by
  induction h with
  | nil => cases hm
  | @cons place a l le _ _ _ ih =>
    rcases List.mem_cons.1 hm with rfl | hm
    · exact le
    · have hle := ih hm
      rw [stop] at hle
      omega

/-- The markers of the candidates follow one another. -/
theorem Meets.pairwise (h : Meets rules text place l) :
    l.Pairwise fun a b => a.stop ≤ b.wordEnd := by
  induction h with
  | nil => exact .nil
  | cons _ _ _ rest ih => exact .cons (fun _ hb => rest.le_wordEnd hb) ih

end EntryMatch

open EntryMatch

/-! ## The search -/

namespace Scanner

variable {rules : List EntryRule} {text : Text} {s : Scanner}

/-- A candidate at the place of the search is what the search finds there. -/
theorem Tracks.isCandidate_iff (h : s.Tracks rules text) {rule : EntryRule} :
    IsCandidate rules text s.pos rule ↔ s.hit? rules = some rule := by
  have hpos : s.pos = size s.passed.reverse := by rw [h.pos_eq, size_reverse]
  have hbyte : 0 < s.pos → ∃ b, text.bytes[s.pos - 1]? = some b ∧
      asciiByte isWordChar b = decide (0 < s.word) := by
    intro hlt
    rw [hpos] at hlt
    have hbyte := exists_byte_before isAscii_isWordChar hlt s.rest
    rwa [h.text_eq, ← hpos, any_getLast?_passed] at hbyte
  have hword : 0 < s.word → 0 < s.pos := by
    obtain ⟨before, w, hpassed, hlength, -⟩ := s.exists_word
    have := length_le_size w
    rw [hpos, hpassed, size_append]
    omega
  constructor
  · rintro ⟨⟨hlt, b, hget, hb⟩, rest, earlier, later, hrest, hrules, hstands⟩
    obtain ⟨b', hget', hb'⟩ := hbyte hlt
    rw [hget, Option.some.injEq] at hget'
    subst hget'
    rw [hb, eq_comm, decide_eq_true_eq] at hb'
    rw [h.dropBytes?, Option.some.injEq] at hrest
    subst hrest
    rw [hit?, if_neg (Nat.ne_of_gt hb')]
    exact markerAt?_eq_some_iff.2 ⟨earlier, later, hrules, hstands⟩
  · intro hit
    unfold hit? at hit
    split at hit
    · cases hit
    · rename_i hne
      have hlt := Nat.pos_of_ne_zero hne
      obtain ⟨b, hget, hb⟩ := hbyte (hword hlt)
      rw [decide_eq_true hlt] at hb
      obtain ⟨earlier, later, hrules, hstands⟩ := markerAt?_eq_some_iff.1 hit
      exact ⟨⟨hword hlt, b, hget, hb⟩, s.rest, earlier, later, h.dropBytes?, hrules, hstands⟩

/-- A place where nothing is found is the only one up to the next place. -/
theorem Tracks.not_isCandidate (h : s.Tracks rules text) (hit : s.hit? rules = none)
    (hrest : s.rest ≠ []) {q : Nat} {rule : EntryRule} (hq : s.pos ≤ q)
    (hlt : q < (s.step rules).pos) : ¬ IsCandidate rules text q rule := by
  intro hcandidate
  obtain ⟨c, r, hr⟩ := List.exists_cons_of_ne_nil hrest
  have hstep : (s.step rules).pos = s.pos + c.utf8Size := by
    rw [pos_step, next, hit, hr]
    rfl
  obtain ⟨rest, -, -, hdrop, -⟩ := hcandidate.first
  obtain ⟨before, htext, hsize⟩ := dropBytes?_eq_some_iff.1 hdrop
  have hcut : s.passed.reverse ++ c :: r = before ++ rest := by rw [← htext, ← hr, h.text_eq]
  have hpos : size s.passed.reverse = s.pos := by rw [size_reverse, h.pos_eq]
  rcases Nat.eq_or_lt_of_le hq with rfl | hgt
  · rw [h.isCandidate_iff, hit] at hcandidate
    cases hcandidate
  · have := size_add_le_of_append_eq hcut (by omega)
    omega

/-- From every place on, the loop finds the candidates that are met from there. -/
theorem Tracks.meets_run (h : s.Tracks rules text) {fuel : Nat} (hfuel : s.rest.length ≤ fuel) :
    ∃ l, ((loop rules).run fuel s).found.reverse = s.found.reverse ++ l ∧
      Meets rules text s.pos l := by
  refine Loop.run_induction (descends rules text) (Q := fun s _ t =>
    ∃ l, t.found.reverse = s.found.reverse ++ l ∧ Meets rules text s.pos l) ?_ ?_ h hfuel
  · intro s hdone hs
    have hnil : s.rest = [] := List.isEmpty_iff.1 hdone
    refine ⟨[], (List.append_nil _).symm, .nil ?_⟩
    intro q rule hq hcandidate
    obtain ⟨rest, -, -, hdrop, -, hstands, -⟩ := hcandidate.first
    have hlt := (IsSlice.of_dropBytes? hdrop hstands.2).le_size
    have := size_pos hstands.1
    rw [← hs.text_eq, hnil, List.append_nil, size_reverse, ← hs.pos_eq] at hlt
    omega
  · rintro s _ t hdone hs ⟨l, hfound, hmeets⟩
    have hrest := rest_ne_nil_of_done hdone
    change t.found.reverse = (s.step rules).found.reverse ++ l at hfound
    change Meets rules text (s.step rules).pos l at hmeets
    cases hit : s.hit? rules with
    | none =>
      have hstep : (s.step rules).found = s.found := by
        unfold Scanner.step
        rw [hit]
        rfl
      have hle : s.pos ≤ (s.step rules).pos := by
        rw [pos_step]
        omega
      rw [hstep] at hfound
      refine ⟨l, hfound, hmeets.of_le ?_ hle⟩
      intro q rule hq hlt
      exact hs.not_isCandidate hit hrest hq hlt
    | some rule =>
      have hstep : (s.step rules).found = ⟨s.pos - s.word, s.pos, rule⟩ :: s.found := by
        unfold Scanner.step
        rw [hit]
      have hpos : (s.step rules).pos = s.pos + rule.token.size := by rw [pos_step, next, hit]
      rw [hstep, List.reverse_cons, List.append_assoc] at hfound
      rw [hpos] at hmeets
      refine ⟨⟨s.pos - s.word, s.pos, rule⟩ :: l, hfound, ?_⟩
      refine .cons (Nat.le_refl _) (hs.isCandidate_iff.2 hit) ?_ hmeets
      intro q rule' hq hlt
      exact absurd hlt (Nat.not_lt_of_ge hq)

end Scanner

namespace EntryMatch

variable {rules : List EntryRule} {text : Text}

theorem meets_candidates (rules : List EntryRule) (text : Text) :
    Meets rules text 0 (candidates rules text) := by
  obtain ⟨l, hfound, hmeets⟩ :=
    (Scanner.tracks_start rules text).meets_run (Nat.le_refl text.length)
  rw [Scanner.candidates_eq_found rules text (Nat.le_refl _), hfound]
  exact hmeets

/-- Candidates come in the order of their starts. -/
theorem pairwise_start_candidates (rules : List EntryRule) (text : Text) :
    (candidates rules text).Pairwise fun a b => a.start ≤ b.start := by
  refine (meets_candidates rules text).pairwise.imp_of_mem ?_
  intro a b ha hb hstop
  refine (standsIn_of_mem_candidates ha).start_le (standsIn_of_mem_candidates hb) ?_
  rw [stop] at hstop
  omega

theorem isCandidate_of_mem {place : Nat} {l : List EntryMatch} (h : Meets rules text place l)
    {m : EntryMatch} (hm : m ∈ l) : IsCandidate rules text m.wordEnd m.rule := by
  induction h with
  | nil => cases hm
  | cons _ candidate _ _ ih =>
    rcases List.mem_cons.1 hm with rfl | hm
    · exact candidate
    · exact ih hm

/-- Where the rules come longest marker first, no longer marker stands at a candidate than its
own. -/
theorem IsCandidate.length_le (hrules : rules.Pairwise fun a b => b.token.length ≤ a.token.length)
    {offset : Nat} {rule : EntryRule} (h : IsCandidate rules text offset rule) {rest : Text}
    (hrest : text.dropBytes? offset = some rest) {other : EntryRule} (hother : other ∈ rules)
    (hstands : other.token <+: rest) :
    other.token.length ≤ rule.token.length ∧ other.token.size ≤ rule.token.size := by
  obtain ⟨rest', earlier, later, hdrop, rfl, hrule, hearlier⟩ := h.first
  rw [hrest, Option.some.injEq] at hdrop
  subst hdrop
  have hlength : other.token.length ≤ rule.token.length := by
    rcases List.mem_append.1 hother with hmem | hmem
    · have hnil : other.token = [] := by
        by_contra hne
        exact hearlier other hmem ⟨hne, hstands⟩
      rw [hnil]
      exact Nat.zero_le _
    · rcases List.mem_cons.1 hmem with rfl | hmem
      · exact Nat.le_refl _
      · exact List.rel_of_pairwise_cons (List.pairwise_append.1 hrules).2.1 hmem
  exact ⟨hlength, size_le_of_isPrefix (List.prefix_of_prefix_length_le hstands hrule.2 hlength)⟩

/-- Of the rules with the marker of a candidate, its own is the first. -/
theorem IsCandidate.find?_token {offset : Nat} {rule : EntryRule}
    (h : IsCandidate rules text offset rule) :
    rules.find? (fun other => other.token == rule.token) = some rule := by
  obtain ⟨rest, earlier, later, -, rfl, hrule, hearlier⟩ := h.first
  rw [List.find?_eq_some_iff_append]
  refine ⟨beq_self_eq_true _, earlier, later, rfl, ?_⟩
  intro e he
  rw [Bool.not_eq_true', beq_eq_false_iff_ne]
  intro htoken
  apply hearlier e he
  rw [EntryRule.Stands, htoken]
  exact hrule

end EntryMatch

/-- Rules with one marker keep their order when the longest markers are put first. -/
theorem RuleSet.Holds.find?_entry {rules : RuleSet} {ds : List Directive} (h : rules.Holds ds)
    (token : Text) :
    rules.entries.find? (fun r => r.token == token) =
      (ds.filterMap Directive.entry?).find? fun r => r.token == token := by
  have hfilter (l : List EntryRule) : l.find? (fun r => r.token == token) =
      (l.filter fun r => r.token.length == token.length).find? fun r => r.token == token := by
    rw [List.find?_filter]
    congr 1
    funext r
    cases htoken : r.token == token with
    | false => simp
    | true => simp [eq_of_beq htoken]
  rw [hfilter, hfilter (ds.filterMap Directive.entry?), h.entries_stable]

namespace EntryMatch

/-- The search returns the candidates that it meets, except those that start before the last one
kept ends.  All of them stand in the text; the matches follow one another without overlaps, and a
candidate that is left out overlaps a match that starts no later.  With the rules of a file, no
longer marker stands at a match than its own, and among the rules of the file that have this
marker its own is the first. -/
theorem scan_exact (rules : List EntryRule) (text : Text) :
    (∃ raw, Meets rules text 0 raw ∧ Keeps none raw (scan rules text) ∧
      (∀ m ∈ raw, m.StandsIn rules text) ∧
      ∀ m ∈ raw, m ∉ scan rules text →
        ∃ k ∈ scan rules text, k.start ≤ m.start ∧ m.start < k.stop) ∧
    (scan rules text).Pairwise (fun a b => a.start < b.start ∧ a.stop ≤ b.start) ∧
    ∀ file contents, RuleFile.read file = .ok contents → contents.rules.entries = rules →
      ∀ m ∈ scan rules text,
        (∀ rest, text.dropBytes? m.wordEnd = some rest →
          ∀ other ∈ rules, other.token <+: rest →
            other.token.length ≤ m.rule.token.length ∧ other.token.size ≤ m.rule.token.size) ∧
        ((RuleFile.accepted file).filterMap Directive.entry?).find?
          (fun other => other.token == m.rule.token) = some m.rule := by
  have hmeets := meets_candidates rules text
  have hkeeps := keeps_scan rules text
  refine ⟨⟨candidates rules text, hmeets, hkeeps, ?_, ?_⟩, ?_, ?_⟩
  · intro m hm
    exact standsIn_of_mem_candidates hm
  · intro m hm hnot
    have hsorted := pairwise_start_candidates rules text
    rcases hkeeps.overlaps hsorted (by simp) hm with hkept | ⟨k, hk | hk, hover⟩
    · exact absurd hkept hnot
    · cases hk
    · exact ⟨k, hk, hover⟩
  · refine (pairwise_scan rules text).imp_of_mem ?_
    intro a b ha _ hab
    have := (standsIn_of_mem_scan ha).start_lt_stop
    omega
  · rintro file contents hread rfl m hm
    have hholds : contents.rules.Holds (RuleFile.accepted file) := by
      rw [RuleFile.rules_of_read hread]
      exact RuleSet.holds_ofDirectives _
    have hcandidate := isCandidate_of_mem hmeets (mem_of_mem_keepDisjoint hm)
    refine ⟨?_, ?_⟩
    · intro rest hrest other hother hstands
      exact hcandidate.length_le hholds.entries_descend hrest hother hstands
    · rw [← hholds.find?_entry]
      exact hcandidate.find?_token

/-- The word of `=` reaches back into a marker, and a shorter marker stands where `::` does. -/
theorem scan_exact_longest :
    ∃ contents, RuleFile.read ("%highlight voice: snow-bud v1.3%\n*entry : #f0f\n".toList ++
        "*entry = #00f\n*entry .b #f00\n*entry :: #0f0".toList) = .ok contents ∧
      let rules := contents.rules.entries
      let text : Text := "a.b=c d::".toList
      scan rules text =
        [⟨0, 1, ⟨".b".toList, "#f00".toList⟩⟩, ⟨6, 7, ⟨"::".toList, "#0f0".toList⟩⟩] ∧
      (∃ raw, Meets rules text 0 raw ∧ Keeps none raw (scan rules text)) ∧
      ∀ m ∈ scan rules text, ∀ rest, text.dropBytes? m.wordEnd = some rest → ∀ other ∈ rules,
        other.token <+: rest → other.token.length ≤ m.rule.token.length := by
  have hread : RuleFile.read ("%highlight voice: snow-bud v1.3%\n*entry : #f0f\n".toList ++
      "*entry = #00f\n*entry .b #f00\n*entry :: #0f0".toList) =
        .ok ⟨.ofDirectives [.entry ⟨":".toList, "#f0f".toList⟩, .entry ⟨"=".toList, "#00f".toList⟩,
          .entry ⟨".b".toList, "#f00".toList⟩, .entry ⟨"::".toList, "#0f0".toList⟩], []⟩ := rfl
  refine ⟨_, hread, ?_⟩
  intro rules text
  obtain ⟨⟨raw, hmeets, hkeeps, -⟩, -, hlongest⟩ := scan_exact rules text
  refine ⟨rfl, ⟨raw, hmeets, hkeeps⟩, ?_⟩
  intro m hm rest hrest other hother hstands
  exact ((hlongest _ _ hread rfl m hm).1 rest hrest other hother hstands).1

end EntryMatch

end Tint
