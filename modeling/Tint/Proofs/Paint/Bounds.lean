import Tint.Proofs.Paint.Move
set_option autoImplicit false

/-!
# Both passes stay inside the text

A text is read twice, by the search for entry matches and by the painter.  Each of the two is a
loop whose position is an offset in bytes, and each looks at the byte before its position and at
slices that start there.

`Scanner.InBounds` and `Painter.InBounds` list these accesses, each of them as something that
exists: a rest behind the position, a byte before it, a slice between two offsets.  They hold
wherever a step is taken, the position moves on with every step, and so both loops end
(`Scanner.bounded`, `Painter.bounded`).  The entry rules of the search are arbitrary; only
the painter's progress needs delimiters that are not empty.
-/

namespace Tint

open Text EntryMatch

theorem Word.isAscii_isPart : IsAscii Word.isPart := by
  have hone {d : Char} (hd : d.toNat < 128) : IsAscii (· == d) := isAscii_beq hd
  have hat : IsAscii fun c => c.isAlpha || c == '<' || c == '@' :=
    (isAscii_isAlpha.or (hone (by decide))).or (hone (by decide))
  have hstart : IsAscii Word.isStart :=
    ((hat.or (hone (by decide))).or (hone (by decide))).or (hone (by decide))
  exact (hstart.or isAscii_isDigit).or (hone (by decide))

/-! ## The search for entry matches -/

namespace Scanner

/-- What a step of the search reads is there, and the step moves on. -/
structure InBounds (rules : List EntryRule) (text : Text) (s : Scanner) : Prop where
  /-- the position is a boundary, with the rest behind it -/
  rest : text.dropBytes? s.pos = some s.rest
  /-- there is a byte before it, which tells whether a word ends here -/
  before : 0 < s.pos → ∃ b, text.bytes[s.pos - 1]? = some b ∧
    asciiByte isWordChar b = decide (0 < s.word)
  /-- the walk back to the start of the word reads bytes of the text only -/
  wordStart : runStart? isWordChar text.bytes s.pos = some (s.pos - s.word)
  word : ∃ w, text.IsSlice (s.pos - s.word) s.pos w
  token : ∀ rule, s.hit? rules = some rule → text.IsSlice s.pos (s.step rules).pos rule.token
  pos_lt : s.pos < (s.step rules).pos
  pos_le : (s.step rules).pos ≤ text.size
  /-- the next position is a boundary again -/
  next : text.dropBytes? (s.step rules).pos = some (s.step rules).rest

variable {rules : List EntryRule} {text : Text} {s : Scanner}

theorem Tracks.isSlice_next (h : s.Tracks rules text) :
    text.IsSlice s.pos (s.step rules).pos (s.next rules) := by
  rw [pos_step]
  exact IsSlice.of_dropBytes? h.dropBytes? (next_isPrefix rules s)

theorem Tracks.inBounds (h : s.Tracks rules text) (hrest : s.rest ≠ []) :
    s.InBounds rules text := by
  have hpos : s.pos = size s.passed.reverse := by rw [h.pos_eq, size_reverse]
  obtain ⟨before, w, hpassed, hlength, hchars, hbefore⟩ := s.exists_word
  have hw : size w = s.word := by rw [size_eq_length isAscii_isWordChar hchars, hlength]
  have hstart : s.pos = size before + size w := by rw [hpos, hpassed, size_append]
  have htext : text = before ++ w ++ s.rest := by rw [← h.text_eq, hpassed]
  refine ⟨h.dropBytes?, ?_, ?_, ?_, ?_, ?_, h.isSlice_next.le_size, h.step.dropBytes?⟩
  · intro hlt
    rw [hpos] at hlt
    have hbyte := exists_byte_before isAscii_isWordChar hlt s.rest
    rwa [h.text_eq, ← hpos, any_getLast?_passed] at hbyte
  · have hrun : runStart? isWordChar (bytes (before ++ w ++ s.rest)) (size before + size w) =
        some (size before) := runStart?_eq isAscii_isWordChar hchars hbefore
    rw [← htext, ← hstart] at hrun
    rw [hrun, ← hw, hstart, Nat.add_sub_cancel]
  · refine ⟨w, before, s.rest, htext, ?_, ?_⟩ <;> omega
  · intro rule hit
    have hnext := h.isSlice_next
    unfold next at hnext
    rwa [hit] at hnext
  · exact h.isSlice_next.lt_of_ne_nil (next_ne_nil rules hrest)

/-- The search stays inside the text and ends. -/
theorem bounded (rules : List EntryRule) (text : Text) :
    (loop rules).Bounded (InBounds rules text) text.size (start text) := by
  apply (descends rules text).bounded
  · intro s hdone hs
    exact hs.inBounds (rest_ne_nil_of_done hdone)
  · exact tracks_start rules text
  · exact length_le_size text

end Scanner

/-! ## Painting -/

namespace Painter

/-- What a step of the painter reads is there, and the step moves on. -/
structure InBounds (rules : RuleSet) (text : Text) (p : Painter) : Prop where
  /-- the position is a boundary, with the rest behind it -/
  rest : text.dropBytes? p.pos = some p.rest
  /-- there is a byte before it, which tells whether a word can start here -/
  before : 0 < p.pos → ∃ b, text.bytes[p.pos - 1]? = some b ∧
    asciiByte Word.isPart b = p.previous.any Word.isPart
  /-- the word that stands here, measured in bytes -/
  word : ∀ w, Word.at? p.previous p.rest = some w → text.IsSlice p.pos
    (p.pos + ((text.bytes.drop p.pos).takeWhile (asciiByte Word.isPart)).length) w
  char : ∀ c r, p.rest = c :: r → text.IsSlice p.pos (p.pos + c.utf8Size) [c]
  /-- the word and the marker of a match that is due -/
  due : ∀ m, p.due? = some m → (p.step rules).pos = m.stop ∧
    (∃ w, text.IsSlice m.start m.wordEnd w) ∧ text.IsSlice m.wordEnd m.stop m.rule.token
  /-- what is painted is what stands here -/
  painted : ∃ piece region, Move rules p piece region ∧ p.step rules = p.after piece region ∧
    text.IsSlice p.pos (p.step rules).pos piece.source
  pos_lt : p.pos < (p.step rules).pos
  pos_le : (p.step rules).pos ≤ text.size
  /-- the next position is a boundary again -/
  next : text.dropBytes? (p.step rules).pos = some (p.step rules).rest

variable {rules : RuleSet} {entries : List EntryRule} {text : Text} {p : Painter}

theorem Tracks.isSlice_word (h : p.Tracks rules entries text) {w : Text}
    (hw : Word.at? p.previous p.rest = some w) :
    text.IsSlice p.pos
      (p.pos + ((text.bytes.drop p.pos).takeWhile (asciiByte Word.isPart)).length) w := by
  have hbytes : text.bytes.drop p.pos = p.rest.bytes := by
    rw [← h.text_eq, h.pos_eq, bytes_append, ← length_bytes, List.drop_left]
  have htake : w = p.rest.takeWhile Word.isPart := by
    unfold Word.at? at hw
    split at hw
    · cases hw
    · split at hw
      · exact (Option.some.inj hw).symm
      · cases hw
  rw [hbytes, takeWhile_bytes Word.isAscii_isPart, length_bytes, ← htake]
  exact IsSlice.of_dropBytes? h.dropBytes? (Word.isPrefix_of_at? hw)

theorem Tracks.isSlice_due (h : p.Tracks rules entries text) {m : EntryMatch}
    (due : p.due? = some m) : (p.step rules).pos = m.stop ∧
      (∃ w, text.IsSlice m.start m.wordEnd w) ∧ text.IsSlice m.wordEnd m.stop m.rule.token := by
  obtain ⟨hmem, hstart⟩ := due?_eq_some due
  obtain ⟨-, -, before, w, after, htext, hbefore, hend, -⟩ := h.pending_stand m hmem
  obtain ⟨word, -, -, htake, -, -, hword, -⟩ := h.rest_of_due due
  refine ⟨?_, ⟨w, before, m.rule.token ++ after, ?_, hbefore.symm, hend.symm⟩,
    before ++ w, after, htext, ?_, rfl⟩
  · have hstep : p.step rules = p.paintEntry m := by
      unfold Painter.step
      rw [due]
    have hpos : (p.paintEntry m).pos = p.pos + size (word ++ m.rule.token) := by
      rw [← htake]
      rfl
    rw [hstep, hpos, size_append, stop]
    omega
  · rw [htext, List.append_assoc]
  · rw [size_append]
    omega

theorem Tracks.inBounds (h : p.Tracks rules entries text) (hrules : rules.WellFormed)
    (hrest : p.rest ≠ []) : p.InBounds rules text := by
  obtain ⟨piece, region, move, hstep, hslice, hpiece⟩ := h.isSlice_step hrules hrest
  refine ⟨h.dropBytes?, ?_, fun _ => h.isSlice_word, ?_, fun _ => h.isSlice_due,
    ⟨piece, region, move, hstep, hslice⟩, hslice.lt_of_ne_nil hpiece, hslice.le_size,
    (h.step hrest).dropBytes?⟩
  · intro hlt
    rw [h.pos_eq] at hlt
    have hbyte := exists_byte_before Word.isAscii_isPart hlt p.rest
    rwa [h.text_eq, ← h.pos_eq, ← h.previous_eq] at hbyte
  · intro c r hr
    have hc : [c] <+: p.rest := by
      rw [hr]
      exact ⟨r, rfl⟩
    have hchar := IsSlice.of_dropBytes? h.dropBytes? hc
    rwa [size_cons, size_nil, Nat.add_zero] at hchar

/-- The painter stays inside the text and ends. -/
theorem bounded (h : p.Tracks rules entries text) (hrules : rules.WellFormed) :
    (loop rules).Bounded (InBounds rules text) text.size p := by
  apply (descends hrules entries text).bounded
  · intro p hdone hp
    exact hp.inBounds hrules (rest_ne_nil_of_done hdone)
  · exact h
  · have hle := length_le_size (p.source ++ p.rest)
    rw [h.text_eq, ← h.text_eq, List.length_append] at hle
    rw [← h.text_eq]
    omega

end Painter

/-- With the rules of a rule file, and matches that any entry rules have found, both passes over a
text stay inside it and take no more steps than it has bytes; so much is enough for all of the
candidates and for the whole painting. -/
theorem RuleSet.passes_bounded {file : Text} {contents : RuleFile.Contents}
    (h : RuleFile.read file = .ok contents) (entries : List EntryRule) (text : Text) :
    let rules := contents.rules
    let scanner := Scanner.start text
    let painter := Painter.start text (scan entries text)
    (Scanner.loop entries).Bounded (Scanner.InBounds entries text) text.size scanner ∧
      candidates entries text = ((Scanner.loop entries).run text.size scanner).found.reverse ∧
      (Painter.loop rules).Bounded (Painter.InBounds rules text) text.size painter ∧
      painter.finish rules = (Painter.loop rules).run text.size painter := by
  intro rules scanner painter
  have hrules : rules.WellFormed := RuleFile.wellFormed_of_read h
  have hpainter : painter.Tracks rules entries text := rules.tracks_start_scan entries text
  have hcandidates := Scanner.candidates_eq_found entries text (length_le_size text)
  refine ⟨Scanner.bounded entries text, hcandidates, Painter.bounded hpainter hrules, ?_⟩
  have hdone : (Painter.loop rules).done ((Painter.loop rules).run text.length painter) = true := by
    rw [← Painter.steps_eq_run]
    exact List.isEmpty_iff.2 (Painter.rest_finish hpainter hrules)
  rw [Painter.finish, Painter.steps_eq_run]
  exact (Loop.run_eq_of_done hdone (length_le_size text)).symm

/-- An empty marker among the entry rules, and characters of more than one byte. -/
theorem RuleSet.passes_bounded_seven :
    ∃ contents, RuleFile.read "%highlight voice: snow-bud v1.3%\nkey #00f".toList = .ok contents ∧
      let entries : List EntryRule := [⟨[], "red".toList⟩, ⟨":".toList, "green".toList⟩]
      let scanner := Scanner.start "ü key:".toList
      let painter := Painter.start "ü key:".toList (scan entries "ü key:".toList)
      (Scanner.loop entries).Bounded (Scanner.InBounds entries "ü key:".toList) 7 scanner ∧
        (Painter.loop contents.rules).Bounded
          (Painter.InBounds contents.rules "ü key:".toList) 7 painter := by
  have hread : RuleFile.read "%highlight voice: snow-bud v1.3%\nkey #00f".toList =
      .ok ⟨.ofDirectives [.keyword "key".toList "#00f".toList], []⟩ := rfl
  refine ⟨_, hread, ?_⟩
  intro entries scanner painter
  have hsize : size "ü key:".toList = 7 := rfl
  obtain ⟨hscanner, -, hpainter, -⟩ := passes_bounded hread entries "ü key:".toList
  rw [hsize] at hscanner hpainter
  exact ⟨hscanner, hpainter⟩

end Tint
