import Tint.Rules.RuleSet
set_option autoImplicit false

/-!
# Entry matches

An entry rule marks the word right before its marker.  The matches of a text are found
without regard to enclosures, in two steps.

* `candidates` goes from left to right.  At each place after a word character the first rule
  whose marker stands there gives a candidate, made of the maximal word before the place and
  the marker; the search goes on behind the marker.  A rule behind another one of the same
  marker is never the first, so it is left out beforehand (`markerAt?_firstOfEach`).
* `keepDisjoint` keeps the first candidate and then each one that starts no earlier than the
  last kept one ends.

Candidates come in ascending order of their starts already, so nothing needs to be sorted.
Word characters are ASCII, hence a word has as many bytes as characters.
-/

namespace Tint

/-- A word and the marker behind it, in bytes from the start of the text. -/
structure EntryMatch where
  /-- where the word starts -/
  start : Nat
  /-- where the word ends and the marker starts -/
  wordEnd : Nat
  rule : EntryRule
  deriving DecidableEq, Repr, Inhabited

namespace EntryMatch

/-- Where the marker ends. -/
def stop (m : EntryMatch) : Nat := m.wordEnd + m.rule.token.size

/-- The characters of the word before a marker: ASCII letters and digits, `_` and `-`. -/
def isWordChar (c : Char) : Bool := c.isAlphanum || c == '_' || c == '-'

/-- The length of the word that ends behind `c`, when the one that ends before it has length
`word`. -/
def extendWord (word : Nat) (c : Char) : Nat := if isWordChar c then word + 1 else 0

/-- The first rule whose marker stands at the front of `rest`.  An empty marker stands
nowhere. -/
def markerAt? (rules : List EntryRule) (rest : Text) : Option EntryRule :=
  rules.find? fun rule => !rule.token.isEmpty && rest.startsWith rule.token

/-- The candidates at `pos` and behind it.  A word of length `word` ends at `pos`, and the
next `skip` characters belong to a marker that has been found. -/
def candidatesFrom (rules : List EntryRule) (pos word : Nat) : (skip : Nat) → Text → List EntryMatch
  | _, [] => []
  | skip + 1, c :: rest => candidatesFrom rules (pos + c.utf8Size) (extendWord word c) skip rest
  | 0, c :: rest =>
    match if word = 0 then none else markerAt? rules (c :: rest) with
    | some rule =>
      ⟨pos - word, pos, rule⟩ ::
        candidatesFrom rules (pos + c.utf8Size) (extendWord word c) (rule.token.length - 1) rest
    | none => candidatesFrom rules (pos + c.utf8Size) (extendWord word c) 0 rest

/-- The first rule of each marker. -/
def firstOfEach (rules : List EntryRule) : List EntryRule :=
  rules.eraseDupsBy fun later earlier => later.token == earlier.token

/-- The candidates of a text. -/
def candidates (rules : List EntryRule) (text : Text) : List EntryMatch :=
  candidatesFrom (firstOfEach rules) 0 0 0 text

/-- Keeps each match that starts at `free` or behind it, where `free` moves to the end of
each match kept. -/
def keepDisjoint (free : Nat) : List EntryMatch → List EntryMatch
  | [] => []
  | m :: r => if free ≤ m.start then m :: keepDisjoint m.stop r else keepDisjoint free r

/-- The matches of a text: in ascending order, no two of them overlapping. -/
def scan (rules : List EntryRule) (text : Text) : List EntryMatch :=
  keepDisjoint 0 (candidates rules text)

theorem markerAt?_cons (r : EntryRule) (rules : List EntryRule) (rest : Text) :
    markerAt? (r :: rules) rest =
      if !r.token.isEmpty && rest.startsWith r.token then some r else markerAt? rules rest := by
  unfold markerAt?
  rw [List.find?_cons]
  cases !r.token.isEmpty && rest.startsWith r.token <;> rfl

/-- Without a marker that does not stand at the front of `rest`, the same rule is found. -/
theorem markerAt?_filter_ne {r : EntryRule} {rest : Text}
    (h : (!r.token.isEmpty && rest.startsWith r.token) = false) (rules : List EntryRule) :
    markerAt? (rules.filter fun later => decide ((later.token == r.token) = false)) rest =
      markerAt? rules rest := by
  induction rules with
  | nil => rfl
  | cons a rules ih =>
    rw [List.filter_cons]
    split
    · rw [markerAt?_cons, markerAt?_cons, ih]
    · rename_i ha
      have htoken : a.token = r.token := by simpa using ha
      rw [ih, markerAt?_cons, htoken, h]
      rfl

theorem markerAt?_firstOfEach (rules : List EntryRule) (rest : Text) :
    markerAt? (firstOfEach rules) rest = markerAt? rules rest := by
  induction hn : rules.length using Nat.strongRecOn generalizing rules with
  | ind n ih =>
    subst hn
    cases rules with
    | nil => rfl
    | cons r rules =>
      unfold firstOfEach
      rw [List.eraseDupsBy_cons, markerAt?_cons, markerAt?_cons]
      split
      · rfl
      · rename_i h
        rw [← markerAt?_filter_ne (Bool.eq_false_iff.2 h) rules]
        refine ih _ ?_ _ rfl
        exact Nat.lt_succ_of_le (List.length_filter_le _ _)

/-- Rules with the same markers at every place of a text give the same candidates. -/
theorem candidatesFrom_congr {rules rules' : List EntryRule} {text : Text}
    (h : ∀ rest, rest <:+ text → markerAt? rules rest = markerAt? rules' rest)
    (pos word skip : Nat) :
    candidatesFrom rules pos word skip text = candidatesFrom rules' pos word skip text := by
  induction text generalizing pos word skip with
  | nil => cases skip <;> rfl
  | cons c rest ih =>
    have hrest := ih fun t ht => h t (ht.trans (List.suffix_cons c rest))
    cases skip with
    | succ skip => exact hrest _ _ _
    | zero =>
      simp only [candidatesFrom, h (c :: rest) (List.suffix_refl _)]
      split <;> simp only [hrest]

/-- Later rules of a marker do not matter. -/
theorem candidates_eq (rules : List EntryRule) (text : Text) :
    candidates rules text = candidatesFrom rules 0 0 0 text :=
  candidatesFrom_congr (fun rest _ => markerAt?_firstOfEach rules rest) 0 0 0

theorem mem_of_mem_keepDisjoint {m : EntryMatch} {l : List EntryMatch} {free : Nat}
    (h : m ∈ keepDisjoint free l) : m ∈ l := by
  induction l generalizing free with
  | nil => exact h
  | cons a r ih =>
    unfold keepDisjoint at h
    split at h
    · rcases List.mem_cons.1 h with rfl | h
      · exact List.mem_cons_self
      · exact List.mem_cons_of_mem _ (ih h)
    · exact List.mem_cons_of_mem _ (ih h)

end EntryMatch

end Tint
