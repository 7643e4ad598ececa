import Mathlib.Data.List.Basic
import Mathlib.Data.List.TakeWhile
import Tint.Proofs.RuleFile.Contents
import Tint.Proofs.RuleFile.Reads
set_option autoImplicit false

/-!
# Well-formed rules

What every rule set read from a rule file has in common (`wellFormed_of_read`): no delimiter and
no marker is empty, and every color is a color code without blanks.  The first makes painting
move on, the second keeps it from writing a tag that ends too early: a color code holds neither a
quotation mark nor an angle bracket nor an ampersand (`Color.IsPlain`).

Both come from the lines of the file, one at a time; expansion never empties a word, and a line
with a wrong color is dropped.
-/

namespace Tint

/-! ## The characters of a color code -/

theorem Text.mem_pieces (separator : Char) {c : Char} {t : Text} (h : c ∈ t) :
    c = separator ∨ ∃ part ∈ pieces separator t, c ∈ part := by
  induction t with
  | nil => cases h
  | cons d r ih =>
    by_cases hd : d = separator
    · subst hd
      rw [pieces_cons_separator]
      rcases List.mem_cons.1 h with rfl | h
      · exact Or.inl rfl
      · rcases ih h with rfl | ⟨part, hpart, hc⟩
        · exact Or.inl rfl
        · exact Or.inr ⟨part, List.mem_cons_of_mem _ hpart, hc⟩
    · obtain ⟨part, parts, hr, hdr⟩ := pieces_cons_of_ne hd r
      rw [hdr]
      rw [hr] at ih
      rcases List.mem_cons.1 h with rfl | h
      · exact Or.inr ⟨_, List.mem_cons_self, List.mem_cons_self⟩
      · rcases ih h with rfl | ⟨q, hq, hc⟩
        · exact Or.inl rfl
        · rcases List.mem_cons.1 hq with rfl | hq
          · exact Or.inr ⟨_, List.mem_cons_self, List.mem_cons_of_mem _ hc⟩
          · exact Or.inr ⟨q, List.mem_cons_of_mem _ hq, hc⟩

namespace Color

/-- The characters with a meaning of their own inside a tag or outside. -/
def special : List Char := ['"', '<', '>', '&']

/-- The color can stand in a tag as it is. -/
def IsPlain (color : Text) : Prop := ∀ c ∈ color, c ∉ special ∧ isBlank c = false

/-- The color is a color code, written without blanks. -/
def IsStored (color : Text) : Prop := isCode color = true ∧ ∀ c ∈ color, isBlank c = false

/-- A class of characters that none of the special ones is in. -/
theorem notMem_special {p : Char → Bool} (hp : special.all (fun d => !p d) = true) {c : Char}
    (h : p c = true) : c ∉ special := by
  intro hc
  have := List.all_eq_true.1 hp c hc
  simp [h] at this

theorem isDecimalDigit_of_mem_isChannel {t : Text} (h : isChannel t = true) {c : Char}
    (hc : c ∈ t) : isDecimalDigit c = true := by
  have hrange {d lo hi : Char} (hlo : '0' ≤ lo) (hhi : hi ≤ '9') (h₁ : lo ≤ d) (h₂ : d ≤ hi) :
      isDecimalDigit d = true := by
    refine isDecimalDigit_of_isDigit ?_
    simp only [Char.isDigit, Bool.and_eq_true, decide_eq_true_eq]
    exact ⟨UInt32.le_trans hlo h₁, UInt32.le_trans h₂ hhi⟩
  have hone {d e : Char} (he : isDecimalDigit e = true) (h : d = e) :
      isDecimalDigit d = true := h ▸ he
  unfold isChannel at h
  split at h
  · rw [List.mem_singleton] at hc
    exact hc ▸ h
  · simp only [Bool.and_eq_true, decide_eq_true_eq] at h
    simp only [List.mem_cons, List.not_mem_nil, or_false] at hc
    rcases hc with rfl | rfl
    · exact hrange (by decide) (by decide) h.1.1 h.1.2
    · exact h.2
  · simp only [Bool.or_eq_true, Bool.and_eq_true, beq_iff_eq, decide_eq_true_eq] at h
    simp only [List.mem_cons, List.not_mem_nil, or_false] at hc
    rcases h with (⟨⟨h₁, h₂⟩, h₃⟩ | ⟨⟨⟨h₁, h₂⟩, h₃⟩, h₄⟩) | ⟨⟨⟨h₁, h₂⟩, h₃⟩, h₄⟩
    · rcases hc with rfl | rfl | rfl
      · exact hone (by decide) h₁
      · exact h₂
      · exact h₃
    · rcases hc with rfl | rfl | rfl
      · exact hone (by decide) h₁
      · exact hrange (by decide) (by decide) h₂ h₃
      · exact h₄
    · rcases hc with rfl | rfl | rfl
      · exact hone (by decide) h₁
      · exact hone (by decide) h₂
      · exact hrange (by decide) (by decide) h₃ h₄
  · cases h

theorem isDigit_or_eq_of_mem_isAlpha {t : Text} (h : isAlpha t = true) {c : Char} (hc : c ∈ t) :
    c.isDigit = true ∨ c = '.' := by
  rw [← List.takeWhile_append_dropWhile (p := Char.isDigit) (l := t)] at hc
  rcases List.mem_append.1 hc with hc | hc
  · exact Or.inl (List.mem_takeWhile_imp hc)
  · unfold isAlpha at h
    split at h
    · rename_i hdrop
      rw [hdrop] at hc
      cases hc
    · rename_i fraction hdrop
      rw [hdrop] at hc
      simp only [isNumeral, Bool.and_eq_true] at h
      rcases List.mem_cons.1 hc with rfl | hc
      · exact Or.inr rfl
      · exact Or.inl (List.all_eq_true.1 h.2 c hc)
    · cases h

theorem notMem_special_of_mem_areChannels {alpha : Bool} {arguments : Text}
    (h : areChannels alpha arguments = true) {c : Char} (hc : c ∈ arguments) : c ∉ special := by
  have hchannel {t : Text} (ht : isChannel t = true) (hct : c ∈ t) : c ∉ special :=
    notMem_special (by decide) (isDecimalDigit_of_mem_isChannel ht hct)
  have halpha {t : Text} (ht : isAlpha t = true) (hct : c ∈ t) : c ∉ special := by
    rcases isDigit_or_eq_of_mem_isAlpha ht hct with hd | rfl
    · exact notMem_special (by decide) hd
    · decide
  rcases Text.mem_pieces ',' hc with rfl | ⟨part, hpart, hc⟩
  · decide
  · unfold areChannels at h
    split at h
    · rename_i r g b hp
      simp only [Bool.and_eq_true] at h
      rw [hp] at hpart
      simp only [List.mem_cons, List.not_mem_nil, or_false] at hpart
      rcases hpart with rfl | rfl | rfl
      · exact hchannel h.1.1 hc
      · exact hchannel h.1.2 hc
      · exact hchannel h.2 hc
    · rename_i r g b a hp
      simp only [Bool.and_eq_true] at h
      rw [hp] at hpart
      simp only [List.mem_cons, List.not_mem_nil, or_false] at hpart
      rcases hpart with rfl | rfl | rfl | rfl
      · exact hchannel h.1.1.1.2 hc
      · exact hchannel h.1.1.2 hc
      · exact hchannel h.1.2 hc
      · exact halpha h.2 hc
    · cases h

/-- A function notation is its name in either case, a parenthesis, the arguments and a
parenthesis. -/
theorem arguments?_eq_some {name s args : Text} (h : arguments? name s = some args) :
    ∃ head, head.map Char.toLower = name ++ ['('] ∧ s = head ++ args ++ [')'] := by
  simp only [arguments?] at h
  split at h
  · rename_i hs
    simp only [Bool.and_eq_true, beq_iff_eq] at hs
    obtain ⟨hhead, hlast⟩ := hs
    refine ⟨s.take (name ++ ['(']).length, hhead, ?_⟩
    have hdrop : s.drop (name ++ ['(']).length ≠ [] := by
      intro hnil
      -- otherwise the closing parenthesis would be the opening one
      have hs : s.take (name ++ ['(']).length = s := by
        have := List.take_append_drop (name ++ ['(']).length s
        rwa [hnil, List.append_nil] at this
      rw [hs] at hhead
      have hlow : (s.map Char.toLower).getLast? = some '(' := by rw [hhead]; simp
      rw [List.getLast?_map, hlast] at hlow
      exact absurd hlow (by decide)
    have hargs := Option.some.inj h
    have hend : s.drop (name ++ ['(']).length = args ++ [')'] := by
      have hlast' : (s.drop (name ++ ['(']).length).getLast? = some ')' := by
        rw [List.getLast?_drop, if_neg, hlast]
        intro hle
        exact hdrop (List.drop_eq_nil_of_le hle)
      rw [← hargs, List.dropLast_append_getLast? _ hlast']
    rw [List.append_assoc, ← hend, List.take_append_drop]
  · cases h

theorem notMem_special_of_isCompactCode {s : Text} (h : isCompactCode s = true) {c : Char}
    (hc : c ∈ s) : c ∉ special := by
  have hfun {name : Text} {alpha : Bool}
      (hname : special.all (fun d => !(name ++ ['(']).contains d.toLower) = true)
      (h : (arguments? name s).any (areChannels alpha) = true) : c ∉ special := by
    obtain ⟨args, hargs, hchannels⟩ := (Option.any_eq_true _ _).1 h
    obtain ⟨head, hhead, rfl⟩ := arguments?_eq_some hargs
    rcases List.mem_append.1 hc with hc | hc
    · rcases List.mem_append.1 hc with hc | hc
      · intro hspecial
        have hnot := List.all_eq_true.1 hname c hspecial
        rw [← hhead, Bool.not_eq_true', List.contains_eq_mem, decide_eq_false_iff_not] at hnot
        exact hnot (List.mem_map_of_mem hc)
      · exact notMem_special_of_mem_areChannels hchannels hc
    · rw [List.mem_singleton] at hc
      subst hc
      decide
  unfold isCompactCode at h
  split at h
  · rename_i digits
    simp only [Bool.and_eq_true] at h
    rcases List.mem_cons.1 hc with rfl | hc
    · decide
    · exact notMem_special (by decide) (List.all_eq_true.1 h.2 c hc)
  · rcases Bool.or_eq_true_iff.1 h with h | h
    · exact hfun rfl h
    · exact hfun rfl h

theorem IsStored.isCompactCode {color : Text} (h : IsStored color) : isCompactCode color = true := by
  obtain ⟨hcode, hblank⟩ := h
  have hcompact : color.stripBlanks = color := by
    refine List.filter_eq_self.2 fun c hc => ?_
    simp [hblank c hc]
  rwa [isCode, hcompact] at hcode

theorem IsStored.isPlain {color : Text} (h : IsStored color) : IsPlain color :=
  fun c hc => ⟨notMem_special_of_isCompactCode h.isCompactCode hc, h.2 c hc⟩

/-- A color that passes the test once its blanks are gone is stored without them. -/
theorem isStored_stripBlanks {raw : Text} (h : isCode raw.stripBlanks = true) :
    IsStored raw.stripBlanks :=
  ⟨h, fun _ hc => Text.not_isBlank_of_mem_stripBlanks hc⟩

end Color

/-! ## Lines -/

/-- What an accepted line says fits the demands of the painter. -/
def Directive.WellFormed : Directive → Prop
  | .enclosure _ rule => rule.left ≠ [] ∧ rule.right ≠ []
  | .entry rule => rule.token ≠ [] ∧ Color.IsStored rule.color
  | .delimiterColor _ color => Color.IsStored color
  | .docToken _ color => Color.IsStored color
  | .keyword _ color => Color.IsStored color

namespace RuleFile

theorem wellFormed_assign {color : Text} (h : Color.IsStored color) (key : Text) :
    (assign key color).WellFormed := by
  unfold assign
  split <;> exact h

/-- Every accepted line is well-formed. -/
theorem wellFormed_of_readLine {line : Text} {d : Directive} (h : readLine line = .accepted d) :
    d.WellFormed := by
  cases reads_of_readLine h with
  | enclosure _ _ _ left_ne_nil right_ne_nil => exact ⟨left_ne_nil, right_ne_nil⟩
  | entry _ _ code token_ne_nil => exact ⟨token_ne_nil, Color.isStored_stripBlanks code⟩
  | assignment _ _ code => exact wellFormed_assign (Color.isStored_stripBlanks code) _

end RuleFile

/-! ## Rule sets -/

/-- The rules let painting move on, and their colors can stand in a tag. -/
structure RuleSet.WellFormed (rules : RuleSet) : Prop where
  left_ne_nil : ∀ {tier e}, e ∈ (rules.enclosures tier).rules → e.left ≠ []
  right_ne_nil : ∀ {tier e}, e ∈ (rules.enclosures tier).rules → e.right ≠ []
  token_ne_nil : ∀ {rule}, rule ∈ rules.entries → rule.token ≠ []
  entry_color : ∀ {rule}, rule ∈ rules.entries → Color.IsStored rule.color
  delimiterColor : ∀ {name color}, rules.delimiterColor? name = some color → Color.IsStored color
  docToken : ∀ {word color}, rules.docToken? word = some color → Color.IsStored color
  keyword : ∀ {word color}, rules.keyword? word = some color → Color.IsStored color

/-- A color in a map stems from an assignment. -/
theorem ColorMap.mem_of_getElem? {assignments : List (Text × Text)} {key color : Text}
    (h : (ofAssignments assignments)[key]? = some color) : (key, color) ∈ assignments := by
  rw [getElem?_ofAssignments] at h
  obtain ⟨⟨k, c⟩, hfind, rfl⟩ := Option.map_eq_some_iff.1 h
  have hk : k = key := by simpa using List.find?_some hfind
  subst hk
  exact List.mem_reverse.1 (List.mem_of_find?_eq_some hfind)

namespace RuleSet

theorem wellFormed_ofDirectives {ds : List Directive} (h : ∀ d ∈ ds, d.WellFormed) :
    (ofDirectives ds).WellFormed := by
  have henclosure {tier : Tier} {e : Enclosure}
      (he : e ∈ ((ofDirectives ds).enclosures tier).rules) : e.left ≠ [] ∧ e.right ≠ [] := by
    rw [rules_enclosures_ofDirectives] at he
    obtain ⟨d, hd, hde⟩ := List.mem_filterMap.1 he
    cases Directive.eq_of_enclosure? hde
    exact h _ hd
  have hentry {rule : EntryRule} (hr : rule ∈ (ofDirectives ds).entries) :
      rule.token ≠ [] ∧ Color.IsStored rule.color := by
    obtain ⟨d, hd, hdr⟩ := List.mem_filterMap.1 (mem_longestFirst.1 hr)
    cases Directive.eq_of_entry? hdr
    exact h _ hd
  have hcolor {f : Directive → Option (Text × Text)} {key color : Text}
      (hf : ∀ d k c, f d = some (k, c) → d.WellFormed → Color.IsStored c)
      (hk : (ColorMap.ofAssignments (ds.filterMap f))[key]? = some color) :
      Color.IsStored color := by
    obtain ⟨d, hd, hdk⟩ := List.mem_filterMap.1 (ColorMap.mem_of_getElem? hk)
    exact hf d key color hdk (h d hd)
  refine ⟨fun he => (henclosure he).1, fun he => (henclosure he).2, fun hr => (hentry hr).1,
    fun hr => (hentry hr).2, fun hk => hcolor ?_ hk, fun hk => hcolor ?_ hk,
    fun hk => hcolor ?_ hk⟩
  · intro d k c hd hw
    cases Directive.eq_of_delimiterColor? hd
    exact hw
  · intro d k c hd hw
    cases Directive.eq_of_docToken? hd
    exact hw
  · intro d k c hd hw
    cases Directive.eq_of_keyword? hd
    exact hw

end RuleSet

/-- The rules of every rule file are well-formed. -/
theorem RuleFile.wellFormed_of_read {file : Text} {contents : Contents}
    (h : read file = .ok contents) : contents.rules.WellFormed := by
  obtain ⟨first, body, -, -, rfl⟩ := read_eq_ok_iff.1 h
  refine RuleSet.wellFormed_ofDirectives fun d hd => ?_
  obtain ⟨line, -, hline⟩ := readLine_of_mem_acceptedIn hd
  exact wellFormed_of_readLine hline

end Tint
