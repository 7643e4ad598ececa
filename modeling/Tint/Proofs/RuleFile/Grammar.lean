import Tint.Proofs.Rules.Accepted
set_option autoImplicit false

/-!
# The grammar of lines

A line that is neither empty nor a comment is an enclosure line, an entry line or an assignment, by
how it starts.  `RuleFile.EnclosureGrammar`, `RuleFile.EntryGrammar` and `RuleFile.AssignmentGrammar`
say of each kind which lines are accepted, what they declare and what is wrong with the others, by
the words that the line is made of.  Reading agrees with this grammar (`RuleFile.lineGrammar_readLine`):

* in front of the last space of an enclosure line and behind its second one stands the opening
  delimiter, with all the spaces in it, and the blanks at the end of a line are gone before it is
  read, so there is always a closing one;
* what an accepted line declares comes last in the rules of a file that ends with it, and nothing
  else in them changes (`RuleSet.add`).
-/

namespace Tint

/-- The trimmed text does not end with a blank. -/
theorem Text.not_isBlank_of_trim_concat {t r : Text} {c : Char} (h : t.trim = r ++ [c]) :
    isBlank c = false := by
  have hreverse : (t.dropWhile isBlank).reverse.dropWhile isBlank = c :: r.reverse := by
    have hback := congrArg List.reverse h
    rwa [trim, List.reverse_reverse, List.reverse_append] at hback
  have hhead := List.head?_dropWhile_not isBlank (t.dropWhile isBlank).reverse
  rw [hreverse] at hhead
  simpa using hhead

/-! ## What one more line adds -/

namespace RuleSet

/-- The rules with one more directive, behind those that are there. -/
def add (rules : RuleSet) : Directive → RuleSet
  | .enclosure .strong rule => { rules with strong := .ofList (rules.strong.rules ++ [rule]) }
  | .enclosure .doc rule => { rules with doc := .ofList (rules.doc.rules ++ [rule]) }
  | .enclosure .weak rule => { rules with weak := .ofList (rules.weak.rules ++ [rule]) }
  | .entry rule => { rules with
      entries := (rules.entries ++ [rule]).mergeSort fun a b => b.token.length ≤ a.token.length }
  | .delimiterColor name color => { rules with
      delimiterColors := rules.delimiterColors.insert name color }
  | .docToken word color => { rules with docTokens := rules.docTokens.insert word color }
  | .keyword word color => { rules with keywords := rules.keywords.insert word color }

theorem ofDirectives_concat (ds : List Directive) (d : Directive) :
    ofDirectives (ds ++ [d]) = (ofDirectives ds).add d := by
  have hconcat {α : Type} (f : Directive → Option α) :
      (ds ++ [d]).filterMap f = ds.filterMap f ++ (f d).toList := by
    rw [List.filterMap_append, List.filterMap_eq_flatMap_toList f [d], List.flatMap_singleton]
  have hentries (es : List EntryRule) (rule : EntryRule) :
      longestFirst (fun r => r.token.length) (es ++ [rule]) =
        (longestFirst (fun r => r.token.length) es ++ [rule]).mergeSort
          fun a b => b.token.length ≤ a.token.length := by
    rw [← longestFirst_append, ← longestFirst_eq_mergeSort fun r : EntryRule => r.token.length]
    rfl
  have hinsert (as : List (Text × Text)) (a : Text × Text) :
      ColorMap.ofAssignments (as ++ [a]) = (ColorMap.ofAssignments as).insert a.1 a.2 := by
    rw [ColorMap.ofAssignments, List.foldl_append]
    rfl
  simp only [ofDirectives, hconcat]
  rcases d with ⟨_ | _ | _, rule⟩ | rule | ⟨name, color⟩ | ⟨word, color⟩ | ⟨word, color⟩ <;>
    simp [add, hentries, hinsert, Directive.enclosure?, Directive.entry?,
      Directive.delimiterColor?, Directive.docToken?, Directive.keyword?]

end RuleSet

namespace RuleFile

/-- The contents with what becomes of one more line, by the number of the line and the line as it is
shown. -/
def Contents.add (contents : Contents) (number : Nat) (shown : Text) : LineReading → Contents
  | .skipped => contents
  | .rejected problem => { contents with
      diagnostics := contents.diagnostics ++ [⟨number, problem, shown⟩] }
  | .accepted d => { contents with rules := contents.rules.add d }

theorem contentsOf_concat (body : List Text) (line : Text) :
    contentsOf (body ++ [line]) =
      (contentsOf body).add (body.length + 2) line.trim (readLine line) := by
  have hreports : diagnosticsFrom 2 (readings (body ++ [line])) = diagnosticsFrom 2 (readings body) ++
      (diagnose? (body.length + 2) (line, readLine line)).toList := by
    rw [readings_append, diagnosticsFrom_append, readings, readings, List.length_map,
      Nat.add_comm 2]
    rw [List.map_cons, List.map_nil, diagnosticsFrom_cons]
    exact congrArg _ (List.append_nil _)
  unfold contentsOf
  rw [hreports, acceptedIn_append, acceptedIn, acceptedIn, List.filterMap_eq_flatMap_toList _ [line],
    List.flatMap_singleton]
  cases hread : readLine line with
  | skipped => simp [Contents.add, diagnose?, LineReading.directive?, LineReading.problem?]
  | rejected problem => simp [Contents.add, diagnose?, LineReading.directive?, LineReading.problem?]
  | accepted d =>
    simp [Contents.add, diagnose?, LineReading.directive?, LineReading.problem?,
      RuleSet.ofDirectives_concat]

/-- What a line says comes last in a file that ends with it. -/
theorem read_concat {file line : Text} {contents : Contents} (hline : '\n' ∉ line)
    (h : read file = .ok contents) : read (file ++ '\n' :: line) =
      .ok (contents.add (file.lines.length + 1) line.trim (readLine line)) := by
  obtain ⟨first, body, hlines, hfirst, rfl⟩ := read_eq_ok_iff.1 h
  have hlast : line.lines = [line] := Text.pieces_of_notMem hline
  have hmore : (file ++ '\n' :: line).lines = first :: (body ++ [line]) := by
    rw [Text.lines_append_newline, hlines, hlast, List.cons_append]
  rw [read_of_lines hmore hfirst, contentsOf_concat, hlines, List.length_cons]

/-! ## How a line starts -/

theorem bodyAfter?_eq_some_iff {word line body : Text} :
    bodyAfter? word line = some body ↔ line = word ++ ' ' :: body := by
  unfold bodyAfter?
  dsimp only
  split
  · rename_i hstarts
    obtain ⟨rest, rfl⟩ := Text.startsWith_iff.1 hstarts
    rw [List.drop_left, Option.some_inj, List.append_assoc, List.append_cancel_left_eq]
    simp
  · rename_i hstarts
    refine iff_of_false (fun h => nomatch h) ?_
    rintro rfl
    exact hstarts (Text.startsWith_iff.2 ⟨body, by simp⟩)

theorem bodyAfter?_eq_none_iff {word line : Text} :
    bodyAfter? word line = none ↔ ¬ word ++ [' '] <+: line := by
  rw [Option.eq_none_iff_forall_ne_some, ← not_exists, not_iff_not]
  simp only [bodyAfter?_eq_some_iff]
  constructor
  · rintro ⟨body, rfl⟩
    exact ⟨body, by simp⟩
  · rintro ⟨body, rfl⟩
    exact ⟨body, by simp⟩

/-- A directive and a space decide how the rest of a line is read. -/
theorem readTrimmed_enclosure (tier : Tier) (body : Text) :
    readTrimmed (tier.directive ++ ' ' :: body) = readEnclosure tier body := by
  have hfound : bodyAfter? tier.directive (tier.directive ++ ' ' :: body) = some body :=
    bodyAfter?_eq_some_iff.2 rfl
  unfold readTrimmed
  cases tier <;> rw [hfound] <;> rfl

theorem readTrimmed_entry (body : Text) :
    readTrimmed ("*entry".toList ++ ' ' :: body) = readEntry body := by
  have hfound : bodyAfter? "*entry".toList ("*entry".toList ++ ' ' :: body) = some body :=
    bodyAfter?_eq_some_iff.2 rfl
  unfold readTrimmed
  rw [hfound]
  rfl

/-- Without a directive at its start a line is an assignment. -/
theorem readTrimmed_plain {line : Text} (hne : line ≠ []) (hcomment : ¬ "//".toList <+: line)
    (hentry : ¬ "*entry".toList ++ [' '] <+: line)
    (henclosure : ∀ tier : Tier, ¬ tier.directive ++ [' '] <+: line) :
    readTrimmed line = readAssignment line := by
  have hbusy : ¬ (line.isEmpty || line.startsWith "//".toList) = true := by
    rw [Bool.or_eq_true, List.isEmpty_iff, Text.startsWith_iff, not_or]
    exact ⟨hne, hcomment⟩
  have hnone (tier : Tier) : bodyAfter? tier.directive line = none :=
    bodyAfter?_eq_none_iff.2 (henclosure tier)
  rw [readTrimmed, if_neg hbusy, bodyAfter?_eq_none_iff.2 hentry, hnone, hnone, hnone]

/-! ## Spaces -/

theorem exists_of_count_eq_one {t : Text} (h : t.count ' ' = 1) :
    ∃ front back, ' ' ∉ front ∧ ' ' ∉ back ∧ t = front ++ ' ' :: back := by
  have hspace : ' ' ∈ t := List.count_pos_iff.1 (by omega)
  obtain ⟨front, back, rfl, hfront⟩ := List.eq_append_cons_of_mem hspace
  rw [List.count_append, List.count_cons_self] at h
  exact ⟨front, back, hfront, List.count_eq_zero.1 (by omega), rfl⟩

/-- With two spaces or more a text is cut at the first and at the last one. -/
theorem exists_of_two_le_count {t : Text} (h : 2 ≤ t.count ' ') :
    ∃ front middle back, ' ' ∉ front ∧ ' ' ∉ back ∧
      t = front ++ ' ' :: (middle ++ ' ' :: back) := by
  have hspace : ' ' ∈ t := List.count_pos_iff.1 (by omega)
  obtain ⟨front, rest, rfl, hfront⟩ := List.eq_append_cons_of_mem hspace
  rw [List.count_append, List.count_cons_self, List.count_eq_zero.2 hfront] at h
  have hmore : ' ' ∈ rest.reverse := List.mem_reverse.2 (List.count_pos_iff.1 (by omega))
  obtain ⟨back, middle, hreverse, hback⟩ := List.eq_append_cons_of_mem hmore
  have hrest : rest = middle.reverse ++ ' ' :: back.reverse := by
    rw [← List.reverse_reverse rest, hreverse]
    simp
  exact ⟨front, middle.reverse, back.reverse, hfront, fun hmem => hback (List.mem_reverse.1 hmem),
    by rw [hrest]⟩

theorem isSpace_of_notMem {t : Text} (h : ' ' ∉ t) : ∀ c ∈ t, isSpace c = false := by
  intro c hc
  refine beq_eq_false_iff_ne.2 ?_
  rintro rfl
  exact h hc

theorem cutAt?_isSpace_of_notMem {t : Text} (h : ' ' ∉ t) : t.cutAt? isSpace = none :=
  Text.cutAt?_eq_none_iff.2 (isSpace_of_notMem h)

theorem cutAt?_isSpace {front : Text} (h : ' ' ∉ front) (rest : Text) :
    (front ++ ' ' :: rest).cutAt? isSpace = some (front, rest) :=
  Text.cutAt?_eq_some_iff.2 ⟨' ', rfl, rfl, isSpace_of_notMem h⟩

theorem cutAtLast?_isSpace {back : Text} (h : ' ' ∉ back) (rest : Text) :
    (rest ++ ' ' :: back).cutAtLast? isSpace = some (rest, back) :=
  Text.cutAtLast?_eq_some_iff.2 ⟨' ', rfl, rfl, isSpace_of_notMem h⟩

/-! ## Enclosure lines -/

/-- The line declares an enclosure of a tier, with these words. -/
structure IsEnclosureLine (tier : Tier) (line name left right : Text) : Prop where
  line_eq : line = tier.directive ++ ' ' :: (name ++ ' ' :: (left ++ ' ' :: right))
  name_unspaced : ' ' ∉ name
  right_unspaced : ' ' ∉ right

/-- What becomes of a line that starts with a tier's directive and a space. -/
structure EnclosureGrammar (tier : Tier) (line : Text) (reading : LineReading) : Prop where
  accepted_iff : ∀ d, reading = .accepted d ↔ ∃ name left right,
    IsEnclosureLine tier line name left right ∧ left ≠ [] ∧
      d = .enclosure tier ⟨name, left.expand, right.expand⟩
  /-- a line has its words in one way only -/
  unique : ∀ {name left right name' left' right' : Text},
    IsEnclosureLine tier line name left right → IsEnclosureLine tier line name' left' right' →
      name = name' ∧ left = left' ∧ right = right'
  missingLeft : line.count ' ' = 1 → ∃ name, line = tier.directive ++ ' ' :: name ∧
    reading = .rejected (.missingLeft tier name)
  missingRight : line.count ' ' = 2 → ∃ name left, ' ' ∉ name ∧
    line = tier.directive ++ ' ' :: (name ++ ' ' :: left) ∧
      reading = .rejected (.missingRight tier name)
  emptyDelimiter : 3 ≤ line.count ' ' → (∀ d, reading ≠ .accepted d) → ∃ name right,
    IsEnclosureLine tier line name [] right ∧ reading = .rejected (.emptyDelimiter tier name)
  not_incompleteEntry : reading ≠ .rejected .incompleteEntry

namespace IsEnclosureLine

variable {tier : Tier} {line name left right name' left' right' : Text}

theorem unique (h : IsEnclosureLine tier line name left right)
    (h' : IsEnclosureLine tier line name' left' right') :
    name = name' ∧ left = left' ∧ right = right' := by
  have hline := h.line_eq.symm.trans h'.line_eq
  rw [List.append_cancel_left_eq, List.cons.injEq] at hline
  have hname := cutAt?_isSpace h.name_unspaced (left ++ ' ' :: right)
  rw [hline.2, cutAt?_isSpace h'.name_unspaced] at hname
  obtain ⟨rfl, hdelimiters⟩ := Prod.mk.inj (Option.some.inj hname)
  have hcut := cutAtLast?_isSpace h.right_unspaced left
  rw [← hdelimiters, cutAtLast?_isSpace h'.right_unspaced] at hcut
  obtain ⟨rfl, rfl⟩ := Prod.mk.inj (Option.some.inj hcut)
  exact ⟨rfl, rfl, rfl⟩

end IsEnclosureLine

theorem readEnclosure_of_notMem (tier : Tier) {name : Text} (h : ' ' ∉ name) :
    readEnclosure tier name = .rejected (.missingLeft tier name) := by
  rw [readEnclosure, cutAt?_isSpace_of_notMem h]

theorem readEnclosure_one (tier : Tier) {name left : Text} (hname : ' ' ∉ name)
    (hleft : ' ' ∉ left) :
    readEnclosure tier (name ++ ' ' :: left) = .rejected (.missingRight tier name) := by
  rw [readEnclosure, cutAt?_isSpace hname]
  dsimp only
  rw [Text.cutAtLast?_eq_none_iff.2 (isSpace_of_notMem hleft)]

theorem readEnclosure_more (tier : Tier) {name left right : Text} (hname : ' ' ∉ name)
    (hright : ' ' ∉ right) (hne : right ≠ []) :
    readEnclosure tier (name ++ ' ' :: (left ++ ' ' :: right)) =
      if left = [] then .rejected (.emptyDelimiter tier name)
      else .accepted (.enclosure tier ⟨name, left.expand, right.expand⟩) := by
  rw [readEnclosure, cutAt?_isSpace hname]
  dsimp only
  rw [cutAtLast?_isSpace hright]
  simp only [Bool.or_eq_true, List.isEmpty_iff, Text.expand_eq_nil_iff, hne, or_false]

theorem exists_rejected_of_count_lt_two (tier : Tier) {body : Text} (h : body.count ' ' < 2) :
    ∃ problem, readEnclosure tier body = .rejected problem ∧ problem ≠ .incompleteEntry := by
  by_cases hspace : ' ' ∈ body
  · have hpos := List.count_pos_iff.2 hspace
    obtain ⟨name, left, hname, hleft, rfl⟩ :=
      exists_of_count_eq_one (by omega : body.count ' ' = 1)
    exact ⟨_, readEnclosure_one tier hname hleft, fun h => nomatch h⟩
  · exact ⟨_, readEnclosure_of_notMem tier hspace, fun h => nomatch h⟩

theorem exists_isEnclosureLine (tier : Tier) {body : Text} (h : 2 ≤ body.count ' ') :
    ∃ name left right, IsEnclosureLine tier (tier.directive ++ ' ' :: body) name left right := by
  obtain ⟨name, left, right, hname, hright, rfl⟩ := exists_of_two_le_count h
  exact ⟨name, left, right, rfl, hname, hright⟩

theorem readEnclosure_of_isEnclosureLine {tier : Tier} {body name left right : Text}
    (hend : ∀ front c, body = front ++ [c] → isBlank c = false)
    (h : IsEnclosureLine tier (tier.directive ++ ' ' :: body) name left right) :
    readEnclosure tier body = if left = [] then .rejected (.emptyDelimiter tier name)
      else .accepted (.enclosure tier ⟨name, left.expand, right.expand⟩) := by
  have hbody := h.line_eq
  rw [List.append_cancel_left_eq, List.cons.injEq] at hbody
  have hne : right ≠ [] := by
    rintro rfl
    have hspace := hend (name ++ ' ' :: left) ' ' (by rw [hbody.2]; simp)
    exact absurd hspace (by decide)
  rw [hbody.2, readEnclosure_more tier h.name_unspaced h.right_unspaced hne]

theorem count_directive_append (tier : Tier) (body : Text) :
    (tier.directive ++ ' ' :: body).count ' ' = body.count ' ' + 1 := by
  have hdirective : tier.directive.count ' ' = 0 := by cases tier <;> decide
  rw [List.count_append, List.count_cons_self, hdirective, Nat.zero_add]

theorem enclosureGrammar (tier : Tier) {body : Text}
    (hend : ∀ front c, body = front ++ [c] → isBlank c = false) :
    EnclosureGrammar tier (tier.directive ++ ' ' :: body) (readEnclosure tier body) := by
  have hcount := count_directive_append tier body
  refine ⟨fun d => ⟨fun h => ?_, ?_⟩, IsEnclosureLine.unique, fun hone => ?_, fun htwo => ?_,
    fun hthree hrejected => ?_, fun h => ?_⟩
  · rcases Nat.lt_or_ge (body.count ' ') 2 with hfew | hmany
    · obtain ⟨problem, hproblem, -⟩ := exists_rejected_of_count_lt_two tier hfew
      cases hproblem.symm.trans h
    · obtain ⟨name, left, right, hwords⟩ := exists_isEnclosureLine tier hmany
      rw [readEnclosure_of_isEnclosureLine hend hwords] at h
      split at h
      · cases h
      · rename_i hleft
        cases h
        exact ⟨name, left, right, hwords, hleft, rfl⟩
  · rintro ⟨name, left, right, hwords, hleft, rfl⟩
    rw [readEnclosure_of_isEnclosureLine hend hwords, if_neg hleft]
  · exact ⟨body, rfl, readEnclosure_of_notMem tier (List.count_eq_zero.1 (by omega))⟩
  · obtain ⟨name, left, hname, hleft, rfl⟩ :=
      exists_of_count_eq_one (by omega : body.count ' ' = 1)
    exact ⟨name, left, hname, rfl, readEnclosure_one tier hname hleft⟩
  · obtain ⟨name, left, right, hwords⟩ := exists_isEnclosureLine tier (by omega : 2 ≤ body.count ' ')
    rw [readEnclosure_of_isEnclosureLine hend hwords] at hrejected ⊢
    split at hrejected
    · rename_i hleft
      subst hleft
      exact ⟨name, right, hwords, rfl⟩
    · exact absurd rfl (hrejected _)
  · rcases Nat.lt_or_ge (body.count ' ') 2 with hfew | hmany
    · obtain ⟨problem, hproblem, hne⟩ := exists_rejected_of_count_lt_two tier hfew
      exact hne (LineReading.rejected.inj (hproblem.symm.trans h))
    · obtain ⟨name, left, right, hwords⟩ := exists_isEnclosureLine tier hmany
      rw [readEnclosure_of_isEnclosureLine hend hwords] at h
      split at h <;> cases h

/-! ## Entry lines -/

/-- The line declares an entry rule, with this marker and this color. -/
structure IsEntryLine (line marker color : Text) : Prop where
  line_eq : line = "*entry".toList ++ ' ' :: (marker ++ ' ' :: color)
  marker_unspaced : ' ' ∉ marker

/-- What becomes of a line that starts with `*entry` and a space. -/
structure EntryGrammar (line : Text) (reading : LineReading) : Prop where
  accepted_iff : ∀ d, reading = .accepted d ↔ ∃ marker color, IsEntryLine line marker color ∧
    marker ≠ [] ∧ Color.isCode color.stripBlanks = true ∧
      d = .entry ⟨marker.expand, color.stripBlanks⟩
  incompleteEntry : line.count ' ' = 1 → reading = .rejected .incompleteEntry
  exists_words : 2 ≤ line.count ' ' → ∃ marker color, IsEntryLine line marker color
  /-- a wrong color is reported whether there is a marker or not -/
  notAColor : ∀ marker color, IsEntryLine line marker color →
    Color.isCode color.stripBlanks = false → reading = .rejected (.notAColor color.stripBlanks)
  emptyEntry : ∀ color, IsEntryLine line [] color → Color.isCode color.stripBlanks = true →
    reading = .rejected .emptyEntry

theorem readEntry_of_mem {marker : Text} (h : ' ' ∉ marker) (color : Text) :
    readEntry (marker ++ ' ' :: color) =
      if Color.isCode color.stripBlanks = false then .rejected (.notAColor color.stripBlanks)
      else if marker = [] then .rejected .emptyEntry
      else .accepted (.entry ⟨marker.expand, color.stripBlanks⟩) := by
  rw [readEntry, cutAt?_isSpace h]
  simp only [Bool.not_eq_true', List.isEmpty_iff, Text.expand_eq_nil_iff]

theorem entryGrammar (body : Text) :
    EntryGrammar ("*entry".toList ++ ' ' :: body) (readEntry body) := by
  have hcount : ("*entry".toList ++ ' ' :: body).count ' ' = body.count ' ' + 1 := by
    rw [List.count_append, List.count_cons_self]
    exact Nat.zero_add _
  have hwords {marker color : Text} (h : IsEntryLine ("*entry".toList ++ ' ' :: body) marker color) :
      body = marker ++ ' ' :: color := by
    have hline := h.line_eq
    rw [List.append_cancel_left_eq, List.cons.injEq] at hline
    exact hline.2
  refine ⟨fun d => ⟨fun h => ?_, ?_⟩, fun hone => ?_, fun htwo => ?_, ?_, ?_⟩
  · by_cases hspace : ' ' ∈ body
    · obtain ⟨marker, color, rfl, hmarker⟩ := List.eq_append_cons_of_mem hspace
      rw [readEntry_of_mem hmarker] at h
      split at h
      · cases h
      · rename_i hcode
        split at h
        · cases h
        · rename_i hne
          cases h
          exact ⟨_, _, ⟨rfl, hmarker⟩, hne, eq_true_of_ne_false hcode, rfl⟩
    · rw [readEntry, cutAt?_isSpace_of_notMem hspace] at h
      cases h
  · rintro ⟨marker, color, h, hne, hcode, rfl⟩
    rw [hwords h, readEntry_of_mem h.marker_unspaced, if_neg (by simp [hcode]), if_neg hne]
  · have hnone : ' ' ∉ body := List.count_eq_zero.1 (by omega)
    rw [readEntry, cutAt?_isSpace_of_notMem hnone]
  · have hspace : ' ' ∈ body := List.count_pos_iff.1 (by omega)
    obtain ⟨marker, color, rfl, hmarker⟩ := List.eq_append_cons_of_mem hspace
    exact ⟨marker, color, rfl, hmarker⟩
  · intro marker color h hcode
    rw [hwords h, readEntry_of_mem h.marker_unspaced, if_pos hcode]
  · intro color h hcode
    rw [hwords h, readEntry_of_mem h.marker_unspaced, if_neg (by simp [hcode]), if_pos rfl]

/-! ## Assignments -/

/-- The line assigns what stands behind its first blank to the key in front of it. -/
structure IsAssignmentLine (line key rest : Text) : Prop where
  line_eq : ∃ blank, isBlank blank = true ∧ line = key ++ blank :: rest
  key_unbroken : key.Unbroken

/-- What a key declares: its first two characters say of what it sets the color. -/
inductive Assigns (color : Text) : Text → Directive → Prop where
  | delimiterColor (name : Text) :
      Assigns color ("--".toList ++ name) (.delimiterColor name color)
  | docToken (word : Text) : Assigns color ("+-".toList ++ word) (.docToken word color)
  | keyword {word : Text} (not_delimiterColor : ¬ "--".toList <+: word)
      (not_docToken : ¬ "+-".toList <+: word) : Assigns color word (.keyword word color)

/-- What becomes of a line that starts with no directive. -/
structure AssignmentGrammar (line : Text) (reading : LineReading) : Prop where
  skipped : line.Unbroken → reading = .skipped
  exists_words : ¬ line.Unbroken → ∃ key rest, IsAssignmentLine line key rest
  /-- there is always a color, or what should be one -/
  color_ne_nil : ∀ key rest, IsAssignmentLine line key rest → rest.stripBlanks ≠ []
  accepted_iff : ∀ d, reading = .accepted d ↔ ∃ key rest, IsAssignmentLine line key rest ∧
    Color.isCode rest.stripBlanks = true ∧ Assigns rest.stripBlanks key d
  notAColor : ∀ key rest, IsAssignmentLine line key rest →
    Color.isCode rest.stripBlanks = false → reading = .rejected (.notAColor rest.stripBlanks)

theorem assigns_iff {key color : Text} {d : Directive} :
    Assigns color key d ↔ assign key color = d := by
  constructor
  · rintro (name | word | ⟨hdelimiter, hdoc⟩)
    · rfl
    · rfl
    · unfold assign
      split
      · exact absurd ⟨_, rfl⟩ hdelimiter
      · exact absurd ⟨_, rfl⟩ hdoc
      · rfl
  · rintro rfl
    unfold assign
    split
    · exact .delimiterColor _
    · exact .docToken _
    · rename_i hdelimiter hdoc
      refine .keyword ?_ ?_
      · rintro ⟨name, rfl⟩
        exact hdelimiter name rfl
      · rintro ⟨word, rfl⟩
        exact hdoc word rfl

theorem isAssignmentLine_iff {line key rest : Text} :
    IsAssignmentLine line key rest ↔ line.cutAt? isBlank = some (key, rest) := by
  rw [Text.cutAt?_eq_some_iff]
  constructor
  · rintro ⟨⟨blank, hblank, hline⟩, hkey⟩
    exact ⟨blank, hblank, hline, hkey⟩
  · rintro ⟨blank, hblank, hline, hkey⟩
    exact ⟨⟨blank, hblank, hline⟩, hkey⟩

theorem readAssignment_of_isAssignmentLine {line key rest : Text}
    (h : IsAssignmentLine line key rest) : readAssignment line =
      if Color.isCode rest.stripBlanks then .accepted (assign key rest.stripBlanks)
      else .rejected (.notAColor rest.stripBlanks) := by
  rw [readAssignment, isAssignmentLine_iff.1 h]

theorem readAssignment_of_unbroken {line : Text} (h : line.Unbroken) :
    readAssignment line = .skipped := by
  rw [readAssignment, Text.cutAt?_eq_none_iff.2 h]

theorem exists_isAssignmentLine {line : Text} (h : ¬ line.Unbroken) :
    ∃ key rest, IsAssignmentLine line key rest := by
  cases hcut : line.cutAt? isBlank with
  | none => exact absurd (Text.cutAt?_eq_none_iff.1 hcut) h
  | some cut => exact ⟨_, _, isAssignmentLine_iff.2 hcut⟩

theorem assignmentGrammar {line : Text}
    (hend : ∀ front c, line = front ++ [c] → isBlank c = false) :
    AssignmentGrammar line (readAssignment line) := by
  refine ⟨readAssignment_of_unbroken, exists_isAssignmentLine, ?_, fun d => ⟨fun h => ?_, ?_⟩, ?_⟩
  · rintro key rest ⟨⟨blank, hblank, rfl⟩, -⟩ hnil
    rcases List.eq_nil_or_concat rest with rfl | ⟨front, c, rfl⟩
    · rw [hend key blank rfl] at hblank
      cases hblank
    · -- the line ends with a character that is no blank
      have hc : isBlank c = false := hend (key ++ blank :: front) c (by simp)
      have hmem : c ∈ Text.stripBlanks (front.concat c) := List.mem_filter.2 ⟨by simp, by simp [hc]⟩
      rw [hnil] at hmem
      cases hmem
  · by_cases hunbroken : line.Unbroken
    · rw [readAssignment_of_unbroken hunbroken] at h
      cases h
    · obtain ⟨key, rest, hline⟩ := exists_isAssignmentLine hunbroken
      rw [readAssignment_of_isAssignmentLine hline] at h
      split at h
      · rename_i hcode
        cases h
        exact ⟨key, rest, hline, hcode, assigns_iff.2 rfl⟩
      · cases h
  · rintro ⟨key, rest, hline, hcode, hassigns⟩
    rw [readAssignment_of_isAssignmentLine hline, if_pos hcode, assigns_iff.1 hassigns]
  · intro key rest hline hcode
    rw [readAssignment_of_isAssignmentLine hline, if_neg (by simp [hcode])]

/-! ## Lines -/

/-- What becomes of a line that is neither empty nor a comment, by how it starts. -/
structure LineGrammar (line : Text) (reading : LineReading) : Prop where
  enclosure : ∀ tier : Tier, tier.directive ++ [' '] <+: line → EnclosureGrammar tier line reading
  entry : "*entry".toList ++ [' '] <+: line → EntryGrammar line reading
  assignment : (∀ tier : Tier, ¬ tier.directive ++ [' '] <+: line) →
    ¬ "*entry".toList ++ [' '] <+: line → AssignmentGrammar line reading

/-- Every line that is neither empty nor a comment is read by the grammar, and a file that ends with
the line says that much more. -/
theorem lineGrammar_readLine {line : Text} (hne : line.trim ≠ [])
    (hcomment : ¬ "//".toList <+: line.trim) :
    LineGrammar line.trim (readLine line) ∧
      ∀ {file contents}, '\n' ∉ line → read file = .ok contents →
        read (file ++ '\n' :: line) =
          .ok (contents.add (file.lines.length + 1) line.trim (readLine line)) := by
  have hend : ∀ front c, line.trim = front ++ [c] → isBlank c = false := fun _ _ h =>
    Text.not_isBlank_of_trim_concat h
  refine ⟨⟨?_, ?_, ?_⟩, fun hline hread => read_concat hline hread⟩
  · rintro tier ⟨body, hbody⟩
    have hline : line.trim = tier.directive ++ ' ' :: body := by simpa using hbody.symm
    rw [readLine, hline, readTrimmed_enclosure]
    refine enclosureGrammar tier fun front c h => hend (tier.directive ++ ' ' :: front) c ?_
    rw [hline, h]
    simp
  · rintro ⟨body, hbody⟩
    have hline : line.trim = "*entry".toList ++ ' ' :: body := by simpa using hbody.symm
    rw [readLine, hline, readTrimmed_entry]
    exact entryGrammar body
  · intro henclosure hentry
    rw [readLine, readTrimmed_plain hne hcomment hentry henclosure]
    exact assignmentGrammar hend

/-- The opening delimiter holds three spaces, two of them at its end. -/
theorem lineGrammar_readLine_spaces :
    let line : Text := "\t*>enclose c /* !   */ ".toList
    let rule : Enclosure := ⟨"c".toList, "/* !  ".toList, "*/".toList⟩
    line.trim ≠ [] ∧ ¬ "//".toList <+: line.trim ∧
      readLine line = .accepted (.enclosure .strong rule) ∧
      ∃ contents, read (header ++ '\n' :: line) = .ok contents ∧ contents.rules.strong.rules = [rule] := by
  intro line rule
  have hne : line.trim ≠ [] := by decide
  have hcomment : ¬ "//".toList <+: line.trim := by decide
  obtain ⟨hgrammar, hconcat⟩ := lineGrammar_readLine hne hcomment
  have hwords : IsEnclosureLine .strong line.trim "c".toList "/* !  ".toList "*/".toList :=
    ⟨rfl, by decide, by decide⟩
  have hread : readLine line = .accepted (.enclosure .strong rule) :=
    ((hgrammar.enclosure .strong ⟨_, rfl⟩).accepted_iff _).2 ⟨_, _, _, hwords, by decide, rfl⟩
  have hheader : read header = .ok ⟨.ofDirectives [], []⟩ := rfl
  refine ⟨hne, hcomment, hread, _, hconcat (by decide) hheader, ?_⟩
  rw [hread]
  rfl

end RuleFile

end Tint
