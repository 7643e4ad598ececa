import Tint.RuleFile.Line
set_option autoImplicit false

/-!
# What a line can say

All that reading a line without the blanks around it can come to is said once, by `RuleFile.Reads`:
each way in which a line is skipped, dropped or accepted, with the parts that it is cut into and the
tests that they pass.  What holds of every line, such as that no empty delimiter is accepted, is
read off it by cases on the result.
-/

namespace Tint

namespace RuleFile

/-- The line is neither empty nor a comment, and starts with no directive. -/
structure IsPlain (line : Text) : Prop where
  ne_nil : line ≠ []
  not_comment : ¬ "//".toList <+: line
  not_entry : bodyAfter? "*entry".toList line = none
  not_enclosure : ∀ tier : Tier, bodyAfter? tier.directive line = none

/-- What becomes of a line without the blanks around it. -/
inductive Reads (line : Text) : LineReading → Prop where
  /-- an empty line or a comment -/
  | nothing (idle : line = [] ∨ "//".toList <+: line) : Reads line .skipped
  /-- a single word -/
  | word (plain : IsPlain line) (uncut : line.cutAt? isBlank = none) : Reads line .skipped
  | missingLeft {tier : Tier} {body : Text} (starts : bodyAfter? tier.directive line = some body)
      (uncut : body.cutAt? isSpace = none) : Reads line (.rejected (.missingLeft tier body))
  | missingRight {tier : Tier} {body name delimiters : Text}
      (starts : bodyAfter? tier.directive line = some body)
      (cut : body.cutAt? isSpace = some (name, delimiters))
      (uncut : delimiters.cutAtLast? isSpace = none) : Reads line (.rejected (.missingRight tier name))
  | emptyDelimiter {tier : Tier} {body name delimiters left right : Text}
      (starts : bodyAfter? tier.directive line = some body)
      (cut : body.cutAt? isSpace = some (name, delimiters))
      (cut' : delimiters.cutAtLast? isSpace = some (left, right))
      (empty : left.expand = [] ∨ right.expand = []) :
      Reads line (.rejected (.emptyDelimiter tier name))
  | enclosure {tier : Tier} {body name delimiters left right : Text}
      (starts : bodyAfter? tier.directive line = some body)
      (cut : body.cutAt? isSpace = some (name, delimiters))
      (cut' : delimiters.cutAtLast? isSpace = some (left, right))
      (left_ne_nil : left.expand ≠ []) (right_ne_nil : right.expand ≠ []) :
      Reads line (.accepted (.enclosure tier ⟨name, left.expand, right.expand⟩))
  | incompleteEntry {body : Text} (starts : bodyAfter? "*entry".toList line = some body)
      (uncut : body.cutAt? isSpace = none) : Reads line (.rejected .incompleteEntry)
  | entryColor {body marker color : Text} (starts : bodyAfter? "*entry".toList line = some body)
      (cut : body.cutAt? isSpace = some (marker, color))
      (not_code : Color.isCode color.stripBlanks = false) :
      Reads line (.rejected (.notAColor color.stripBlanks))
  | emptyEntry {body marker color : Text} (starts : bodyAfter? "*entry".toList line = some body)
      (cut : body.cutAt? isSpace = some (marker, color))
      (code : Color.isCode color.stripBlanks = true) (empty : marker.expand = []) :
      Reads line (.rejected .emptyEntry)
  | entry {body marker color : Text} (starts : bodyAfter? "*entry".toList line = some body)
      (cut : body.cutAt? isSpace = some (marker, color))
      (code : Color.isCode color.stripBlanks = true) (token_ne_nil : marker.expand ≠ []) :
      Reads line (.accepted (.entry ⟨marker.expand, color.stripBlanks⟩))
  | assignedColor {key color : Text} (plain : IsPlain line)
      (cut : line.cutAt? isBlank = some (key, color))
      (not_code : Color.isCode color.stripBlanks = false) :
      Reads line (.rejected (.notAColor color.stripBlanks))
  | assignment {key color : Text} (plain : IsPlain line)
      (cut : line.cutAt? isBlank = some (key, color))
      (code : Color.isCode color.stripBlanks = true) :
      Reads line (.accepted (assign key color.stripBlanks))

variable {line body : Text}

theorem reads_readEnclosure {tier : Tier} (starts : bodyAfter? tier.directive line = some body) :
    Reads line (readEnclosure tier body) := by
  unfold readEnclosure
  split
  · rename_i uncut
    exact .missingLeft starts uncut
  · rename_i name delimiters cut
    split
    · rename_i uncut
      exact .missingRight starts cut uncut
    · rename_i left right cut'
      dsimp only
      split
      · rename_i empty
        rw [Bool.or_eq_true, List.isEmpty_iff, List.isEmpty_iff] at empty
        exact .emptyDelimiter starts cut cut' empty
      · rename_i full
        rw [Bool.or_eq_true, List.isEmpty_iff, List.isEmpty_iff, not_or] at full
        exact .enclosure starts cut cut' full.1 full.2

theorem reads_readEntry (starts : bodyAfter? "*entry".toList line = some body) :
    Reads line (readEntry body) := by
  unfold readEntry
  split
  · rename_i uncut
    exact .incompleteEntry starts uncut
  · rename_i marker color cut
    dsimp only
    split
    · rename_i hcolor
      rw [Bool.not_eq_true'] at hcolor
      exact .entryColor starts cut hcolor
    · rename_i hcolor
      rw [Bool.not_eq_true', Bool.not_eq_false] at hcolor
      split
      · rename_i empty
        exact .emptyEntry starts cut hcolor (List.isEmpty_iff.1 empty)
      · rename_i full
        exact .entry starts cut hcolor fun hnil => full (List.isEmpty_iff.2 hnil)

theorem reads_readAssignment (plain : IsPlain line) : Reads line (readAssignment line) := by
  unfold readAssignment
  split
  · rename_i uncut
    exact .word plain uncut
  · rename_i key color cut
    dsimp only
    split
    · rename_i hcolor
      exact .assignment plain cut hcolor
    · rename_i hcolor
      exact .assignedColor plain cut (Bool.eq_false_iff.2 hcolor)

/-- Every line is read in one of these ways. -/
theorem reads_readTrimmed (line : Text) : Reads line (readTrimmed line) := by
  unfold readTrimmed
  split
  · rename_i idle
    rw [Bool.or_eq_true, List.isEmpty_iff, Text.startsWith_iff] at idle
    exact .nothing idle
  · rename_i busy
    rw [Bool.or_eq_true, List.isEmpty_iff, Text.startsWith_iff, not_or] at busy
    split
    · rename_i starts
      exact reads_readEntry starts
    · rename_i hentry
      split
      · rename_i starts
        exact reads_readEnclosure starts
      · rename_i hstrong
        split
        · rename_i starts
          exact reads_readEnclosure starts
        · rename_i hdoc
          split
          · rename_i starts
            exact reads_readEnclosure starts
          · rename_i hweak
            refine reads_readAssignment ⟨busy.1, busy.2, ?_, ?_⟩
            · exact Option.eq_none_iff_forall_ne_some.2 hentry
            · intro tier
              cases tier with
              | strong => exact Option.eq_none_iff_forall_ne_some.2 hstrong
              | doc => exact Option.eq_none_iff_forall_ne_some.2 hdoc
              | weak => exact Option.eq_none_iff_forall_ne_some.2 hweak

theorem reads_of_readLine {r : LineReading} (h : readLine line = r) : Reads line.trim r :=
  h ▸ reads_readTrimmed line.trim

end RuleFile

end Tint
