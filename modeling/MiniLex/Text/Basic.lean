/-!
# Text

The scanners work on text as a list of Unicode scalar values: every offset and every length counts
members of the list, and the text between two offsets is `Text.slice`.
-/

namespace MiniLex

/-- Text is a list of Unicode scalar values, so it holds no surrogates, paired or lone. -/
abbrev Text := List Char

namespace Text

/-- The number of line ends in a text. -/
def lineEnds (t : Text) : Nat := t.count '\n'

/-- The part of a text from one offset up to, but not including, another. -/
def slice (t : Text) (start stop : Nat) : Text := (t.drop start).take (stop - start)

/-- The text with its ASCII letters in lower case. No other character changes, so no letter outside
ASCII ever turns into one inside it. -/
def foldCase (t : Text) : Text := t.map Char.toLower

theorem lineEnds_append (s t : Text) : lineEnds (s ++ t) = lineEnds s + lineEnds t :=
  List.count_append

theorem length_foldCase (t : Text) : (foldCase t).length = t.length := by
  simp [foldCase]

end Text

end MiniLex
