import MiniLex.Proofs.Text.Doubled
import MiniLex.Proofs.Text.Letters
import MiniLex.Proofs.Text.Offsets
import MiniLex.Standby.Rules

/-!
# The rules of standby lists, character by character

What the token at an offset is (`Reads`), in terms of classes of characters
given by their ranges, longest runs, and the rules of doubled quotes. The first
character says which of the rules applies, so none is tried before another.

The tests of the scanner decide the classes: `isBlank_iff`, `isNameStart_iff`,
`isNameChar_iff`, `isDigit_iff`.
-/

namespace MiniLex.Standby

/-! ## Classes of characters -/

/-- Space, tab, line feed, form feed and vertical tab. -/
def Blank (c : Char) : Prop := c ∈ [' ', '\t', '\n', '\x0c', '\x0b']

/-- ASCII digits. -/
def Digit (c : Char) : Prop := '0' ≤ c ∧ c ≤ '9'

/-- ASCII letters, underscore, and all characters outside ASCII. -/
def NameStart (c : Char) : Prop :=
  ('A' ≤ c ∧ c ≤ 'Z') ∨ ('a' ≤ c ∧ c ≤ 'z') ∨ c = '_' ∨ 0x80 ≤ c.toNat

/-- Those that start a name, ASCII digits and the dollar sign. -/
def NameChar (c : Char) : Prop := NameStart c ∨ Digit c ∨ c = '$'

/-! ## The rules -/

/-- The token that stands at an offset behind blanks. -/
inductive Reads (source : Text) (p : Nat) : Token → Prop
  | atEnd : p = source.length → Reads source p ⟨.standby .endOfInput, none, p, p, none⟩
  | any {c : Char} {stop : Nat} : source[p]? = some c → NameStart c →
    source.LongestRun NameChar p stop → Text.SameWord (source.slice p stop) ['a', 'n', 'y'] →
    Reads source p ⟨.standby .any, none, p, stop, none⟩
  | first {c : Char} {stop : Nat} : source[p]? = some c → NameStart c →
    source.LongestRun NameChar p stop →
    Text.SameWord (source.slice p stop) ['f', 'i', 'r', 's', 't'] →
    Reads source p ⟨.standby .first, none, p, stop, none⟩
  | name {c : Char} {stop : Nat} : source[p]? = some c → NameStart c →
    source.LongestRun NameChar p stop → ¬Text.SameWord (source.slice p stop) ['a', 'n', 'y'] →
    ¬Text.SameWord (source.slice p stop) ['f', 'i', 'r', 's', 't'] →
    Reads source p ⟨.standby .name, some (source.slice p stop), p, stop, none⟩
  | number {c : Char} {stop : Nat} : source[p]? = some c → Digit c →
    source.LongestRun Digit p stop →
    Reads source p ⟨.standby .number, some (source.slice p stop), p, stop, none⟩
  | star : source[p]? = some '*' → Reads source p ⟨.standby .name, some ['*'], p, p + 1, none⟩
  | comma : source[p]? = some ',' → Reads source p ⟨.standby .comma, none, p, p + 1, none⟩
  | leftParen : source[p]? = some '(' →
    Reads source p ⟨.standby .leftParen, none, p, p + 1, none⟩
  | rightParen : source[p]? = some ')' →
    Reads source p ⟨.standby .rightParen, none, p, p + 1, none⟩
  /-- A quoted name ends at the first quote that is not one of a pair. -/
  | quoted {inside value rest : Text} : source.drop p = '"' :: (inside ++ '"' :: rest) →
    Doubled.Decodes '"' inside value → rest.head? ≠ some '"' →
    Reads source p ⟨.standby .name, some value, p, p + (inside.length + 2), none⟩
  /-- A quoted name that never ends is junk up to the end of the text. -/
  | unclosed {inside value : Text} : source.drop p = '"' :: inside →
    Doubled.Decodes '"' inside value →
    Reads source p ⟨.standby .junk, none, p, source.length, none⟩
  | junk {c : Char} : source[p]? = some c → ¬NameStart c → ¬Digit c →
    c ∉ ['*', ',', '(', ')', '"'] → Reads source p ⟨.standby .junk, none, p, p + 1, none⟩

/-! ## Tests decide the classes -/

theorem isBlank_iff (c : Char) : isBlank c = true ↔ Blank c := by
  simp only [isBlank, Blank, Bool.or_eq_true, beq_iff_eq, List.mem_cons, List.not_mem_nil, or_false,
    or_assoc]
  rw [or_comm (a := c = '\x0b')]

theorem isDigit_iff (c : Char) : c.isDigit = true ↔ Digit c := Text.isDigit_iff

theorem isNameStart_iff (c : Char) : isNameStart c = true ↔ NameStart c := by
  simp only [isNameStart, NameStart, Bool.or_eq_true, Text.isAlpha_iff, decide_eq_true_eq,
    beq_iff_eq, or_assoc]

theorem isNameChar_iff (c : Char) : isNameChar c = true ↔ NameChar c := by
  simp only [isNameChar, NameChar, Bool.or_eq_true, isNameStart_iff, isDigit_iff, beq_iff_eq,
    or_assoc]

end MiniLex.Standby
