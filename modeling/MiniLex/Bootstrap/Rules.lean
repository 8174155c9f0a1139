import MiniLex.Lexeme
import MiniLex.Text.Doubled

/-!
# Rules of the bootstrap language

How bootstrap text divides into tokens, as functions of the text alone:

* `gap`: what is skipped before a token, that is blanks, line ends and comments, where a comment
  runs from a number sign in the first column to the end of its line;
* `Reading.read`: what stands after the gap, that is the end of the input, a lexeme, or a character
  that no rule accepts.

A word is a longest run of letters, digits, hyphens and underscores. A quoted string stands between
apostrophes and doubles those inside it; when it never closes, its longest part that ends in an
apostrophe is taken.
-/

namespace MiniLex.Bootstrap

/-- The delimiter of quoted strings. -/
def apostrophe : Char := '\''

/-- Characters of words: ASCII letters and digits, hyphen, underscore. -/
def isWordChar (c : Char) : Bool := c.isAlphanum || c == '-' || c == '_'

/-- Characters skipped between tokens, line ends apart. -/
def isBlank (c : Char) : Bool := c == ' ' || c == '\t' || c == '\r'

/-- Where the cursor stands between two tokens. -/
inductive Place where
  /-- In the first column of a line. -/
  | lineStart
  /-- Anywhere else outside comments. -/
  | midLine
  /-- Inside a comment. -/
  | comment
  deriving DecidableEq

/-- The place at an offset that no comment covers. -/
def Place.at (source : Text) (offset : Nat) : Place :=
  if offset = 0 ∨ source[offset - 1]? = some '\n' then lineStart else midLine

/-- The longest stretch that is skipped before the next token. -/
def gap : Place → Text → Text
  | _, [] => []
  | .comment, c :: cs => if c = '\n' then c :: gap .lineStart cs else c :: gap .comment cs
  | place, c :: cs =>
    if c = '\n' then c :: gap .lineStart cs
    else if isBlank c then c :: gap .midLine cs
    else if c = '#' ∧ place = .lineStart then c :: gap .comment cs
    else []

/-- What stands at the cursor once the gap is skipped. -/
inductive Reading where
  | atEnd
  | lexeme (l : Lexeme)
  | illegal (c : Char)
  deriving DecidableEq

/-- The payload of a word: a keyword keeps its spelling, the null literal has no value, and an
identifier is copied. -/
def wordPayload (word : Text) : Kind → Payload
  | .keyword _ => .fixed word
  | .nullValue => .absent
  | _ => .copied word

/-- The lexeme of a word. -/
def wordLexeme (word : Text) : Lexeme :=
  ⟨.bootstrap (Kind.ofWord word), wordPayload word (Kind.ofWord word), word.length⟩

/-- The lexeme of a quoted string with this body. -/
def stringLexeme (body : Doubled.Body) : Lexeme :=
  ⟨.bootstrap .ident, .copied (body.text apostrophe), body.width + 1⟩

/-- What a text begins with. -/
def Reading.read : Text → Reading
  | [] => atEnd
  | c :: cs =>
    if isWordChar c then lexeme (wordLexeme (c :: cs.takeWhile isWordChar))
    else if c = apostrophe then
      match (Doubled.Body.read apostrophe cs).longest? with
      | some body => lexeme (stringLexeme body)
      | none => illegal c
    else
      match Kind.ofMark? c with
      | some kind => lexeme ⟨.bootstrap kind, .absent, 1⟩
      | none => illegal c

/-- A gap is a first part of the text. -/
theorem gap_prefix (place : Place) (t : Text) : gap place t <+: t := by
  fun_induction gap place t <;> simp_all

end MiniLex.Bootstrap
