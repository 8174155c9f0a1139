import MiniLex.Lexeme
import MiniLex.Text.Doubled

/-!
# Rules of the standby language

How a standby list divides into tokens, as functions of the text alone:

* blanks (`isBlank`) are skipped before a token;
* `Reading.read`: what stands after them, that is the end of the input, a lexeme, or the body of a
  quoted name.

Standby lists are written by hand, so no text is refused: a character that no rule accepts is a
lexeme of its own, of the kind junk. `quote` writes any name so that it reads back as that name.
-/

namespace MiniLex.Standby

/-- The delimiter of quoted names. -/
def doubleQuote : Char := '"'

/-- Characters skipped between tokens: space, tab, line feed, vertical tab, form feed. -/
def isBlank (c : Char) : Bool :=
  c == ' ' || c == '\t' || c == '\n' || c == '\x0b' || c == '\x0c'

/-- Characters that begin a bare name: ASCII letters, underscore, and all outside ASCII. -/
def isNameStart (c : Char) : Bool := c.isAlpha || c == '_' || 0x80 ≤ c.toNat

/-- Characters that continue a bare name: those that begin one, ASCII digits and the dollar sign. -/
def isNameChar (c : Char) : Bool := isNameStart c || c.isDigit || c == '$'

/-- The quoted form of a name. -/
def quote (name : Text) : Text := Doubled.enclose doubleQuote name

/-- What stands at the cursor once blanks are skipped. -/
inductive Reading where
  | atEnd
  | lexeme (l : Lexeme)
  | quoted (body : Doubled.Body)
  deriving DecidableEq

/-- The name that the wildcard stands for. -/
def wildcard : Text := ['*']

/-- The lexeme of a bare word: a keyword in any letter case, or else a name. -/
def wordLexeme (word : Text) : Lexeme :=
  match Kind.ofKeyword? word with
  | some kind => ⟨.standby kind, .absent, word.length⟩
  | none => ⟨.standby .name, .copied word, word.length⟩

/-- The lexeme of a character that begins neither a word, a number nor a quoted name. -/
def charLexeme (c : Char) : Lexeme :=
  if c = '*' then ⟨.standby .name, .fixed wildcard, 1⟩
  else match Kind.ofMark? c with
    | some kind => ⟨.standby kind, .absent, 1⟩
    | none => ⟨.standby .junk, .absent, 1⟩

/-- What a text begins with. -/
def Reading.read : Text → Reading
  | [] => atEnd
  | c :: cs =>
    if c = doubleQuote then quoted (Doubled.Body.read doubleQuote cs)
    else if isNameStart c then lexeme (wordLexeme (c :: cs.takeWhile isNameChar))
    else if c.isDigit then
      let digits := c :: cs.takeWhile Char.isDigit
      lexeme ⟨.standby .number, .copied digits, digits.length⟩
    else lexeme (charLexeme c)

end MiniLex.Standby
