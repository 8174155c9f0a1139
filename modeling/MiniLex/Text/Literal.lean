import MiniLex.Text.Basic
import MiniLex.Text.Printable

/-!
# Quoted renderings of text

Log lines and token renderings show text as a one-line literal. `Literal.render` stands the text
between apostrophes, or between double quotes when it holds an apostrophe and no double quote. The
backslash and the chosen delimiter get a backslash; tab, line feed and carriage return have letters
of their own; every other unprintable character is written with its code point in 2, 4 or 8
hexadecimal digits, whichever is the first to suffice.
-/

namespace MiniLex.Literal

/-- The lowest `width` hexadecimal digits of a number, leading zeros included. -/
def hexDigits : Nat → Nat → Text
  | 0, _ => []
  | width + 1, n => hexDigits width (n / 16) ++ [Nat.digitChar (n % 16)]

/-- The delimiter of the rendering of a text. -/
def delimiter (t : Text) : Char :=
  if '\'' ∈ t ∧ '"' ∉ t then '"' else '\''

/-- The escape of an unprintable character by its code point. -/
def escapeCode (n : Nat) : Text :=
  if n ≤ 0xff then '\\' :: 'x' :: hexDigits 2 n
  else if n ≤ 0xffff then '\\' :: 'u' :: hexDigits 4 n
  else '\\' :: 'U' :: hexDigits 8 n

/-- One character of a text, as it stands between the delimiters `q`. -/
def escape (q c : Char) : Text :=
  if c = q ∨ c = '\\' then ['\\', c]
  else if c = '\n' then ['\\', 'n']
  else if c = '\r' then ['\\', 'r']
  else if c = '\t' then ['\\', 't']
  else if Printable.isPrintable c then [c]
  else escapeCode c.toNat

/-- The one-line literal of a text. -/
def render (t : Text) : Text :=
  let q := delimiter t
  q :: (t.flatMap (escape q) ++ [q])

/-- The one-line literal of a string. -/
def renderString (s : String) : String := String.ofList (render s.toList)

end MiniLex.Literal
