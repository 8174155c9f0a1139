import MiniLex.Bootstrap.Kind
import MiniLex.Standby.Kind
import MiniLex.Text.Literal

/-!
# Tokens

A token has a kind of its language, the value that its text stands for, the offsets between which it
stands in the source, and, in a language that counts lines, the line on which it starts.
`Token.render` shows a token on one line, with a long value cut short.
-/

namespace MiniLex

/-- The languages that have rules. -/
inductive Language where
  | bootstrap
  | standby
  deriving DecidableEq

/-- A kind of token of either language. -/
inductive TokenKind where
  | bootstrap (kind : Bootstrap.Kind)
  | standby (kind : Standby.Kind)
  deriving DecidableEq

namespace TokenKind

/-- The name under which a kind is reported. -/
def label : TokenKind → String
  | bootstrap kind => kind.label
  | standby kind => kind.label

/-- Whether a kind stands for the end of the input. -/
def isEnd : TokenKind → Bool
  | bootstrap kind => kind == .endOfInput
  | standby kind => kind == .endOfInput

/-- The character of a mark that a grammar reads as itself. Only standby lists have such marks. -/
def mark? : TokenKind → Option Char
  | bootstrap _ => none
  | standby kind => kind.mark?

/-- How a grammar knows a kind: by a number or by a text. -/
inductive Code where
  | ordinal (n : Nat)
  | text (s : String)
  deriving DecidableEq

/-- The code of a kind: bootstrap kinds are numbered, standby kinds have texts. -/
def code : TokenKind → Code
  | bootstrap kind => .ordinal kind.code
  | standby kind => .text kind.code

end TokenKind

namespace Language

/-- The name by which a language is chosen. -/
def name : Language → String
  | bootstrap => "bootstrap"
  | standby => "standby"

/-- The language that a name chooses, if any. -/
def ofName? (name : String) : Option Language :=
  [bootstrap, standby].find? fun l => l.name = name

/-- The kinds of a language's tokens, in declaration order. -/
def kinds : Language → List TokenKind
  | bootstrap => Bootstrap.Kind.all.map .bootstrap
  | standby => Standby.Kind.all.map .standby

/-- The kind of a language that is reported under a name, if any. -/
def kind? (l : Language) (name : String) : Option TokenKind :=
  l.kinds.find? fun k => k.label = name

/-- The kind that stands for the end of the input. -/
def endKind : Language → TokenKind
  | bootstrap => .bootstrap .endOfInput
  | standby => .standby .endOfInput

/-- Whether tokens of a language carry line numbers. -/
def tracksLines : Language → Bool
  | bootstrap => true
  | standby => false

end Language

/-- A token: its kind, the value that its text stands for, the offsets of its text, and the line of
its first character where lines are counted. -/
structure Token where
  kind : TokenKind
  value : Option Text
  start : Nat
  stop : Nat
  line : Option Nat
  deriving DecidableEq

namespace Token

/-- A value of more than twenty characters shows as its first seventeen and three dots. -/
def abridge (value : Text) : Text :=
  if 20 < value.length then value.take 17 ++ ['.', '.', '.'] else value

/-- The one-line rendering of a token from its parts: kind, value as a literal, and place. -/
def renderParts (kind : TokenKind) (value : Option Text) (offset : Int) (line : Option Int) :
    String :=
  let shown := match value with
    | some v => String.ofList (Literal.render (abridge v))
    | none => "None"
  let place := match line with
    | some n => toString n ++ ":" ++ toString offset
    | none => toString offset
  "Token(" ++ kind.label ++ ", " ++ shown ++ ", " ++ place ++ ")"

/-- The one-line rendering of a token. -/
def render (t : Token) : String :=
  renderParts t.kind t.value t.start (t.line.map Int.ofNat)

end Token

end MiniLex
