import MiniLex.Text.Basic

/-!
# Kinds of standby-list tokens

A standby list names the servers that take part in replication and says how many of them must
answer. Its tokens are the two keywords, names, numbers, three marks, junk for whatever no rule
accepts, and the end of the input.
-/

namespace MiniLex.Standby

/-- The kinds of standby-list tokens. -/
inductive Kind where
  | any
  | first
  | name
  | number
  | junk
  | comma
  | leftParen
  | rightParen
  | endOfInput
  deriving DecidableEq

namespace Kind

/-- The kinds in declaration order. -/
def all : List Kind :=
  [any, first, name, number, junk, comma, leftParen, rightParen, endOfInput]

/-- The name under which a kind is reported. -/
def label : Kind → String
  | any => "ANY"
  | first => "FIRST"
  | name => "NAME"
  | number => "NUM"
  | junk => "JUNK"
  | comma => "COMMA"
  | leftParen => "LPAREN"
  | rightParen => "RPAREN"
  | endOfInput => "EOF"

/-- The character of a mark. -/
def mark? : Kind → Option Char
  | comma => some ','
  | leftParen => some '('
  | rightParen => some ')'
  | _ => none

/-- The text by which a grammar knows a kind: a mark's character, and the name of any other. -/
def code (k : Kind) : String :=
  match k.mark? with
  | some c => String.singleton c
  | none => k.label

/-- The kind of a mark, if the character is one. -/
def ofMark? (c : Char) : Option Kind :=
  if c = ',' then some comma
  else if c = '(' then some leftParen
  else if c = ')' then some rightParen
  else none

/-- The keyword that a word spells in any mixture of ASCII letter cases, if it spells one. -/
def ofKeyword? (word : Text) : Option Kind :=
  if Text.foldCase word = "any".toList then some any
  else if Text.foldCase word = "first".toList then some first
  else none

end Kind

end MiniLex.Standby
