import MiniLex.Text.Basic

/-!
# Kinds of bootstrap tokens

The bootstrap language defines a catalog before there is one. Its tokens are nineteen keywords, each
with one spelling, the null literal, identifiers (quoted strings among them), four marks and the end
of the input. `Kind.all` fixes their order, and `Kind.code` numbers them by it.
-/

namespace MiniLex.Bootstrap

/-- The keywords of the bootstrap language, in declaration order. -/
inductive Keyword where
  | openRelation | closeRelation | createRelation | insertRow | declareIndex | buildIndices
  | objectId | bootstrapRelation | sharedRelation | rowTypeId
  | indices | unique | index | onRelation | usingMethod | toast
  | forceWord | notWord | nullWord
  deriving DecidableEq

namespace Keyword

/-- The keywords in declaration order. -/
def all : List Keyword :=
  [openRelation, closeRelation, createRelation, insertRow, declareIndex, buildIndices,
   objectId, bootstrapRelation, sharedRelation, rowTypeId,
   indices, unique, index, onRelation, usingMethod, toast,
   forceWord, notWord, nullWord]

/-- The name under which a keyword's token is reported. -/
def label : Keyword → String
  | openRelation => "OPEN"
  | closeRelation => "XCLOSE"
  | createRelation => "XCREATE"
  | insertRow => "INSERT_TUPLE"
  | declareIndex => "XDECLARE"
  | buildIndices => "XBUILD"
  | objectId => "OBJ_ID"
  | bootstrapRelation => "XBOOTSTRAP"
  | sharedRelation => "XSHARED_RELATION"
  | rowTypeId => "XROWTYPE_OID"
  | indices => "INDICES"
  | unique => "UNIQUE"
  | index => "INDEX"
  | onRelation => "ON"
  | usingMethod => "USING"
  | toast => "XTOAST"
  | forceWord => "XFORCE"
  | notWord => "XNOT"
  | nullWord => "XNULL"

/-- The one spelling of a keyword; letter case counts. -/
def spelling : Keyword → Text
  | openRelation => "open".toList
  | closeRelation => "close".toList
  | createRelation => "create".toList
  | insertRow => "insert".toList
  | declareIndex => "declare".toList
  | buildIndices => "build".toList
  | objectId => "OID".toList
  | bootstrapRelation => "bootstrap".toList
  | sharedRelation => "shared_relation".toList
  | rowTypeId => "rowtype_oid".toList
  | indices => "indices".toList
  | unique => "unique".toList
  | index => "index".toList
  | onRelation => "on".toList
  | usingMethod => "using".toList
  | toast => "toast".toList
  | forceWord => "FORCE".toList
  | notWord => "NOT".toList
  | nullWord => "NULL".toList

/-- The keyword that a word spells, if any. -/
def ofSpelling? (word : Text) : Option Keyword := all.find? fun k => k.spelling = word

theorem ofSpelling?_spelling (k : Keyword) : ofSpelling? k.spelling = some k := by
  cases k <;> decide

/-- A word spells at most one keyword, and each keyword has exactly one spelling. -/
theorem ofSpelling?_eq_some_iff {word : Text} {k : Keyword} :
    ofSpelling? word = some k ↔ k.spelling = word := by
  constructor
  · intro h
    simpa using List.find?_some h
  · rintro rfl
    exact ofSpelling?_spelling k

end Keyword

/-- The kinds of bootstrap tokens. -/
inductive Kind where
  | keyword (k : Keyword)
  | nullValue
  | ident
  | comma
  | equals
  | leftParen
  | rightParen
  | endOfInput
  deriving DecidableEq

namespace Kind

/-- The kinds in declaration order. -/
def all : List Kind :=
  Keyword.all.map keyword ++
    [nullValue, ident, comma, equals, leftParen, rightParen, endOfInput]

/-- The name under which a kind is reported. -/
def label : Kind → String
  | keyword k => k.label
  | nullValue => "NULLVAL"
  | ident => "ID"
  | comma => "COMMA"
  | equals => "EQUALS"
  | leftParen => "LPAREN"
  | rightParen => "RPAREN"
  | endOfInput => "EOF"

/-- The place of a kind in declaration order, counted from 1. -/
def code (k : Kind) : Nat := all.idxOf k + 1

/-- The kind of a mark, if the character is one. -/
def ofMark? (c : Char) : Option Kind :=
  if c = ',' then some comma
  else if c = '=' then some equals
  else if c = '(' then some leftParen
  else if c = ')' then some rightParen
  else none

/-- The spelling of the null literal. -/
def nullLiteral : Text := "_null_".toList

/-- The kind of a word: the null literal and the keywords have kinds of their own, and every other
word is an identifier. -/
def ofWord (word : Text) : Kind :=
  if word = nullLiteral then nullValue
  else match Keyword.ofSpelling? word with
    | some k => keyword k
    | none => ident

end Kind

end MiniLex.Bootstrap
