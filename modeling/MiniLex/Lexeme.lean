import MiniLex.Token

/-!
# Lexemes

What a language's rules find at the cursor, before anything is done about it: the kind of token, how
many characters it takes, and where its value comes from. A value that is copied out of the source
has to be stored somewhere; a spelling that belongs to the language has not.
-/

namespace MiniLex

/-- Where a token's value comes from. -/
inductive Payload where
  /-- The token has no value. -/
  | absent
  /-- The value is a text that belongs to the language. -/
  | fixed (text : Text)
  /-- The value is decoded from the source, and a copy of it is stored for the token. -/
  | copied (text : Text)
  deriving DecidableEq

/-- The value that a token gets from its payload. -/
def Payload.value : Payload → Option Text
  | absent => none
  | fixed text => some text
  | copied text => some text

/-- A lexeme: the kind of its token, its payload and the number of characters it takes. -/
structure Lexeme where
  kind : TokenKind
  payload : Payload
  width : Nat
  deriving DecidableEq

end MiniLex
