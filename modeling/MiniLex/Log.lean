import MiniLex.Token

/-!
# The log

What scans and arenas report while they work. Every event belongs to a channel, and all channels lie
under one root, so that a program which embeds the scanners can listen to all of them at once.
-/

namespace MiniLex

namespace Log

/-- The channel above all others. -/
def root : String := "pgscan"

/-- The channel of a name: a name that lies under the root already stays, and any other is put
under it. -/
def channelOf (name : String) : String :=
  if name = root ∨ (root ++ ".").toList.isPrefixOf name.toList then name else root ++ "." ++ name

end Log

/-- Something worth reporting. -/
inductive Event where
  /-- A scan over a source of this length starts. -/
  | scanStarted (scanner : String) (length : Nat)
  /-- A scanner that traces its tokens gives one. -/
  | tokenRead (scanner : String) (token : Token)
  /-- A scan over a source of this length is closed with the cursor at this offset. -/
  | scanFinished (scanner : String) (offset length : Nat)
  /-- No bootstrap rule accepts a character. -/
  | characterRefused (char : Char) (line offset : Nat)
  /-- A standby scan keeps an error. -/
  | errorRecorded (message : String)
  /-- A quoted name opens at this offset. -/
  | quoteEntered (offset : Nat)
  /-- A quoted name has closed before this offset. -/
  | quoteLeft (offset : Nat)
  /-- An arena gives up all that is in its care. -/
  | arenaReleased (name : String) (contexts buffers : Nat)
  deriving DecidableEq

namespace Event

/-- The channel of an event. -/
def channel : Event → String
  | scanStarted .. => Log.channelOf "lexer.core"
  | tokenRead .. => Log.channelOf "lexer.core"
  | scanFinished .. => Log.channelOf "lexer.core"
  | characterRefused .. => Log.channelOf "lexer.bootstrap"
  | errorRecorded .. => Log.channelOf "lexer.standby"
  | quoteEntered .. => Log.channelOf "lexer.standby"
  | quoteLeft .. => Log.channelOf "lexer.standby"
  | arenaReleased .. => Log.channelOf "allocator"

/-- The wording of an event. -/
def message : Event → String
  | scanStarted scanner length =>
    "Starting " ++ scanner ++ " scan of " ++ toString length ++ " chars"
  | tokenRead scanner token => scanner ++ " token " ++ token.render
  | scanFinished scanner offset length =>
    "Finished " ++ scanner ++ " scan at offset " ++ toString offset ++ "/" ++ toString length
  | characterRefused char line offset =>
    "Illegal character " ++ Literal.renderString (String.singleton char) ++
      " at line " ++ toString line ++ " (offset " ++ toString offset ++ ")"
  | errorRecorded text => "Recorded standby scan error: " ++ text
  | quoteEntered offset => "Entering quoted identifier at offset " ++ toString offset
  | quoteLeft offset => "Leaving quoted identifier at offset " ++ toString offset
  | arenaReleased name contexts buffers =>
    "Arena " ++ Literal.renderString name ++ " released " ++ toString contexts ++
      " context(s) and " ++ toString buffers ++ " buffer(s)"

end Event

end MiniLex
