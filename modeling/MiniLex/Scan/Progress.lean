import MiniLex.Ledger
import MiniLex.Memory.Call
import MiniLex.Setting
import MiniLex.Token

/-!
# Scanners and their progress

A scan has two parts. Its `Scanner` is fixed when the scan starts: source, language, allocator and
observers. Its `Progress` is all that changes while tokens are pulled: cursor, line count, mode,
diagnostics and whether the scan is closed.
-/

namespace MiniLex

/-- Which rules are active. -/
inductive Mode where
  /-- Between tokens, with all rules active. -/
  | normal
  /-- Inside a quoted name. -/
  | quoted
  deriving DecidableEq

/-- The name by which a mode is reported. -/
def Mode.label : Mode → String
  | normal => "NORMAL"
  | quoted => "QUOTED_IDENTIFIER"

/-- An error kept for the end of the scan: what was wrong, and the text at which it showed. The
empty text stands for the end of the input. -/
structure Diagnostic where
  complaint : String
  near : Text
  deriving DecidableEq

/-- The wording of a diagnostic. -/
def Diagnostic.message (d : Diagnostic) : String :=
  if d.near = [] then d.complaint ++ " at end of input"
  else d.complaint ++ " at or near \"" ++ String.ofList d.near ++ "\""

/-- The part of a scan that is fixed when it starts. -/
structure Scanner where
  /-- The scan that this is the scanner of. -/
  id : ScanId
  /-- The language to scan; a scanner without one has no rules to read tokens by. -/
  rules : Option Language
  /-- The whole input. -/
  source : Text
  /-- The name of the input in error messages, if it has one. -/
  sourceName : Setting
  /-- The allocator from which the scan gets its memory. -/
  allocator : AllocatorId
  /-- Whether every token is logged. -/
  tracing : Bool
  /-- The ledger that the scan is counted on. -/
  ledger : Option LedgerId
  deriving DecidableEq

namespace Scanner

/-- The name of a scanner: that of its language, and empty if it has none. -/
def name (s : Scanner) : String :=
  match s.rules with
  | some l => l.name
  | none => ""

/-- Whether a scanner's tokens carry line numbers. -/
def tracksLines (s : Scanner) : Bool :=
  match s.rules with
  | some l => l.tracksLines
  | none => false

end Scanner

/-- The part of a scan that changes. -/
structure Progress where
  /-- The offset of the cursor. -/
  pos : Nat
  /-- The number of line ends that bootstrap rules have consumed. -/
  lineCount : Nat
  /-- The active mode. -/
  mode : Mode
  /-- The buffer of the quoted name being read. -/
  accumulator : Option BufferId
  /-- The first error recorded. -/
  error : Option Diagnostic
  /-- The text matched last; empty at the end of the input. -/
  lastText : Text
  /-- Whether the scan has given up its context. -/
  closed : Bool
  deriving DecidableEq

namespace Progress

/-- The progress of a scan that starts. -/
def initial : Progress := ⟨0, 0, .normal, none, none, [], false⟩

/-- The line of the cursor, counted from 1. -/
def line (p : Progress) : Nat := p.lineCount + 1

/-- The cursor moves on by a number of characters. -/
def advance (n : Nat) (p : Progress) : Progress := { p with pos := p.pos + n }

/-- The line ends of a text that was consumed are counted. -/
def countLines (t : Text) (p : Progress) : Progress :=
  { p with lineCount := p.lineCount + t.lineEnds }

/-- The progress with this text as the one matched last. -/
def withLastText (t : Text) (p : Progress) : Progress := { p with lastText := t }

end Progress

/-- A scan: its scanner and how far it has got. -/
structure Scan where
  scanner : Scanner
  progress : Progress
  deriving DecidableEq

/-- An identifier that no scan has reads as a closed scan of the empty text. -/
instance : Inhabited Scan :=
  ⟨⟨⟨0, none, [], .nothing, 0, false, none⟩, { Progress.initial with closed := true }⟩⟩

end MiniLex
