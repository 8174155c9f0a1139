import MiniLex.Scan.Context
import MiniLex.Standby.Rules

/-!
# Scanning standby lists

One token at a time: blanks are skipped, and the lexeme behind them is made a token. The body of a
quoted name is collected in a buffer, run by run, so that the decoded name is built once; the scan
is in quoted mode while it does so. A body that never closes is junk up to the end of the input,
and the first such body, or the first error that the caller reports, is kept as a diagnostic.
-/

namespace MiniLex.Scanner

open ScanM

/-- What is wrong with a quoted name that never closes. -/
def unterminated : String := "unterminated quoted identifier"

/-- Keeps an error of a standby scan against the text matched last, unless one is kept already. An
error that is kept is counted and logged. -/
def recordError (s : Scanner) (complaint : String) : ScanM Bool := do
  let kept ← noteError complaint
  if kept then
    updateHost (Host.account s.ledger Ledger.countError)
    if let some d := (← progress).error then report (.errorRecorded d.message)
  return kept

/-- Collects a run of a quoted name; an empty one leaves no trace. -/
def collectRun (buffer : BufferId) (run : Text) : ScanM Unit := do
  if run = [] then return
  update (Progress.withLastText run)
  onMemory (Memory.append buffer run)

/-- Reads a body, whose first character stands at the cursor, of the quoted name that starts at an
offset. The cursor moves once a run and the delimiters behind it are dealt with. -/
def readBody (s : Scanner) (start : Nat) (buffer : BufferId) : Doubled.Body → ScanM Token
  | .pair run rest => do
    collectRun buffer run
    update (Progress.withLastText [Standby.doubleQuote, Standby.doubleQuote])
    onMemory (Memory.append buffer [Standby.doubleQuote])
    update (Progress.advance (run.length + 2))
    s.readBody start buffer rest
  | .closed run => do
    collectRun buffer run
    update (Progress.advance (run.length + 1))
    let name := ((← get).host.memory.buffer buffer).text
    let copy ← onMemory (Memory.clone s.allocator name)
    s.leaveQuoted
    report (.quoteLeft (← progress).pos)
    let token ← s.makeToken (.standby .name) (some copy) start
    update (Progress.withLastText [Standby.doubleQuote])
    return token
  | .unclosed run => do
    collectRun buffer run
    update (Progress.advance run.length)
    update (Progress.withLastText [])
    let _ ← s.recordError unterminated
    s.leaveQuoted
    return ⟨.standby .junk, none, start, (← progress).pos, none⟩

/-- Moves the cursor over the blanks before the next token. -/
def skipBlanks (s : Scanner) : ScanM Unit :=
  update fun p => p.advance ((s.source.drop p.pos).takeWhile Standby.isBlank).length

/-- Reads one standby token. -/
def readStandby (s : Scanner) : ScanM Token := do
  s.skipBlanks
  let start := (← progress).pos
  match Standby.Reading.read (s.source.drop start) with
  | .atEnd => s.makeEnd (.standby .endOfInput)
  | .lexeme l => s.emit l
  | .quoted body =>
    update (Progress.advance 1)
    update (Progress.withLastText [Standby.doubleQuote])
    let buffer ← s.enterQuoted
    report (.quoteEntered start)
    s.readBody start buffer body

end MiniLex.Scanner
