import MiniLex.Lexeme
import MiniLex.Scan.Machine

/-!
# The context of a scan

What scans of every language do with their progress and the memory behind it: switch into and out of
quoted mode, keep the first error, make tokens, and give everything back when they are closed.

A buffer is taken from the allocator on entering quoted mode and handed back on leaving it. A
context is released only once: releasing or closing it again changes nothing.
-/

namespace MiniLex.Scanner

open ScanM

/-! ## Quoted mode -/

/-- Switches to quoted mode with a new buffer, which is returned. -/
def enterQuoted (s : Scanner) : ScanM BufferId := do
  let buffer ← onMemory (Memory.allocate s.allocator Buffer.initialCapacity)
  update fun p => { p with accumulator := some buffer, mode := .quoted }
  return buffer

/-- Returns to normal mode and hands the buffer back. -/
def leaveQuoted (s : Scanner) : ScanM Unit := do
  match (← progress).accumulator with
  | some buffer =>
    onMemory (Memory.release s.allocator buffer)
    update fun p => { p with accumulator := none, mode := .normal }
  | none => update fun p => { p with mode := .normal }

/-! ## Diagnostics -/

/-- Keeps an error against the text matched last, unless one is kept already. Returns whether this
one was kept. -/
def noteError (complaint : String) : ScanM Bool := do
  let p ← progress
  if p.error.isSome then return false
  update fun p => { p with error := some ⟨complaint, p.lastText⟩ }
  return true

/-! ## Tokens -/

/-- The line that a token gets whose making leaves this progress. -/
def lineOf (s : Scanner) (p : Progress) : Option Nat :=
  if s.tracksLines then some p.line else none

/-- The token from an offset up to the cursor. Its text becomes the one matched last. -/
def makeToken (s : Scanner) (kind : TokenKind) (value : Option Text) (start : Nat) :
    ScanM Token := do
  let p ← progress
  update (Progress.withLastText (s.source.slice start p.pos))
  return ⟨kind, value, start, p.pos, s.lineOf p⟩

/-- The token for the end of the input. -/
def makeEnd (s : Scanner) (kind : TokenKind) : ScanM Token := do
  let p ← progress
  update (Progress.withLastText [])
  return ⟨kind, none, p.pos, p.pos, s.lineOf p⟩

/-- The value of a token, stored in the scan's memory if it has to be. -/
def storeValue (s : Scanner) : Payload → ScanM (Option Text)
  | .absent => return none
  | .fixed text => return some text
  | .copied text => do
    let copy ← onMemory (Memory.clone s.allocator text)
    return some copy

/-- The token of a lexeme that stands at the cursor. The cursor moves before the value is stored. -/
def emit (s : Scanner) (l : Lexeme) : ScanM Token := do
  let start := (← progress).pos
  update (Progress.advance l.width)
  let value ← s.storeValue l.payload
  s.makeToken l.kind value start

/-! ## Teardown -/

/-- Gives back the buffer and then the context, and closes the scan. -/
def release (s : Scanner) : ScanM Unit := do
  if (← progress).closed then return
  s.leaveQuoted
  update fun p => { p with closed := true }
  onMemory (Memory.releaseContext s.allocator s.id)

/-- Releases the context and reports how far the scan has got. -/
def close (s : Scanner) : ScanM Unit := do
  if (← progress).closed then return
  s.release
  let p ← progress
  report (.scanFinished s.name p.pos s.source.length)

/-- Closes the scan and returns the error it kept, if any. -/
def finish (s : Scanner) : ScanM (Option Diagnostic) := do
  s.close
  return (← progress).error

end MiniLex.Scanner
