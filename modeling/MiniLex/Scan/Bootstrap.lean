import MiniLex.Bootstrap.Rules
import MiniLex.Scan.Context

/-!
# Scanning the bootstrap language

One token at a time: the gap is skipped, the lexeme behind it is made a token, and the line ends
inside it are counted once the token has its line. A character that no rule accepts ends the scan;
the cursor stays on it.
-/

namespace MiniLex.Scanner

open ScanM

/-- Refuses the character at the cursor. -/
def refuse (s : Scanner) (c : Char) : ScanM Token := do
  let p ← progress
  updateHost (Host.account s.ledger Ledger.countError)
  report (.characterRefused c p.line p.pos)
  throw (.illegalCharacter p.line c s.sourceName)

/-- Moves the cursor over the gap before the next token. -/
def skipGap (s : Scanner) : ScanM Unit :=
  update fun p =>
    let skipped := Bootstrap.gap (.at s.source p.pos) (s.source.drop p.pos)
    (p.countLines skipped).advance skipped.length

/-- Reads one bootstrap token. -/
def readBootstrap (s : Scanner) : ScanM Token := do
  s.skipGap
  let start := (← progress).pos
  match Bootstrap.Reading.read (s.source.drop start) with
  | .atEnd => s.makeEnd (.bootstrap .endOfInput)
  | .illegal c => s.refuse c
  | .lexeme l =>
    let token ← s.emit l
    update (Progress.countLines (s.source.slice start token.stop))
    return token

end MiniLex.Scanner
