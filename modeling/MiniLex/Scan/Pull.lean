import MiniLex.Scan.Bootstrap
import MiniLex.Scan.Standby

/-!
# Pulling tokens

The one way to get tokens out of a scanner of any language is to pull them, one after the other.
`Scanner.pull` gives the next token, `Scanner.collect` all tokens up to the end of the input.
-/

namespace MiniLex.Scanner

open ScanM

/-- Reads one token by the rules of the scanner's language. -/
def readToken (s : Scanner) : ScanM Token :=
  match s.rules with
  | some .bootstrap => s.readBootstrap
  | some .standby => s.readStandby
  | none => throw .noRules

/-- The next token. At the end of the input it is the end token, again and again. -/
def pull (s : Scanner) : ScanM Token := do
  if (← progress).closed then throw (.scannerClosed s.name)
  let token ← s.readToken
  if !token.kind.isEnd then updateHost (Host.account s.ledger Ledger.countToken)
  if s.tracing then report (.tokenRead s.name token)
  return token

/-- The next tokens up to the end token, but at most this many. -/
def collectUpTo (s : Scanner) : Nat → ScanM (List Token)
  | 0 => return []
  | n + 1 => do
    let token ← s.pull
    if token.kind.isEnd then return [token]
    return token :: (← s.collectUpTo n)

/-- The next tokens up to the end token. Every other token takes at least one character, so there
are no more of them than the source has characters. -/
def collect (s : Scanner) : ScanM (List Token) := s.collectUpTo (s.source.length + 1)

end MiniLex.Scanner
