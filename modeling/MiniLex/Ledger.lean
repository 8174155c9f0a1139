/-!
# Ledgers

A ledger counts what the scans that were started under it do: how many there are, how long their
sources are, how many tokens they give and how many errors they raise or record. The end of the
input is not counted as a token.
-/

namespace MiniLex

/-- Identifies a ledger. Identifiers count the ledgers of a program from 0. -/
abbrev LedgerId := Nat

/-- Something that a ledger counts. -/
inductive LedgerEntry where
  /-- A scan over a source of this length. -/
  | scan (length : Int)
  | token
  | error
  deriving DecidableEq

/-- The counts of a ledger. -/
structure Ledger where
  scans : Int
  tokens : Int
  errors : Int
  sourceLength : Int
  deriving DecidableEq

namespace Ledger

/-- A ledger with nothing on it. -/
def blank : Ledger := ⟨0, 0, 0, 0⟩

/-- An identifier that no ledger has reads as a blank one. -/
instance : Inhabited Ledger := ⟨blank⟩

/-- Counts a scan over a source of this length. -/
def countScan (length : Int) (l : Ledger) : Ledger :=
  { l with scans := l.scans + 1, sourceLength := l.sourceLength + length }

/-- Counts a token. -/
def countToken (l : Ledger) : Ledger := { l with tokens := l.tokens + 1 }

/-- Counts an error. -/
def countError (l : Ledger) : Ledger := { l with errors := l.errors + 1 }

/-- Counts an entry. -/
def count : LedgerEntry → Ledger → Ledger
  | .scan length => countScan length
  | .token => countToken
  | .error => countError

end Ledger

end MiniLex
