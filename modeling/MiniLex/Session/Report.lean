import MiniLex.Ambient
import MiniLex.Failure
import MiniLex.Log
import MiniLex.Memory.Allocator
import MiniLex.Scan.Progress
import MiniLex.Session.Names

/-!
# Reports of a session

A step of a session is answered with a report: its reply or the reason of its failure, and how the
things that it mentions stand after it.
-/

namespace MiniLex

/-- Why a step of a session fails. -/
inductive StepFailure where
  /-- What the step does has failed. -/
  | failed (failure : Failure)
  /-- The step refers to a name that is not bound. -/
  | unbound (name : Name)
  deriving DecidableEq

/-- How a scan stands, with its buffer. -/
structure ScanView where
  scan : Scan
  accumulator : Option Buffer
  deriving DecidableEq

/-- How an allocator stands. -/
inductive AllocatorView where
  | heap
  | arena (x : Arena)
  /-- The calls that a recorder has had since it was last shown, the earliest first. -/
  | recorder (entries : List Entry)
  deriving DecidableEq

/-- The answer to a step. -/
structure Report (ρ : Type) where
  outcome : Except StepFailure ρ
  scan : Option ScanView
  allocator : Option AllocatorView
  buffer : Option Buffer
  /-- The events that the step reported, the earliest first. -/
  log : List Event

/-- What a step that succeeds replies. -/
inductive Reply where
  | nothing
  | flag (b : Bool)
  | number (n : Int)
  | text (s : String)
  | token (t : Token)
  | tokens (ts : List Token)
  | ledger (l : Ledger)
  | config (c : Config String)
  | reports (rs : List (Report Reply))

/-- A reply that may be missing. -/
def Reply.ofText? : Option String → Reply
  | some s => text s
  | none => nothing

end MiniLex
