import MiniLex.Ambient
import MiniLex.Scan.Pull

/-!
# The scans of a program

A store holds all scans of a program, the streams over them and the host that they share. A scan is
known by its identifier, so that allocators and streams can refer to it, and any number of scans can
be pulled in any order.
-/

namespace MiniLex

/-- Identifies a stream. Identifiers count the streams of a program from 0. -/
abbrev StreamId := Nat

/-- A stream of the tokens of a scan. Streams over one scan share its cursor. -/
structure TokenStream where
  scan : ScanId
  /-- Whether the stream has given the end token or failed; it then gives nothing more. -/
  finished : Bool
  deriving DecidableEq

/-- An identifier that no stream has reads as a finished stream. -/
instance : Inhabited TokenStream := ⟨⟨0, true⟩⟩

/-- The scans of a program, the streams over them, and what the scans share. -/
structure Store where
  scans : List Scan
  streams : List TokenStream
  host : Host

namespace Store

/-- The store of a program that has done nothing yet. -/
def initial : Store := ⟨[], [], .initial⟩

/-- The scan with an identifier. -/
def scan (s : Store) (i : ScanId) : Scan := s.scans.getD i default

/-- The stream with an identifier. -/
def stream (s : Store) (i : StreamId) : TokenStream := s.streams.getD i default

end Store

/-- Actions on a store. A failing action keeps what it changed before it failed. -/
abbrev StoreM := EStateM Failure Store

namespace Store

/-- Changes the host. -/
def updateHost (f : Host → Host) : StoreM Unit :=
  modify fun s => { s with host := f s.host }

/-- Runs an action on the memory. Its fault is a failure. -/
def onMemory {α : Type} (act : MemoryM α) : StoreM α := fun s =>
  match act s.host.memory with
  | .ok a memory => .ok a { s with host := { s.host with memory := memory } }
  | .error fault memory =>
    .error (.allocation fault) { s with host := { s.host with memory := memory } }

/-- Adds a blank ledger and returns its identifier. -/
def addLedger : StoreM LedgerId :=
  modifyGet fun s =>
    (s.host.ledgers.length,
      { s with host := { s.host with ledgers := s.host.ledgers ++ [.blank] } })

/-- The store after a scan has acted and left this machine. -/
def putMachine (s : Store) (i : ScanId) (m : Machine) : Store :=
  { s with scans := s.scans.modify i fun x => { x with progress := m.progress }, host := m.host }

/-- Has a scan act. -/
def onScan {α : Type} (i : ScanId) (act : Scanner → ScanM α) : StoreM α := fun s =>
  let x := s.scan i
  match act x.scanner ⟨x.progress, s.host⟩ with
  | .ok a m => .ok a (s.putMachine i m)
  | .error failure m => .error failure (s.putMachine i m)

/-- What a scan is to be started on. -/
structure Request where
  source : Text
  /-- The allocator to use instead of the ambient one. -/
  allocator : Option AllocatorId
  /-- The name of the input, to be used instead of the ambient one; it can be empty. -/
  sourceName : Setting
  deriving DecidableEq

/-- The scanner that a request gives in these surroundings. What the request leaves open is taken
from the configuration that is active now; changing it later does not change the scanner. An
allocator that is given always counts as given: how it would count as a truth value plays no part,
neither here nor in the configuration. -/
def Request.scanner (r : Request) (e : Ambient) (rules : Option Language) (id : ScanId) :
    Scanner where
  id := id
  rules := rules
  source := r.source
  sourceName := r.sourceName.orElse e.config.sourceName
  allocator := (r.allocator <|> e.config.allocator).getD Memory.sharedHeap
  tracing := e.config.tracing.isOn
  ledger := e.ledger

/-- Starts a scan. If its allocator does not take the context, there is no scan and nothing is
counted or reported. -/
def start (e : Ambient) (rules : Option Language) (r : Request) : StoreM ScanId := do
  let id := (← get).scans.length
  let scanner := r.scanner e rules id
  onMemory (Memory.acquireContext scanner.allocator id)
  modify fun s => { s with scans := s.scans ++ [⟨scanner, .initial⟩] }
  updateHost (Host.account scanner.ledger (Ledger.countScan r.source.length))
  updateHost (Host.report (.scanStarted scanner.name r.source.length))
  return id

/-- All tokens of a source. The scan is closed before they are returned, and also when it fails; a
failure to close it takes the place of any other. -/
def tokenize (e : Ambient) (language : Language) (r : Request) : StoreM (List Token) := do
  let i ← start e (some language) r
  try onScan i Scanner.collect
  finally onScan i Scanner.close

end Store

end MiniLex
