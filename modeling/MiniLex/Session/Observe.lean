import MiniLex.Session.Basic

/-!
# Observing a session

How the things that an action mentions stand after it: the scan that it is about, the allocator that
it names or that serves this scan, and the buffer that it names. Showing a recorder tells the calls
that it has had since it was last shown.
-/

namespace MiniLex.Session

/-- The identifier that a name mentioned by an action stands for now. -/
def mentioned? (s : Session) (x : Action) (space : Space) : Option Nat :=
  (x.nameIn? space).bind s.names.find?

/-- The scan that an action is about: the one it names, or else that of the stream it names. -/
def scanOf? (s : Session) (x : Action) : Option ScanId :=
  s.mentioned? x .scan <|> (s.mentioned? x .stream).map fun t => (s.store.stream t).scan

/-- The allocator that an action is about: the one it names, or else that of the scan it is about,
if that allocator has a name. -/
def allocatorOf? (s : Session) (x : Action) : Option AllocatorId :=
  s.mentioned? x .allocator <|>
    ((s.scanOf? x).map fun i => (s.store.scan i).scanner.allocator).filter fun a =>
      (s.names.nameOf? .allocator a).isSome

/-- How a scan stands. -/
def viewScan (s : Session) (i : ScanId) : ScanView :=
  let scan := s.store.scan i
  ⟨scan, scan.progress.accumulator.map s.store.host.memory.buffer⟩

/-- How an allocator stands. -/
def viewAllocator (s : Session) (a : AllocatorId) : AllocatorView :=
  match s.store.host.memory.allocator a with
  | .heap => .heap
  | .arena x => .arena x
  | .recorder r => .recorder (r.history.drop ((s.shown.lookup a).getD 0))

/-- The session once an allocator has been shown. -/
def markShown (s : Session) (a : AllocatorId) : Session :=
  match s.store.host.memory.allocator a with
  | .recorder r =>
    { s with shown := (a, r.calls.length) :: s.shown.filter fun e => e.1 ≠ a }
  | _ => s

/-- The session with an empty log. -/
def clearLog (s : Session) : Session :=
  { s with store := { s.store with host := { s.store.host with log := [] } } }

/-- The report on an action that has left this session, and the session after the report. -/
def reportOn (x : Action) (outcome : Except StepFailure Reply) (s : Session) :
    Report Reply × Session :=
  let allocator := s.allocatorOf? x
  let report : Report Reply :=
    { outcome := outcome
      scan := (s.scanOf? x).map s.viewScan
      allocator := allocator.map s.viewAllocator
      buffer := (s.mentioned? x .buffer).map s.store.host.memory.buffer
      log := s.store.host.log.reverse }
  (report, (allocator.elim s s.markShown).clearLog)

end MiniLex.Session
