import MiniLex.Failure
import MiniLex.Log
import MiniLex.Memory.Operations
import MiniLex.Scan.Progress

/-!
# What a scan acts on

A scan acts on its own progress and on what it shares with other scans (`Host`): memory, ledgers and
the log. `ScanM` is the type of such actions. An action that fails keeps every change that it made
before it failed, so a scan can go on after a failure from wherever that left it.
-/

namespace MiniLex

/-- What all scans of a program share. -/
structure Host where
  memory : Memory
  ledgers : List Ledger
  /-- The events reported so far, the latest first. -/
  log : List Event

namespace Host

/-- The host of a program that has done nothing yet. -/
def initial : Host := ⟨.initial, [], []⟩

/-- The ledger with an identifier. -/
def ledger (h : Host) (l : LedgerId) : Ledger := h.ledgers.getD l default

/-- The host with one ledger, if any is named, changed. -/
def account (l : Option LedgerId) (f : Ledger → Ledger) (h : Host) : Host :=
  match l with
  | some i => { h with ledgers := h.ledgers.modify i f }
  | none => h

/-- The host with one more event in the log. -/
def report (e : Event) (h : Host) : Host := { h with log := e :: h.log }

end Host

/-- What a scan acts on: its progress and its host. -/
structure Machine where
  progress : Progress
  host : Host

/-- Actions of a scan. -/
abbrev ScanM := EStateM Failure Machine

namespace ScanM

/-- The progress of the scan. -/
def progress : ScanM Progress := do return (← get).progress

/-- Changes the progress of the scan. -/
def update (f : Progress → Progress) : ScanM Unit :=
  modify fun m => { m with progress := f m.progress }

/-- Changes the host. -/
def updateHost (f : Host → Host) : ScanM Unit :=
  modify fun m => { m with host := f m.host }

/-- Reports an event. -/
def report (e : Event) : ScanM Unit := updateHost (Host.report e)

@[simp] theorem progress_run (m : Machine) : progress m = .ok m.progress m := rfl

@[simp] theorem update_run (f : Progress → Progress) (m : Machine) :
    update f m = .ok () { m with progress := f m.progress } := rfl

@[simp] theorem updateHost_run (f : Host → Host) (m : Machine) :
    updateHost f m = .ok () { m with host := f m.host } := rfl

@[simp] theorem report_run (e : Event) (m : Machine) :
    report e m = .ok () { m with host := m.host.report e } := rfl

/-- Runs an action on the memory. Its fault is a failure of the scan. -/
def onMemory {α : Type} (act : MemoryM α) : ScanM α := fun m =>
  match act m.host.memory with
  | .ok a memory => .ok a { m with host := { m.host with memory := memory } }
  | .error fault memory =>
    .error (.allocation fault) { m with host := { m.host with memory := memory } }

end ScanM

end MiniLex
