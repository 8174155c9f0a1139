import MiniLex.Session.Action
import MiniLex.Session.Report
import MiniLex.Store.Basic

/-!
# The state of a session

A session holds a store, the surroundings in which new scans start, and the names of what it has
made. `SessionM` is the type of actions on it; this module has the actions that the others are made
of: looking names up, binding them, and acting on the store.
-/

namespace MiniLex

/-- The state of a session. -/
structure Session where
  store : Store
  ambient : Ambient
  names : Names
  /-- For each recorder that was shown, how many of its calls have been shown. -/
  shown : List (AllocatorId × Nat)

/-- A session in which nothing has been done. -/
def Session.initial : Session := ⟨.initial, .initial, .empty, []⟩

/-- Actions on a session. A failing action keeps what it changed before it failed. -/
abbrev SessionM := EStateM StepFailure Session

namespace Session

/-- The identifier that a name stands for. -/
def resolve (space : Space) (name : String) : SessionM Nat := do
  match (← get).names.find? (space, name) with
  | some id => return id
  | none => throw (.unbound (space, name))

/-- The identifier that a name stands for, if one is given. -/
def resolve? (space : Space) : Option String → SessionM (Option Nat)
  | some name => do
    let id ← resolve space name
    return some id
  | none => return none

/-- Binds a name. -/
def bindName (space : Space) (name : String) (id : Nat) : SessionM Unit :=
  modify fun s => { s with names := s.names.bind (space, name) id }

/-- Runs an action on the store. -/
def onStore {α : Type} (act : StoreM α) : SessionM α := fun s =>
  match act s.store with
  | .ok a store => .ok a { s with store := store }
  | .error failure store => .error (.failed failure) { s with store := store }

/-- Goes on with a result, or fails with its failure. -/
def check {α : Type} : Except Failure α → SessionM α
  | .ok a => return a
  | .error failure => throw (.failed failure)

/-- Runs an action on the memory. -/
def onMemory {α : Type} (act : MemoryM α) : SessionM α := onStore (Store.onMemory act)

/-- Has a named scan act. -/
def onScan {α : Type} (name : String) (act : Scanner → ScanM α) : SessionM α := do
  let i ← resolve .scan name
  onStore (Store.onScan i act)

/-- Changes the surroundings. -/
def updateAmbient (f : Ambient → Ambient) : SessionM Unit :=
  modify fun s => { s with ambient := f s.ambient }

/-- Adds an allocator and binds its name. -/
def addAllocator (name : String) (x : Allocator) : SessionM Reply := do
  let a ← onMemory (Memory.addAllocator x)
  bindName .allocator name a
  return .nothing

/-- The request that a named request stands for. -/
def request (r : NamedRequest) : SessionM Store.Request := do
  let allocator ← resolve? .allocator r.allocator
  return ⟨r.source, allocator, r.sourceName⟩

/-- The configuration that settings describe, its allocator looked up. -/
def config (settings : Settings) : SessionM (Config AllocatorId) := do
  let c := Config.ofSettings settings
  let allocator ← resolve? .allocator c.allocator
  return c.withAllocator allocator

end Session

end MiniLex
