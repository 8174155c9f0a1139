import MiniLex.Ledger
import MiniLex.Memory.Call
import MiniLex.Setting

/-!
# Ambient configuration

Scans take what they are not told from their surroundings: a configuration, and the ledger to write
to, if any. Both can be replaced for the extent of a block; leaving the block brings back what was
active when it was entered. Configurations and ledgers are entered and left independently.
-/

namespace MiniLex

/-- What scans take from their surroundings. Allocators are named by values of type `α`. -/
structure Config (α : Type) where
  /-- The allocator of scans that are given none; if absent, the shared heap. -/
  allocator : Option α
  /-- The name of the input for scans that are given none. -/
  sourceName : Setting
  /-- Scans log every token they give if this is on. -/
  tracing : Setting
  deriving DecidableEq

namespace Config

variable {α β : Type}

/-- The configuration that is active where none was set. -/
def standard : Config α := ⟨none, .nothing, .flag false⟩

/-- The configuration with one more setting. Unknown keys are ignored. -/
def withSetting (c : Config String) : String × Setting → Config String
  | ("allocator", .nothing) => { c with allocator := none }
  | ("allocator", x) => { c with allocator := some x.render }
  | ("source_name", x) => { c with sourceName := x }
  | ("trace_tokens", x) => { c with tracing := x }
  | _ => c

/-- The configuration that settings describe, starting from the standard one. -/
def ofSettings (settings : Settings) : Config String :=
  settings.toList.foldl withSetting standard

/-- Whether a configuration is as good as the standard one. Any tracing that counts as 0 will do. -/
def isStandard (c : Config α) : Bool :=
  c.allocator.isNone && c.sourceName = .nothing && c.tracing.number? = some 0

/-- The same configuration with its allocator, if any, named by other values. -/
def withAllocator (c : Config α) (allocator : Option β) : Config β :=
  ⟨allocator, c.sourceName, c.tracing⟩

@[simp] theorem isStandard_standard : (standard : Config α).isStandard = true := rfl

@[simp] theorem ofSettings_nil : ofSettings .nil = standard := rfl

end Config

/-- The active configuration and ledger, and those that the blocks entered and not yet left will
bring back, the innermost first. -/
structure Ambient where
  config : Config AllocatorId
  ledger : Option LedgerId
  outerConfigs : List (Config AllocatorId)
  outerLedgers : List (Option LedgerId)

namespace Ambient

/-- The surroundings in which nothing was set. -/
def initial : Ambient := ⟨.standard, none, [], []⟩

/-- Replaces the active configuration without entering a block. -/
def setConfig (c : Config AllocatorId) (e : Ambient) : Ambient := { e with config := c }

/-- Enters a block in which a configuration is active. -/
def enterConfig (c : Config AllocatorId) (e : Ambient) : Ambient :=
  { e with config := c, outerConfigs := e.config :: e.outerConfigs }

/-- Leaves the innermost configuration block, if there is one. -/
def leaveConfig (e : Ambient) : Ambient :=
  match e.outerConfigs with
  | [] => e
  | c :: cs => { e with config := c, outerConfigs := cs }

/-- Enters a block in which a ledger is active. -/
def enterLedger (l : LedgerId) (e : Ambient) : Ambient :=
  { e with ledger := some l, outerLedgers := e.ledger :: e.outerLedgers }

/-- Leaves the innermost ledger block, if there is one. -/
def leaveLedger (e : Ambient) : Ambient :=
  match e.outerLedgers with
  | [] => e
  | l :: ls => { e with ledger := l, outerLedgers := ls }

@[simp] theorem leaveConfig_enterConfig (c : Config AllocatorId) (e : Ambient) :
    (e.enterConfig c).leaveConfig = e := rfl

@[simp] theorem leaveLedger_enterLedger (l : LedgerId) (e : Ambient) :
    (e.enterLedger l).leaveLedger = e := rfl

end Ambient

end MiniLex
