import MiniLex.Memory.Call
import MiniLex.Text.Literal

/-!
# Faults of allocation

The reasons for which an allocator or a buffer turns a request down.
-/

namespace MiniLex

/-- Why a request for memory fails. -/
inductive AllocationFault where
  /-- Text was appended to a buffer that has been given back. -/
  | releasedBuffer
  /-- The arena of this name is closed. -/
  | closedArena (name : String)
  /-- An arena was asked to grow a buffer that is not among its live ones. -/
  | foreignBuffer
  /-- The allocator refused a call of this operation. -/
  | refused (method : Method)
  deriving DecidableEq

/-- The wording of a fault. -/
def AllocationFault.message : AllocationFault → String
  | releasedBuffer => "append to released buffer"
  | closedArena name => "arena " ++ Literal.renderString name ++ " is closed"
  | foreignBuffer => "grow of buffer not owned by this arena"
  | refused method => "injected failure in " ++ method.label

end MiniLex
