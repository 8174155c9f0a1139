import MiniLex.Text.Basic

/-!
# Calls to an allocator

Everything a scan stores it obtains from an allocator, by six operations. A `Call` is one use of one
of them together with what it is about, so that a list of calls tells how contexts and buffers were
handed out and given back.
-/

namespace MiniLex

/-- Identifies a scan. Identifiers count the scans of a program from 0. -/
abbrev ScanId := Nat

/-- Identifies a text buffer. Identifiers count the buffers of a program from 0. -/
abbrev BufferId := Nat

/-- Identifies an allocator. The shared heap, which serves scans that name no other, is number 0. -/
abbrev AllocatorId := Nat

/-- The operations of an allocator. -/
inductive Method where
  | acquireContext
  | releaseContext
  | allocate
  | grow
  | clone
  | release
  deriving DecidableEq

/-- The name by which an operation is known. -/
def Method.label : Method → String
  | acquireContext => "acquire_context"
  | releaseContext => "release_context"
  | allocate => "allocate"
  | grow => "grow"
  | clone => "clone"
  | release => "release"

/-- One use of an operation. -/
inductive Call where
  /-- A scan's context is put in the allocator's care. -/
  | acquireContext (scan : ScanId)
  /-- A scan's context is taken out of the allocator's care. -/
  | releaseContext (scan : ScanId)
  /-- A new buffer of this capacity is asked for; the call gives it this identifier. -/
  | allocate (capacity : Int) (buffer : BufferId)
  /-- A buffer is to hold this many characters. -/
  | grow (buffer : BufferId) (needed : Int)
  /-- A copy of a text is asked for. -/
  | clone (text : Text)
  /-- A buffer is given back. -/
  | release (buffer : BufferId)
  deriving DecidableEq

/-- The operation that a call uses. -/
def Call.method : Call → Method
  | acquireContext _ => .acquireContext
  | releaseContext _ => .releaseContext
  | allocate _ _ => .allocate
  | grow _ _ => .grow
  | clone _ => .clone
  | release _ => .release

end MiniLex
