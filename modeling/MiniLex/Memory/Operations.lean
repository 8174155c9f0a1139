import MiniLex.Memory.Basic

/-!
# Operations on memory

* `Memory.acquireContext`, `releaseContext`, `allocate`, `grow`, `clone` and `release` are the six
  operations that every allocator has;
* `Memory.append` adds text to a buffer, which grows through its owner;
* `Memory.releaseLive` gives up every live buffer of an arena.

An operation that fails leaves the memory as it was, apart from the entry that a recorder makes of
the refused call.
-/

namespace MiniLex.Memory

/-- Fails if an arena is closed. -/
def requireOpen (x : Arena) : MemoryM Unit := do
  if x.closed then throw (.closedArena x.name)

/-- Replaces an arena. -/
def putArena (a : AllocatorId) (x : Arena) : MemoryM Unit :=
  modify fun m => m.setAllocator a (.arena x)

/-- Has a recorder remember a call, and fails if its policy refuses the call. -/
def note (a : AllocatorId) (r : Recorder) (call : Call) : MemoryM Unit := do
  modify fun m => m.setAllocator a (.recorder (r.note call))
  if r.refuses r.calls call then throw (.refused call.method)

/-- Puts a scan's context in an allocator's care. -/
def acquireContext (a : AllocatorId) (scan : ScanId) : MemoryM Unit := do
  match (← get).allocator a with
  | .heap => pure ()
  | .arena x =>
    requireOpen x
    putArena a (x.addContext scan)
  | .recorder r => note a r (.acquireContext scan)

/-- Takes a scan's context out of an allocator's care. A closed arena lets it go as well. -/
def releaseContext (a : AllocatorId) (scan : ScanId) : MemoryM Unit := do
  match (← get).allocator a with
  | .heap => pure ()
  | .arena x => putArena a (x.dropContext scan)
  | .recorder r => note a r (.releaseContext scan)

/-- Hands out a new, empty buffer. -/
def allocate (a : AllocatorId) (capacity : Int) : MemoryM BufferId := do
  let m ← get
  match m.allocator a with
  | .heap => addBuffer a capacity
  | .arena x =>
    requireOpen x
    putArena a (x.addBuffer m.buffers.length capacity)
    addBuffer a capacity
  | .recorder r =>
    note a r (.allocate capacity m.buffers.length)
    addBuffer a capacity

/-- The capacity that a buffer has to grow to. The buffer itself does not change, but an arena
counts the change as made, and serves only its live buffers. -/
def grow (a : AllocatorId) (b : BufferId) (needed : Int) : MemoryM Int := do
  let m ← get
  let current := (m.buffer b).capacity
  let capacity := grownCapacity current needed
  match m.allocator a with
  | .heap => pure capacity
  | .arena x =>
    requireOpen x
    if b ∉ x.live then throw .foreignBuffer
    putArena a (x.reserve (capacity - current))
    pure capacity
  | .recorder r =>
    note a r (.grow b needed)
    pure capacity

/-- Copies a text. -/
def clone (a : AllocatorId) (text : Text) : MemoryM Text := do
  match (← get).allocator a with
  | .heap => pure text
  | .arena x =>
    requireOpen x
    putArena a (x.countClone text)
    pure text
  | .recorder r =>
    note a r (.clone text)
    pure text

/-- Gives a buffer back. A closed arena takes it as well. -/
def release (a : AllocatorId) (b : BufferId) : MemoryM Unit := do
  match (← get).allocator a with
  | .heap => modifyBuffer b Buffer.markReleased
  | .arena x =>
    putArena a (x.dropBuffer b)
    modifyBuffer b Buffer.markReleased
  | .recorder r =>
    note a r (.release b)
    modifyBuffer b Buffer.markReleased

/-- Gives up every live buffer of an arena, and returns how many there were. -/
def releaseLive (a : AllocatorId) (x : Arena) : MemoryM Nat := do
  putArena a { x with live := [] }
  x.live.forM fun b => modifyBuffer b Buffer.markReleased
  return x.live.length

/-- Appends a text to a buffer, which grows through its owner if its capacity does not do. The empty
text changes nothing, but a buffer that has been given back refuses it too. -/
def append (b : BufferId) (text : Text) : MemoryM Unit := do
  let buffer := (← get).buffer b
  if buffer.released then throw .releasedBuffer
  if text = [] then return
  let needed : Int := (buffer.length + text.length : Nat)
  if buffer.capacity < needed then
    let capacity ← grow buffer.owner b needed
    modifyBuffer b fun x => { x with capacity := capacity }
  modifyBuffer b fun x => x.extend text

end MiniLex.Memory
