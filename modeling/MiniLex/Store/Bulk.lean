import MiniLex.Store.Basic

/-!
# Releasing an arena

An arena gives up everything in its care at once: first the contexts, each of which hands its own
buffer back and closes its scan, then the buffers that are left. A closed arena has given up
everything and takes on nothing new. Other allocators have nothing in their care.
-/

namespace MiniLex.Store

/-- Releases the contexts of scans, one after the other, up to the first that fails to. -/
def releaseContexts : List ScanId → StoreM Unit
  | [] => return
  | i :: is => do
    onScan i Scanner.release
    releaseContexts is

/-- Gives up everything in an arena's care. Returns the number of its contexts and of the buffers
that were left once these were released. -/
def releaseAll (a : AllocatorId) : StoreM Nat := do
  match (← get).host.memory.allocator a with
  | .arena x =>
    onMemory (Memory.putArena a { x with contexts := [] })
    releaseContexts x.contexts
    let buffers ← releaseBuffers
    let contexts := x.contexts.length
    if 0 < contexts + buffers then
      updateHost (Host.report (.arenaReleased x.name contexts buffers))
    return contexts + buffers
  | _ => return 0
where
  /-- Gives up the buffers that the arena holds now. -/
  releaseBuffers : StoreM Nat := do
    match (← get).host.memory.allocator a with
    | .arena x => onMemory (Memory.releaseLive a x)
    | _ => return 0

/-- Marks an arena closed. -/
def markClosed (a : AllocatorId) : StoreM Unit := do
  match (← get).host.memory.allocator a with
  | .arena x => onMemory (Memory.putArena a { x with closed := true })
  | _ => return

/-- Gives up everything in an arena's care and closes it. -/
def closeArena (a : AllocatorId) : StoreM Unit := do
  let _ ← releaseAll a
  markClosed a

/-- Enters the scope of an arena, which has to be open. -/
def enterArena (a : AllocatorId) : StoreM Unit := do
  match (← get).host.memory.allocator a with
  | .arena x => onMemory (Memory.requireOpen x)
  | _ => return

end MiniLex.Store
