import MiniLex.Memory.Allocator
import MiniLex.Memory.Fault

/-!
# Memory

All allocators and buffers of a program, each known by its identifier, and actions on them. Changing
one allocator or buffer changes no other:

* `allocator_setAllocator_self` and `allocator_setAllocator_of_ne` for allocators;
* `buffer_updateBuffer_self` and `buffer_updateBuffer_of_ne` for buffers.
-/

namespace MiniLex

/-- The allocators and the buffers of a program, each at the place of its identifier. -/
structure Memory where
  allocators : List Allocator
  buffers : List Buffer

namespace Memory

/-- The memory of a program that has done nothing yet: it has the shared heap. -/
def initial : Memory := ⟨[.heap], []⟩

/-- The shared heap. -/
def sharedHeap : AllocatorId := 0

/-- The allocator with an identifier. -/
def allocator (m : Memory) (a : AllocatorId) : Allocator := m.allocators.getD a .heap

/-- The buffer with an identifier. -/
def buffer (m : Memory) (b : BufferId) : Buffer := m.buffers.getD b default

/-- The memory with one allocator replaced. -/
def setAllocator (m : Memory) (a : AllocatorId) (x : Allocator) : Memory :=
  { m with allocators := m.allocators.set a x }

/-- The memory with one buffer changed. -/
def updateBuffer (m : Memory) (b : BufferId) (f : Buffer → Buffer) : Memory :=
  { m with buffers := m.buffers.modify b f }

theorem allocator_setAllocator_self {m : Memory} {a : AllocatorId} (x : Allocator)
    (h : a < m.allocators.length) : (m.setAllocator a x).allocator a = x := by
  simp [allocator, setAllocator, h]

theorem allocator_setAllocator_of_ne (m : Memory) {a b : AllocatorId} (x : Allocator) (h : a ≠ b) :
    (m.setAllocator a x).allocator b = m.allocator b := by
  simp [allocator, setAllocator, List.getElem?_set_ne h]

theorem buffer_updateBuffer_self {m : Memory} {b : BufferId} (f : Buffer → Buffer)
    (h : b < m.buffers.length) : (m.updateBuffer b f).buffer b = f (m.buffer b) := by
  simp [buffer, updateBuffer, h]

theorem buffer_updateBuffer_of_ne (m : Memory) {b c : BufferId} (f : Buffer → Buffer) (h : b ≠ c) :
    (m.updateBuffer b f).buffer c = m.buffer c := by
  simp [buffer, updateBuffer, h]

end Memory

/-- Actions on memory. A failing action keeps what it changed before it failed. -/
abbrev MemoryM := EStateM AllocationFault Memory

namespace Memory

/-- Adds an allocator and returns its identifier. -/
def addAllocator (x : Allocator) : MemoryM AllocatorId :=
  modifyGet fun m => (m.allocators.length, { m with allocators := m.allocators ++ [x] })

/-- Adds an empty buffer that an allocator grows, and returns its identifier. -/
def addBuffer (owner : AllocatorId) (capacity : Int) : MemoryM BufferId :=
  modifyGet fun m =>
    (m.buffers.length, { m with buffers := m.buffers ++ [Buffer.fresh owner capacity] })

/-- Changes one buffer. -/
def modifyBuffer (b : BufferId) (f : Buffer → Buffer) : MemoryM Unit :=
  modify fun m => m.updateBuffer b f

end Memory

end MiniLex
