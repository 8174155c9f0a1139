import MiniLex.Memory.Operations
import MiniLex.Proofs.Run

/-!
# Allocators that never fail

What a scan may expect of an allocator that grants all it is asked for
(`Allocator.NeverFails`): the heap, an open arena, or a recorder that refuses
nothing. Each operation succeeds, and leaves an allocator that never fails:

* `Serves.clone`, `Serves.acquireContext`, `Serves.releaseContext`,
  `Serves.release`: the operations whose result is known at once;
* `Serves.allocate`, `Collects.grow`, `Collects.append`: the life of a buffer,
  where `Memory.Collects` says that the buffer can take more text.
-/

namespace MiniLex

/-- An allocator that grants every call: the heap, an open arena, and a recorder whose policy
refuses nothing. -/
def Allocator.NeverFails : Allocator → Prop
  | .heap => True
  | .arena x => x.closed = false
  | .recorder r => ∀ before call, r.refuses before call = false

namespace Memory

/-- The allocator with this identifier never fails. -/
def Serves (m : Memory) (a : AllocatorId) : Prop := (m.allocator a).NeverFails

variable {m : Memory} {a : AllocatorId} {b : BufferId} {x y : Arena} {r : Recorder}

theorem lt_of_allocator_ne (h : m.allocator a ≠ .heap) : a < m.allocators.length := by
  refine Nat.lt_of_not_le fun hle => h ?_
  simp [allocator, List.getD_eq_getElem?_getD, List.getElem?_eq_none hle]

theorem Serves.isOpen (hs : m.Serves a) (ha : m.allocator a = .arena x) : x.closed = false := by
  rw [Serves, ha] at hs
  exact hs

theorem Serves.grants (hs : m.Serves a) (ha : m.allocator a = .recorder r) :
    ∀ before call, r.refuses before call = false := by
  rw [Serves, ha] at hs
  exact hs

/-- An allocator that is known to the memory can be replaced. -/
theorem allocator_replaced (h : m.allocator a ≠ .heap) (z : Allocator) :
    (m.setAllocator a z).allocator a = z :=
  allocator_setAllocator_self z (lt_of_allocator_ne h)

/-- An arena can be replaced by an open one. -/
theorem serves_putArena (ha : m.allocator a = .arena x) (hy : y.closed = false) :
    (m.setAllocator a (.arena y)).Serves a := by
  rw [Serves, allocator_replaced (by simp [ha])]
  exact hy

theorem Serves.note (hs : m.Serves a) (ha : m.allocator a = .recorder r) (call : Call) :
    (m.setAllocator a (.recorder (r.note call))).Serves a := by
  have hr := hs.grants ha
  rw [Serves, allocator_replaced (by simp [ha])]
  exact hr

theorem requireOpen_run (h : x.closed = false) : requireOpen x m = .ok () m := by
  simp only [requireOpen, h]
  rfl

theorem Serves.note_run (hs : m.Serves a) (ha : m.allocator a = .recorder r) (call : Call) :
    Memory.note a r call m = .ok () (m.setAllocator a (.recorder (r.note call))) := by
  simp only [Memory.note, run_bind_modify, hs.grants ha]
  rfl

/-! ## Operations that concern no text of a buffer -/

theorem Serves.acquireContext (hs : m.Serves a) (scan : ScanId) :
    ∃ m', Memory.acquireContext a scan m = .ok () m' ∧ m'.Serves a := by
  simp only [Memory.acquireContext, run_bind_get]
  cases ha : m.allocator a with
  | heap => exact ⟨m, rfl, hs⟩
  | arena x =>
    have hx := hs.isOpen ha
    have hadd : (x.addContext scan).closed = false := by
      unfold Arena.addContext
      split <;> exact hx
    exact ⟨_, run_bind_ok (requireOpen_run hx), serves_putArena ha hadd⟩
  | recorder r => exact ⟨_, hs.note_run ha _, hs.note ha _⟩

theorem Serves.releaseContext (hs : m.Serves a) (scan : ScanId) :
    ∃ m', Memory.releaseContext a scan m = .ok () m' ∧ m'.Serves a := by
  simp only [Memory.releaseContext, run_bind_get]
  cases ha : m.allocator a with
  | heap => exact ⟨m, rfl, hs⟩
  | arena x =>
    have hx := hs.isOpen ha
    exact ⟨_, rfl, serves_putArena ha hx⟩
  | recorder r => exact ⟨_, hs.note_run ha _, hs.note ha _⟩

theorem Serves.clone (hs : m.Serves a) (text : Text) :
    ∃ m', Memory.clone a text m = .ok text m' ∧ m'.Serves a := by
  simp only [Memory.clone, run_bind_get]
  cases ha : m.allocator a with
  | heap => exact ⟨m, rfl, hs⟩
  | arena x =>
    have hx := hs.isOpen ha
    exact ⟨_, run_bind_ok (requireOpen_run hx), serves_putArena ha hx⟩
  | recorder r => exact ⟨_, run_bind_ok (hs.note_run ha _), hs.note ha _⟩

theorem Serves.release (hs : m.Serves a) (b : BufferId) :
    ∃ m', Memory.release a b m = .ok () m' ∧ m'.Serves a := by
  simp only [Memory.release, run_bind_get]
  cases ha : m.allocator a with
  | heap => exact ⟨_, rfl, hs⟩
  | arena x =>
    have hx := hs.isOpen ha
    exact ⟨_, rfl, serves_putArena ha hx⟩
  | recorder r => exact ⟨_, run_bind_ok (hs.note_run ha _), hs.note ha _⟩

/-! ## Collecting text in a buffer -/

/-- A buffer of an allocator that never fails takes more text. -/
structure Collects (m : Memory) (a : AllocatorId) (b : BufferId) : Prop where
  serves : m.Serves a
  valid : b < m.buffers.length
  owner : (m.buffer b).owner = a
  unreleased : (m.buffer b).released = false
  /-- An arena grows none but its live buffers. -/
  live : ∀ x, m.allocator a = .arena x → b ∈ x.live

theorem addBuffer_run (hs : m.Serves a)
    (hl : ∀ x, m.allocator a = .arena x → m.buffers.length ∈ x.live) (capacity : Int) :
    ∃ m', addBuffer a capacity m = .ok m.buffers.length m' ∧ m'.Collects a m.buffers.length := by
  have hbuffer : ({ m with buffers := m.buffers ++ [Buffer.fresh a capacity] } : Memory).buffer
      m.buffers.length = Buffer.fresh a capacity := by
    simp [Memory.buffer]
  exact ⟨_, rfl, hs, by simp, congrArg Buffer.owner hbuffer, congrArg Buffer.released hbuffer, hl⟩

theorem Serves.allocate (hs : m.Serves a) (capacity : Int) :
    ∃ b m', Memory.allocate a capacity m = .ok b m' ∧ m'.Collects a b := by
  simp only [Memory.allocate, run_bind_get]
  cases ha : m.allocator a with
  | heap =>
    obtain ⟨m', hr, hc⟩ := addBuffer_run hs (by simp [ha]) capacity
    exact ⟨_, m', hr, hc⟩
  | arena x =>
    have hx := hs.isOpen ha
    let x' := x.addBuffer m.buffers.length capacity
    have hs' : (m.setAllocator a (.arena x')).Serves a := serves_putArena ha hx
    have hl : ∀ y, (m.setAllocator a (.arena x')).allocator a = .arena y →
        m.buffers.length ∈ y.live := by
      intro y hy
      rw [allocator_replaced (by simp [ha]), Allocator.arena.injEq] at hy
      simp [← hy, x', Arena.addBuffer]
    obtain ⟨m', hr, hc⟩ := addBuffer_run hs' hl capacity
    exact ⟨_, m', (run_bind_ok (requireOpen_run hx)).trans hr, hc⟩
  | recorder r =>
    have hrun := hs.note_run ha (.allocate capacity m.buffers.length)
    have hs' := hs.note ha (.allocate capacity m.buffers.length)
    obtain ⟨m', hr, hc⟩ := addBuffer_run hs' (by simp [allocator_replaced, ha]) capacity
    exact ⟨_, m', (run_bind_ok hrun).trans hr, hc⟩

/-- A buffer collects on while its allocator is replaced by one that never fails either, if an arena
keeps it live. -/
theorem Collects.congr {m' : Memory} (h : m.Collects a b) (hb : m'.buffers = m.buffers)
    (hs : m'.Serves a) (hl : ∀ y, m'.allocator a = .arena y → b ∈ y.live) : m'.Collects a b := by
  have hbuffer : m'.buffer b = m.buffer b := by rw [buffer, hb]; rfl
  exact ⟨hs, hb ▸ h.valid, hbuffer ▸ h.owner, hbuffer ▸ h.unreleased, hl⟩

theorem Collects.grow (h : m.Collects a b) (needed : Int) :
    ∃ capacity m', Memory.grow a b needed m = .ok capacity m' ∧ m'.Collects a b := by
  have hs := h.serves
  simp only [Memory.grow, run_bind_get]
  cases ha : m.allocator a with
  | heap => exact ⟨_, m, rfl, h⟩
  | arena x =>
    have hx := hs.isOpen ha
    have hb := h.live x ha
    let capacity := grownCapacity (m.buffer b).capacity needed
    let x' := x.reserve (capacity - (m.buffer b).capacity)
    have hl : ∀ y, (m.setAllocator a (.arena x')).allocator a = .arena y → b ∈ y.live := by
      intro y hy
      rw [allocator_replaced (by simp [ha]), Allocator.arena.injEq] at hy
      rw [← hy]
      exact hb
    have hs' : (m.setAllocator a (.arena x')).Serves a := serves_putArena ha hx
    refine ⟨capacity, m.setAllocator a (.arena x'), (run_bind_ok (requireOpen_run hx)).trans ?_,
      h.congr rfl hs' hl⟩
    simp only [hb, not_true_eq_false, ↓reduceIte]
    rfl
  | recorder r =>
    have hrun := hs.note_run ha (.grow b needed)
    have hs' := hs.note ha (.grow b needed)
    exact ⟨_, _, run_bind_ok hrun, h.congr rfl hs' (by simp [allocator_replaced, ha])⟩

/-- A buffer that changes but is neither given back nor given away collects on. -/
theorem Collects.update {f : Buffer → Buffer} (h : m.Collects a b)
    (ho : ∀ x, (f x).owner = x.owner) (hr : ∀ x, (f x).released = x.released) :
    (m.updateBuffer b f).Collects a b := by
  refine ⟨h.serves, by simpa [updateBuffer] using h.valid, ?_, ?_, h.live⟩
  · rw [buffer_updateBuffer_self f h.valid, ho, h.owner]
  · rw [buffer_updateBuffer_self f h.valid, hr, h.unreleased]

theorem Collects.append (h : m.Collects a b) (u : Text) :
    ∃ m', Memory.append b u m = .ok () m' ∧ m'.Collects a b := by
  unfold Memory.append
  rw [run_bind_get]
  simp only [h.unreleased, h.owner, Bool.false_eq_true, ↓reduceIte]
  by_cases hu : u = []
  · rw [if_pos hu]
    exact ⟨m, rfl, h⟩
  rw [if_neg hu]
  by_cases hc : (m.buffer b).capacity < ((m.buffer b).length + u.length : Nat)
  · rw [if_pos hc]
    obtain ⟨capacity, m', hg, h'⟩ := h.grow ((m.buffer b).length + u.length : Nat)
    let grown := m'.updateBuffer b fun x => { x with capacity := capacity }
    have hgrown : grown.Collects a b := h'.update (fun _ => rfl) fun _ => rfl
    refine ⟨grown.updateBuffer b fun x => x.extend u, ?_, ?_⟩
    · rw [run_bind_ok hg]
      rfl
    · exact hgrown.update (fun _ => rfl) fun _ => rfl
  · rw [if_neg hc]
    exact ⟨_, rfl, h.update (fun _ => rfl) fun _ => rfl⟩

end Memory

end MiniLex
