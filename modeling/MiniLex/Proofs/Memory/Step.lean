import Mathlib.Logic.Relation
import MiniLex.Proofs.Memory.Books

/-!
# Steps of memory

The operations on memory are made of changes of a few kinds (`Memory.Step`): an
arena changes without reserving anything, a recorder remembers a call, a buffer
changes its text or is given back, or a buffer is handed out or resized and its
owner, if it is an arena, counts what this reserves. Each operation, whether it
fails or not, comes to such steps: `steps_clone` and the theorems beside it. So
what has to be true of all memory that a program can get to is checked once for
each kind of step.
-/

namespace MiniLex

open Relation (ReflTransGen)

namespace Memory

/-- An arena counts characters as reserved; other allocators count nothing. -/
def charge (m : Memory) (a : AllocatorId) (n : Int) : Memory :=
  match m.allocator a with
  | .arena x => m.setAllocator a (.arena (x.reserve n))
  | .heap | .recorder _ => m

/-- One more buffer. -/
def withBuffer (m : Memory) (a : AllocatorId) (capacity : Int) : Memory :=
  { m with buffers := m.buffers ++ [Buffer.fresh a capacity] }

/-- What operations on memory do, if recorders are asked for such calls only, and if only such
allocators count characters for which no buffer has grown, or own buffers they know nothing of. -/
inductive Step (asks : AllocatorId → Call → Prop) (free : AllocatorId → Prop) (m : Memory) :
    Memory → Prop
  /-- An arena is replaced by one that has reserved as much. -/
  | arena {a : AllocatorId} {x y : Arena} : m.allocator a = .arena x →
    y.charsReserved = x.charsReserved → Step asks free m (m.setAllocator a (.arena y))
  | note {a : AllocatorId} {r : Recorder} {call : Call} : m.allocator a = .recorder r →
    asks a call → Step asks free m (m.setAllocator a (.recorder (r.note call)))
  /-- A buffer keeps its owner and its capacity. -/
  | touch {f : Buffer → Buffer} (b : BufferId) :
    (∀ x, (f x).owner = x.owner ∧ (f x).capacity = x.capacity) →
    Step asks free m (m.updateBuffer b f)
  | handOut {a : AllocatorId} (capacity : Int) : a < m.allocators.length →
    Step asks free m ((m.charge a capacity).withBuffer a capacity)
  | resize {b : BufferId} (capacity : Int) : b < m.buffers.length →
    Step asks free m ((m.charge (m.buffer b).owner (capacity - (m.buffer b).capacity)).updateBuffer b
      fun x => { x with capacity := capacity })
  | charge {a : AllocatorId} (n : Int) : free a → Step asks free m (m.charge a n)
  | addBuffer {a : AllocatorId} (capacity : Int) : free a → a < m.allocators.length →
    Step asks free m (m.withBuffer a capacity)
  /-- A new allocator has reserved nothing, and has been asked for nothing. -/
  | join {z : Allocator} : (∀ x, z = .arena x → x.charsReserved = 0) →
    (∀ r, z = .recorder r → r.calls = []) →
    Step asks free m { m with allocators := m.allocators ++ [z] }

variable {asks : AllocatorId → Call → Prop} {free : AllocatorId → Prop} {m m' : Memory}
  {a a' : AllocatorId} {b : BufferId} {x y : Arena} {r : Recorder} {call : Call} {n : Int}

theorem charge_of_ne_arena (h : ∀ x, m.allocator a ≠ .arena x) : m.charge a n = m := by
  unfold charge
  split
  · rename_i x ha
    exact absurd ha (h x)
  · rfl
  · rfl

theorem charge_arena (ha : m.allocator a = .arena x) :
    m.charge a n = m.setAllocator a (.arena (x.reserve n)) := by
  unfold charge
  rw [ha]

theorem buffers_charge (m : Memory) (a : AllocatorId) (n : Int) :
    (m.charge a n).buffers = m.buffers := by
  unfold charge
  split <;> rfl

theorem length_allocators_charge (m : Memory) (a : AllocatorId) (n : Int) :
    (m.charge a n).allocators.length = m.allocators.length := by
  unfold charge
  split
  · exact List.length_set
  · rfl
  · rfl

theorem setAllocator_setAllocator (m : Memory) (a : AllocatorId) (y z : Allocator) :
    (m.setAllocator a y).setAllocator a z = m.setAllocator a z := by
  simp [setAllocator, List.set_set]

/-- A new allocator changes no other. -/
theorem allocator_join (m : Memory) (z : Allocator) (a : AllocatorId) :
    let m' : Memory := { m with allocators := m.allocators ++ [z] }
    m'.allocator a = m.allocator a ∨ (a = m.allocators.length ∧ m'.allocator a = z) := by
  intro m'
  rcases Nat.lt_trichotomy a m.allocators.length with ha | rfl | ha
  · exact .inl (by simp [m', allocator, List.getElem?_append_left ha])
  · exact .inr ⟨rfl, by simp [m', allocator]⟩
  · have hnone : m.allocators[a]? = none := List.getElem?_eq_none (Nat.le_of_lt ha)
    have hnone' : (m.allocators ++ [z])[a]? = none :=
      List.getElem?_eq_none (by simpa using Nat.succ_le_of_lt ha)
    exact .inl (by simp [m', allocator, hnone, hnone'])

/-- Allocators stay where they are. -/
theorem Step.length_allocators_le (h : Step asks free m m') :
    m.allocators.length ≤ m'.allocators.length := by
  cases h with
  | arena | note => exact Nat.le_of_eq List.length_set.symm
  | touch => exact Nat.le_refl _
  | handOut capacity => exact Nat.le_of_eq (length_allocators_charge m _ _).symm
  | resize capacity => exact Nat.le_of_eq (length_allocators_charge m _ _).symm
  | charge n => exact Nat.le_of_eq (length_allocators_charge m _ _).symm
  | addBuffer => exact Nat.le_refl _
  | join => simp

/-- What every step keeps, any number of steps keep. -/
theorem of_steps {K : Memory → Prop} (hstep : ∀ {m m'}, Step asks free m m' → K m → K m')
    (h : ReflTransGen (Step asks free) m m') (hm : K m) : K m' := by
  induction h with
  | refl => exact hm
  | tail _ hlast ih => exact hstep hlast ih

theorem length_allocators_le_of_steps (h : ReflTransGen (Step asks free) m m') :
    m.allocators.length ≤ m'.allocators.length :=
  of_steps (K := fun m₁ => m.allocators.length ≤ m₁.allocators.length)
    (fun hstep hle => Nat.le_trans hle hstep.length_allocators_le) h (Nat.le_refl _)

/-! ## Operations come to steps -/

section Operations

/-- A recorder is asked, and then, unless it refuses, something is done. -/
theorem steps_note_bind {α : Type} {act : MemoryM α} (ha : m.allocator a = .recorder r)
    (hasks : asks a call) (hact : ∀ m₁, m₁ = m.setAllocator a (.recorder (r.note call)) →
      ReflTransGen (Step asks free) m₁ (leftBy act m₁)) :
    ReflTransGen (Step asks free) m (leftBy (note a r call >>= fun _ => act) m) := by
  rw [leftBy_note_bind]
  have hnote : ReflTransGen (Step asks free) m (m.setAllocator a (.recorder (r.note call))) :=
    .single (.note ha hasks)
  split
  · exact hnote
  · exact hnote.trans (hact _ rfl)

theorem steps_markReleased (b : BufferId) (m : Memory) :
    ReflTransGen (Step asks free) m (m.updateBuffer b Buffer.markReleased) :=
  .single (.touch b fun _ => ⟨rfl, rfl⟩)

theorem steps_clone {text : Text} (hasks : asks a (.clone text)) (m : Memory) :
    ReflTransGen (Step asks free) m (leftBy (clone a text) m) := by
  rw [clone, leftBy_bind_get]
  cases ha : m.allocator a with
  | heap => exact .refl
  | arena x =>
    dsimp only
    rw [leftBy_requireOpen_bind]
    split
    · exact .refl
    · exact .single (.arena (y := x.countClone text) ha rfl)
  | recorder r => exact steps_note_bind ha hasks fun _ _ => .refl

theorem steps_release (hasks : asks a (.release b)) (m : Memory) :
    ReflTransGen (Step asks free) m (leftBy (release a b) m) := by
  rw [release, leftBy_bind_get]
  cases ha : m.allocator a with
  | heap => exact steps_markReleased b m
  | arena x => exact .head (.arena (y := x.dropBuffer b) ha rfl) (steps_markReleased b _)
  | recorder r => exact steps_note_bind ha hasks fun m₁ _ => steps_markReleased b m₁

theorem steps_acquireContext {i : ScanId} (hasks : asks a (.acquireContext i)) (m : Memory) :
    ReflTransGen (Step asks free) m (leftBy (acquireContext a i) m) := by
  rw [acquireContext, leftBy_bind_get]
  cases ha : m.allocator a with
  | heap => exact .refl
  | arena x =>
    have hkept : (x.addContext i).charsReserved = x.charsReserved := by
      unfold Arena.addContext
      split <;> rfl
    dsimp only
    rw [leftBy_requireOpen_bind]
    split
    · exact .refl
    · exact .single (.arena ha hkept)
  | recorder r =>
    dsimp only
    rw [leftBy_note]
    exact .single (.note ha hasks)

theorem steps_releaseContext {i : ScanId} (hasks : asks a (.releaseContext i)) (m : Memory) :
    ReflTransGen (Step asks free) m (leftBy (releaseContext a i) m) := by
  rw [releaseContext, leftBy_bind_get]
  cases ha : m.allocator a with
  | heap => exact .refl
  | arena x => exact .single (.arena (y := x.dropContext i) ha rfl)
  | recorder r =>
    dsimp only
    rw [leftBy_note]
    exact .single (.note ha hasks)

theorem steps_allocate {capacity : Int} (hasks : asks a (.allocate capacity m.buffers.length))
    (ha : a < m.allocators.length) :
    ReflTransGen (Step asks free) m (leftBy (allocate a capacity) m) := by
  have hadd : ∀ m₁ : Memory, m₁.allocators.length = m.allocators.length →
      (∀ x, m₁.allocator a ≠ .arena x) →
      ReflTransGen (Step asks free) m₁ (leftBy (addBuffer a capacity) m₁) := by
    intro m₁ hlength hno
    have hstep : Step asks free m₁ ((m₁.charge a capacity).withBuffer a capacity) :=
      .handOut capacity (hlength ▸ ha)
    rw [charge_of_ne_arena hno] at hstep
    exact .single hstep
  rw [allocate, leftBy_bind_get]
  cases hz : m.allocator a with
  | heap => exact hadd m rfl (by simp [hz])
  | arena x =>
    dsimp only
    rw [leftBy_requireOpen_bind]
    split
    · exact .refl
    -- The buffer is put in care first, and then handed out.
    let y : Arena := { x with live := x.live ++ [m.buffers.length] }
    have hy : (m.setAllocator a (.arena y)).allocator a = .arena y :=
      allocator_setAllocator_self _ ha
    have hstep : Step asks free (m.setAllocator a (.arena y))
        (((m.setAllocator a (.arena y)).charge a capacity).withBuffer a capacity) :=
      .handOut capacity (by simpa [setAllocator] using ha)
    rw [charge_arena hy, setAllocator_setAllocator] at hstep
    exact .head (.arena (y := y) hz rfl) (.single hstep)
  | recorder r =>
    refine steps_note_bind hz hasks fun m₁ hm₁ => ?_
    subst hm₁
    refine hadd _ List.length_set ?_
    simp [allocator_replaced, hz]

/-- The capacity that is granted is the one that the buffer has to grow to. -/
theorem grow_cases (a : AllocatorId) (b : BufferId) (needed : Int) (m : Memory) :
    let capacity := grownCapacity (m.buffer b).capacity needed
    (∃ m₁, grow a b needed m = .ok capacity (m₁.charge a (capacity - (m.buffer b).capacity)) ∧
      (m₁ = m ∨ ∃ r, m.allocator a = .recorder r ∧
        m₁ = m.setAllocator a (.recorder (r.note (.grow b needed))))) ∨
    ∃ fault m₁, grow a b needed m = .error fault m₁ ∧
      (m₁ = m ∨ ∃ r, m.allocator a = .recorder r ∧
        m₁ = m.setAllocator a (.recorder (r.note (.grow b needed)))) := by
  intro capacity
  rw [grow, run_bind_get]
  cases ha : m.allocator a with
  | heap =>
    refine .inl ⟨m, ?_, .inl rfl⟩
    rw [charge_of_ne_arena (by simp [ha])]
    rfl
  | arena x =>
    dsimp only
    cases hx : x.closed with
    | true => exact .inr ⟨_, m, run_bind_error (requireOpen_closed hx), .inl rfl⟩
    | false =>
      rw [run_bind_ok (requireOpen_run hx)]
      split
      · exact .inr ⟨_, m, rfl, .inl rfl⟩
      · refine .inl ⟨m, ?_, .inl rfl⟩
        rw [charge_arena ha]
        rfl
  | recorder r =>
    cases hr : r.refuses r.calls (.grow b needed) with
    | true => exact .inr ⟨_, _, run_bind_error (note_refused hr), .inr ⟨r, rfl, rfl⟩⟩
    | false =>
      refine .inl ⟨_, ?_, .inr ⟨r, rfl, rfl⟩⟩
      rw [charge_of_ne_arena (by simp [allocator_replaced, ha])]
      exact run_bind_ok (note_run hr)

/-- What comes before a buffer grows, or in place of it. -/
theorem steps_asked {m₁ : Memory} {needed : Int} (hasks : asks a (.grow b needed))
    (h : m₁ = m ∨ ∃ r, m.allocator a = .recorder r ∧
      m₁ = m.setAllocator a (.recorder (r.note (.grow b needed)))) :
    ReflTransGen (Step asks free) m m₁ ∧ m₁.buffers = m.buffers := by
  rcases h with rfl | ⟨r, ha, rfl⟩
  · exact ⟨.refl, rfl⟩
  · exact ⟨.single (.note ha hasks), rfl⟩

/-- An allocator that is asked to by hand may count what no buffer has grown by. -/
theorem steps_grow {needed : Int} (hasks : asks a (.grow b needed)) (hfree : free a) (m : Memory) :
    ReflTransGen (Step asks free) m (leftBy (grow a b needed) m) := by
  rcases grow_cases a b needed m with ⟨m₁, hr, hm₁⟩ | ⟨fault, m₁, hr, hm₁⟩
  · rw [leftBy_of_ok hr]
    exact (steps_asked hasks hm₁).1.tail (.charge _ hfree)
  · rw [leftBy_of_error hr]
    exact (steps_asked hasks hm₁).1

/-- Appending has the owner of the buffer count just what the buffer grows by. -/
theorem steps_append (hasks : ∀ a needed, asks a (.grow b needed)) (text : Text) (m : Memory) :
    ReflTransGen (Step asks free) m (leftBy (append b text) m) := by
  have hadd : ∀ m₁ : Memory, ReflTransGen (Step asks free) m₁
      (leftBy (modifyBuffer b fun x => x.extend text) m₁) :=
    fun m₁ => .single (.touch b fun _ => ⟨rfl, rfl⟩)
  rw [append, leftBy_bind_get]
  dsimp only
  split
  · exact .refl
  rename_i hunreleased
  have hb : b < m.buffers.length := by
    refine Nat.lt_of_not_le fun hle => hunreleased ?_
    have hnone : m.buffer b = default := by simp [buffer, hle]
    rw [hnone]
    rfl
  split
  · exact .refl
  split
  · rcases grow_cases (m.buffer b).owner b ((m.buffer b).length + text.length : Nat) m with
      ⟨m₁, hr, hm₁⟩ | ⟨fault, m₁, hr, hm₁⟩
    · obtain ⟨hsteps, hbuffers⟩ : ReflTransGen (Step asks free) m m₁ ∧ m₁.buffers = m.buffers :=
        steps_asked (hasks _ _) hm₁
      have hbuffer : m₁.buffer b = m.buffer b := by rw [buffer, hbuffers]; rfl
      rw [leftBy_bind_ok hr, ← hbuffer]
      exact (hsteps.tail (.resize _ (hbuffers ▸ hb))).trans (hadd _)
    · rw [leftBy_bind_error hr]
      exact (steps_asked (hasks _ _) hm₁).1
  · exact hadd m

theorem steps_addAllocator {z : Allocator} (harena : ∀ x, z = .arena x → x.charsReserved = 0)
    (hrecorder : ∀ r, z = .recorder r → r.calls = []) (m : Memory) :
    ReflTransGen (Step asks free) m (leftBy (addAllocator z) m) :=
  .single (.join harena hrecorder)

end Operations

end Memory

end MiniLex
