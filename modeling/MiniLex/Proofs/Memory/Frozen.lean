import MiniLex.Proofs.Memory.Books

/-!
# Closed arenas in memory

What operations on memory do to an arena of which only so much is known
(`Memory.IsArena`):

* an arena that gives up something in its care changes in nothing else, so it
  stays such if this does not matter (`leads_release`, `leads_releaseContext`);
* a closed arena grants nothing and is left as it is (`leads_acquireContext`,
  `leads_allocate`, `leads_grow`, `leads_clone`, `leads_append`);
* operations on other allocators do not concern it.

`acquireContext_of_closed` and the theorems beside it say how a closed arena
refuses.
-/

namespace MiniLex.Memory

variable {S : Arena → Prop} {m : Memory} {a a' : AllocatorId} {x y : Arena} {r : Recorder}
  {call : Call}

/-- An allocator is an arena that is such. -/
def IsArena (S : Arena → Prop) (a : AllocatorId) (m : Memory) : Prop :=
  ∃ x, m.allocator a = .arena x ∧ S x

/-! ## Refusals -/

theorem acquireContext_of_closed (i : ScanId) (ha : m.allocator a = .arena x)
    (hx : x.closed = true) : acquireContext a i m = .error (.closedArena x.name) m := by
  rw [acquireContext, run_bind_get, ha]
  exact run_bind_error (requireOpen_closed hx)

theorem allocate_of_closed (capacity : Int) (ha : m.allocator a = .arena x)
    (hx : x.closed = true) : allocate a capacity m = .error (.closedArena x.name) m := by
  rw [allocate, run_bind_get, ha]
  exact run_bind_error (requireOpen_closed hx)

theorem grow_of_closed (b : BufferId) (needed : Int) (ha : m.allocator a = .arena x)
    (hx : x.closed = true) : grow a b needed m = .error (.closedArena x.name) m := by
  rw [grow, run_bind_get, ha]
  exact run_bind_error (requireOpen_closed hx)

theorem clone_of_closed (text : Text) (ha : m.allocator a = .arena x) (hx : x.closed = true) :
    clone a text m = .error (.closedArena x.name) m := by
  rw [clone, run_bind_get, ha]
  exact run_bind_error (requireOpen_closed hx)

/-! ## Changes of one allocator -/

/-- An allocator may be replaced, if an arena that is such is replaced by another one. -/
theorem IsArena.setAllocator {z : Allocator} (hm : IsArena S a m)
    (h : ∀ x, m.allocator a' = .arena x → S x → ∃ y, z = .arena y ∧ S y) :
    IsArena S a (m.setAllocator a' z) := by
  obtain ⟨x, hx, hS⟩ := hm
  by_cases ha : a' = a
  · subst ha
    obtain ⟨y, rfl, hy⟩ := h x hx hS
    exact ⟨y, allocator_replaced (by simp [hx]) _, hy⟩
  · exact ⟨x, (allocator_setAllocator_of_ne m z ha).trans hx, hS⟩

theorem IsArena.note (hm : IsArena S a m) (ha : m.allocator a' = .recorder r) (call : Call) :
    IsArena S a (m.setAllocator a' (.recorder (r.note call))) :=
  hm.setAllocator fun x hx => by
    rw [ha] at hx
    cases hx

/-- An arena that is open is not one of these, if they are closed. -/
theorem IsArena.setOpen {z : Allocator} (hS : ∀ x, S x → x.closed = true) (hm : IsArena S a m)
    (ha : m.allocator a' = .arena x) (hx : ¬x.closed = true) :
    IsArena S a (m.setAllocator a' z) :=
  hm.setAllocator fun y hy hyS => by
    rw [ha] at hy
    cases hy
    exact absurd (hS x hyS) hx

/-- Nothing but its allocator concerns an arena. -/
theorem leads_modifyBuffer (b : BufferId) (f : Buffer → Buffer) :
    Leads (IsArena S a) (IsArena S a) (modifyBuffer b f) := fun _ hm => hm

theorem leads_addBuffer (a' : AllocatorId) (capacity : Int) :
    Leads (IsArena S a) (IsArena S a) (addBuffer a' capacity) := fun _ hm => hm

theorem leads_addAllocator (z : Allocator) :
    Leads (IsArena S a) (IsArena S a) (addAllocator z) := by
  rintro m ⟨x, hx, hS⟩
  have hlt : a < m.allocators.length := lt_of_allocator_ne (by simp [hx])
  have hkept : (leftBy (addAllocator z) m).allocator a = m.allocator a := by
    show (m.allocators ++ [z]).getD a .heap = m.allocators.getD a .heap
    simp [List.getElem?_append_left hlt]
  exact ⟨x, hkept.trans hx, hS⟩

/-- Once a recorder was asked, what is done then keeps to it. -/
theorem IsArena.note_bind {α : Type} {act : MemoryM α} (hm : IsArena S a m)
    (ha : m.allocator a' = .recorder r) (hact : Leads (IsArena S a) (IsArena S a) act) :
    IsArena S a (leftBy (Memory.note a' r call >>= fun _ => act) m) := by
  rw [leftBy_note_bind]
  split
  · exact hm.note ha call
  · exact hact _ (hm.note ha call)

/-- Of an arena that may be closed something is asked. -/
theorem IsArena.requireOpen_bind {α : Type} {act : MemoryM α} (hm : IsArena S a m)
    (hact : ¬x.closed = true → IsArena S a (leftBy act m)) :
    IsArena S a (leftBy (requireOpen x >>= fun _ => act) m) := by
  rw [leftBy_requireOpen_bind]
  split
  · exact hm
  · exact hact ‹_›

/-! ## What is given up -/

theorem leads_releaseContext (hS : ∀ x i, S x → S (x.dropContext i)) (a' : AllocatorId)
    (i : ScanId) : Leads (IsArena S a) (IsArena S a) (releaseContext a' i) := by
  intro m hm
  rw [releaseContext, leftBy_bind_get]
  cases ha : m.allocator a' with
  | heap => exact hm
  | arena x =>
    refine hm.setAllocator fun y hy hyS => ⟨_, rfl, ?_⟩
    rw [ha] at hy
    cases hy
    exact hS x i hyS
  | recorder r =>
    dsimp only
    rw [leftBy_note]
    exact hm.note ha _

theorem leads_release (hS : ∀ x b, S x → S (x.dropBuffer b)) (a' : AllocatorId) (b : BufferId) :
    Leads (IsArena S a) (IsArena S a) (release a' b) := by
  intro m hm
  rw [release, leftBy_bind_get]
  cases ha : m.allocator a' with
  | heap => exact leads_modifyBuffer b _ m hm
  | arena x =>
    refine leads_modifyBuffer b _ _ (hm.setAllocator fun y hy hyS => ⟨_, rfl, ?_⟩)
    rw [ha] at hy
    cases hy
    exact hS x b hyS
  | recorder r => exact hm.note_bind ha (leads_modifyBuffer b _)

/-! ## What is asked for -/

section Requests

variable (hS : ∀ x, S x → x.closed = true)

include hS

theorem leads_acquireContext (a' : AllocatorId) (i : ScanId) :
    Leads (IsArena S a) (IsArena S a) (acquireContext a' i) := by
  intro m hm
  rw [acquireContext, leftBy_bind_get]
  cases ha : m.allocator a' with
  | heap => exact hm
  | arena x => exact hm.requireOpen_bind fun hx => hm.setOpen hS ha hx
  | recorder r =>
    dsimp only
    rw [leftBy_note]
    exact hm.note ha _

theorem leads_allocate (a' : AllocatorId) (capacity : Int) :
    Leads (IsArena S a) (IsArena S a) (allocate a' capacity) := by
  intro m hm
  rw [allocate, leftBy_bind_get]
  cases ha : m.allocator a' with
  | heap => exact leads_addBuffer a' capacity m hm
  | arena x =>
    exact hm.requireOpen_bind fun hx => leads_addBuffer a' capacity _ (hm.setOpen hS ha hx)
  | recorder r => exact hm.note_bind ha (leads_addBuffer a' capacity)

theorem leads_grow (a' : AllocatorId) (b : BufferId) (needed : Int) :
    Leads (IsArena S a) (IsArena S a) (grow a' b needed) := by
  intro m hm
  rw [grow, leftBy_bind_get]
  cases ha : m.allocator a' with
  | heap => exact hm
  | arena x =>
    refine hm.requireOpen_bind fun hx => ?_
    split
    · exact hm
    · exact hm.setOpen hS ha hx
  | recorder r => exact hm.note_bind ha (leads_pure _)

theorem leads_clone (a' : AllocatorId) (text : Text) :
    Leads (IsArena S a) (IsArena S a) (clone a' text) := by
  intro m hm
  rw [clone, leftBy_bind_get]
  cases ha : m.allocator a' with
  | heap => exact hm
  | arena x => exact hm.requireOpen_bind fun hx => hm.setOpen hS ha hx
  | recorder r => exact hm.note_bind ha (leads_pure _)

theorem leads_append (b : BufferId) (text : Text) :
    Leads (IsArena S a) (IsArena S a) (append b text) := by
  refine leads_get.seq fun m => ?_
  dsimp only
  split
  · exact leads_throw _
  split
  · exact leads_pure _
  split
  · refine (leads_grow hS _ b _).seq fun capacity => ?_
    exact (leads_modifyBuffer b _).seq fun _ => leads_modifyBuffer b _
  · exact leads_modifyBuffer b _

end Requests

end MiniLex.Memory
