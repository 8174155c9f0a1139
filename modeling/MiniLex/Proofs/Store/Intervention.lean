import MiniLex.Proofs.Store.Routine

/-!
# Interventions

Operations that put contexts and buffers in the care of an allocator or take
them out of it, by hand or in bulk, change the estate by steps of
`Estate.Change`, and so do all operations then: `changes_perform`.
-/

namespace MiniLex

open Relation (ReflTransGen)

namespace Store

variable {free : AllocatorId → Prop} {a : AllocatorId} {st : Store}

/-- However such an action ends, the estate changes by steps of any kind, but contexts are put in the
care of such allocators only. -/
abbrev Changes {α : Type} (free : AllocatorId → Prop) (x : StoreM α) : Prop :=
  Moves estate (ReflTransGen (Estate.Change free)) x

section Changes

variable {α β : Type} {x : StoreM α}

theorem Routinely.changes (hx : Routinely x) : Changes free x :=
  fun st => Estate.changes_of_routine (hx st)

theorem Changes.bind {f : α → StoreM β} (hx : Changes free x) (hf : ∀ a, Changes free (f a)) :
    Changes free (x >>= f) := Moves.bind .trans hx hf

/-- What changes the books in one step changes the estate so. -/
theorem changes_onMemory {act : MemoryM α} (hact : ∀ (v : Estate) m, v.books = m.books →
    ReflTransGen (Estate.Change free) v { v with books := (leftBy act m).books }) :
    Changes free (onMemory act) := by
  intro st
  rw [estate_onMemory]
  exact hact _ _ rfl

end Changes

theorem changes_release (a : AllocatorId) (b : BufferId) :
    Changes free (onMemory (Memory.release a b)) := by
  refine changes_onMemory fun v m hv => ?_
  rcases Memory.release_cases a b m with ⟨m', hr, hbooks⟩ | ⟨fault, m', hr, hbooks⟩
  · rw [leftBy_of_ok hr, hbooks, ← hv]
    have hshrink : Estate.Change free v { v with
        books := v.books.alter a fun c => { c with live := c.live.filter (· ≠ b) } } :=
      .shrink a fun c => ⟨.refl _, List.filter_sublist⟩
    exact .tail (.single hshrink) (.markReleased b)
  · rw [leftBy_of_error hr, hbooks, ← hv]

theorem changes_acquireContext (i : ScanId) (ha : free a) :
    Changes free (onMemory (Memory.acquireContext a i)) := by
  refine changes_onMemory fun v m hv => ?_
  rcases Memory.acquireContext_cases a i m with ⟨m', hr, -, hbooks⟩ | ⟨fault, m', hr, hbooks⟩
  · rw [leftBy_of_ok hr, hbooks, ← hv]
    exact .single (.enroll i ha)
  · rw [leftBy_of_error hr, hbooks, ← hv]

theorem changes_releaseContext (a : AllocatorId) (i : ScanId) :
    Changes free (onMemory (Memory.releaseContext a i)) := by
  refine changes_onMemory fun v m hv => ?_
  rw [Memory.books_releaseContext, ← hv]
  exact .single (.shrink a fun c => ⟨List.filter_sublist, .refl _⟩)

theorem changes_markReleased (b : BufferId) :
    Changes free (onMemory (Memory.modifyBuffer b Buffer.markReleased)) := by
  refine changes_onMemory fun v m hv => ?_
  have hbooks := Memory.books_markReleased m b
  rw [← hv] at hbooks
  exact .single (hbooks ▸ .markReleased b)

theorem changes_addBuffer (a : AllocatorId) (capacity : Int) :
    Changes free (onMemory (Memory.addBuffer a capacity)) := by
  refine changes_onMemory fun v m hv => ?_
  have hbooks := Memory.books_addBuffer m a capacity
  rw [← hv] at hbooks
  exact .single (hbooks ▸ .addTitle a)

/-! ### Releasing an arena -/

theorem changes_markAll (bs : List BufferId) {v : Estate} {m : Memory} (hv : v.books = m.books) :
    ReflTransGen (Estate.Change free) v { v with books := (m.markAll bs).books } := by
  induction bs generalizing v m with
  | nil => exact hv ▸ .refl
  | cons b bs ih =>
    have hbooks := Memory.books_markReleased m b
    rw [← hv] at hbooks
    exact .head (.markReleased b) (ih (v := { v with books := v.books.markReleased b }) hbooks.symm)

/-- The store with one arena replaced. -/
def setArena (st : Store) (a : AllocatorId) (y : Arena) : Store :=
  { st with host := { st.host with memory := st.host.memory.setAllocator a (.arena y) } }

theorem estate_setArena (f : Care → Care) {x y : Arena} (ha : st.host.memory.allocator a = .arena x)
    (hy : (Allocator.arena y).care = (Allocator.arena x).care.map f) :
    (st.setArena a y).estate = { st.estate with books := st.estate.books.alter a f } := by
  have hbooks : (st.host.memory.setAllocator a (.arena y)).books =
      st.host.memory.books.alter a f := Memory.books_setAllocator (by rw [ha, hy])
  rw [setArena, estate, hbooks, estate]

/-- An arena is replaced by one that has less in its care. -/
theorem change_setArena (f : Care → Care)
    (hf : ∀ c, (f c).contexts.Sublist c.contexts ∧ (f c).live.Sublist c.live) {x y : Arena}
    (ha : st.host.memory.allocator a = .arena x)
    (hy : (Allocator.arena y).care = (Allocator.arena x).care.map f) :
    Estate.Change free st.estate (st.setArena a y).estate := by
  rw [estate_setArena f ha hy]
  exact .shrink a hf

theorem changes_releaseContexts (is : List ScanId) : Changes free (releaseContexts is) := by
  induction is with
  | nil => exact (routinely_of_keeps (keeps_pure _)).changes
  | cons i is ih => exact (routinely_release i).changes.bind fun _ => ih

theorem changes_releaseBuffers (a : AllocatorId) : Changes free (releaseAll.releaseBuffers a) := by
  intro st
  rw [releaseAll.releaseBuffers, leftBy_bind_get]
  cases ha : st.host.memory.allocator a with
  | heap | recorder r => exact .refl
  | arena x =>
    dsimp only
    rw [estate_onMemory, leftBy_of_ok (Memory.releaseLive_run a x _)]
    refine .head (change_setArena (y := { x with live := [] }) (fun c => { c with live := [] })
      (fun c => ⟨.refl _, List.nil_sublist _⟩) ha rfl) ?_
    exact changes_markAll x.live rfl

theorem keeps_report (event : Event) : Keeps estate (updateHost (Host.report event)) :=
  keeps_modify fun _ => rfl

theorem changes_releaseAll (a : AllocatorId) : Changes free (releaseAll a) := by
  intro st
  rw [releaseAll, leftBy_bind_get]
  cases ha : st.host.memory.allocator a with
  | heap | recorder r => exact .refl
  | arena x =>
    have hput : onMemory (Memory.putArena a { x with contexts := [] }) st =
        .ok () (st.setArena a { x with contexts := [] }) := rfl
    dsimp only
    rw [leftBy_bind_ok hput]
    refine .head (change_setArena (y := { x with contexts := [] })
      (fun c => { c with contexts := [] }) (fun c => ⟨List.nil_sublist _, .refl _⟩) ha rfl) ?_
    refine Changes.bind (changes_releaseContexts x.contexts) (fun _ => ?_) _
    refine (changes_releaseBuffers a).bind fun n => ?_
    split
    · exact (routinely_of_keeps (keeps_report _)).changes.bind fun _ =>
        (routinely_of_keeps (keeps_pure _)).changes
    · exact (routinely_of_keeps (keeps_pure _)).changes

theorem changes_markClosed (a : AllocatorId) : Changes free (markClosed a) := by
  intro st
  rw [markClosed, leftBy_bind_get]
  cases ha : st.host.memory.allocator a with
  | heap | recorder r => exact .refl
  | arena x =>
    exact .single (change_setArena (y := { x with closed := true })
      (fun c => { c with closed := true }) (fun c => ⟨.refl _, .refl _⟩) ha rfl)

theorem changes_closeArena (a : AllocatorId) : Changes free (closeArena a) :=
  (changes_releaseAll a).bind fun _ => changes_markClosed a

end Store

open Store in
/-- Whatever an operation does, and whether it fails or not, the estate changes by such steps. -/
theorem Operation.changes_perform {free : AllocatorId → Prop} {st : Store} {op : Operation}
    (hk : op.Known st) (hfree : ∀ a i, op = .acquireContext a i → free a) :
    ReflTransGen (Estate.Change free) st.estate (leftBy op.perform st).estate := by
  cases op with
  | release a b => exact changes_release a b st
  | acquireContext a i => exact changes_acquireContext i (hfree a i rfl) st
  | releaseContext a i => exact changes_releaseContext a i st
  | releaseAll a =>
    rw [perform, leftBy_bind_return]
    exact changes_releaseAll a st
  | closeArena a => exact changes_closeArena a st
  | newBuffer a capacity =>
    rw [perform, leftBy_bind_return]
    exact changes_addBuffer a capacity st
  | markReleased b => exact changes_markReleased b st
  | _ => exact Estate.changes_of_routine (Operation.routine_perform trivial hk)

end MiniLex
