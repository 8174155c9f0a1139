import MiniLex.Proofs.Memory.Frozen
import MiniLex.Proofs.Store.BulkRelease

/-!
# Closed arenas are frozen

An arena that was closed is empty (`Arena.shut`). It takes nothing into its care
any more, and there is nothing left that it could give up, so no operation of a
program changes it: `frozen_perform`, with what scans and bulk releases do to it
from `Store.Tending`. Every request is refused, and leaves the store as it was:
`perform_of_requests`. `closed_arena_frozen` puts the two together, from the
moment at which the arena was closed.
-/

namespace MiniLex

open Memory (IsArena)

/-- The arena once it has given up everything and is closed. -/
def Arena.shut (x : Arena) : Arena := { x with contexts := [], live := [], closed := true }

/-! ## Scans -/

namespace Scanner

variable {s : Scanner} {P : Memory → Prop}

theorem leads_leaveQuoted (hrelease : ∀ b, Leads P P (Memory.release s.allocator b)) :
    Leads (fun m => P m.host.memory) (fun m => P m.host.memory) s.leaveQuoted := by
  intro m hm
  rcases s.leaveQuoted_left m with ⟨-, hleft⟩ | ⟨b, -, hleft | hleft⟩ <;> rw [hleft]
  · exact hm
  · exact hrelease b _ hm
  · exact hrelease b _ hm

/-- Of its allocator a scan that is released asks no more than to take back what it handed out. -/
theorem leads_release (hrelease : ∀ b, Leads P P (Memory.release s.allocator b))
    (hcontext : Leads P P (Memory.releaseContext s.allocator s.id)) :
    Leads (fun m => P m.host.memory) (fun m => P m.host.memory) s.release := by
  refine leads_progress.seq fun p => ?_
  split
  · exact leads_pure _
  refine (leads_leaveQuoted hrelease).seq fun _ => ?_
  refine Leads.seq (fun _ h => h) fun _ m hm => ?_
  rw [leftBy_onMemory]
  exact hcontext _ hm

/-- What is true of memory and stays so whatever a scan asks of its allocator, stays so whatever is
done with the scan. -/
theorem tends_of_memory (hclone : ∀ text, Leads P P (Memory.clone s.allocator text))
    (happend : ∀ b text, Leads P P (Memory.append b text))
    (hallocate : ∀ capacity, Leads P P (Memory.allocate s.allocator capacity))
    (hrelease : ∀ b, Leads P P (Memory.release s.allocator b))
    (hcontext : Leads P P (Memory.releaseContext s.allocator s.id)) :
    s.Tends fun m => P m.host.memory where
  same h hm := by rwa [h.memory]
  clone text m hm := by
    rw [leftBy_onMemory]
    exact hclone text _ hm
  append b text m hm := by
    rw [leftBy_onMemory]
    exact happend b text _ hm.1
  leave := leads_leaveQuoted hrelease
  enter m hm := by
    have hallocated := hallocate Buffer.initialCapacity _ hm
    rcases s.enterQuoted_left m with ⟨b, hleft⟩ | hleft <;> rw [hleft] <;> exact hallocated
  shut hm _ := hcontext _ hm

end Scanner

namespace Store

variable {st st' : Store} {a : AllocatorId} {x y : Arena} {n : Nat} {op : Operation}

/-! ## Whatever is done to a closed arena -/

/-- An allocator is this arena, and closed. -/
def Frozen (a : AllocatorId) (x : Arena) (st : Store) : Prop :=
  IsArena (· = x.shut) a st.host.memory

theorem frozen_iff : Frozen a x st ↔ st.host.memory.allocator a = .arena x.shut :=
  ⟨fun ⟨_, h, hy⟩ => hy ▸ h, fun h => ⟨_, h, rfl⟩⟩

theorem closed_of_eq_shut : ∀ y, y = x.shut → y.closed = true := by
  rintro _ rfl
  rfl

theorem dropContext_shut : ∀ (y : Arena) (i : ScanId), y = x.shut → y.dropContext i = x.shut := by
  rintro _ i rfl
  rfl

theorem dropBuffer_shut : ∀ (y : Arena) (b : BufferId), y = x.shut → y.dropBuffer b = x.shut := by
  rintro _ b rfl
  rfl

/-- Whatever is done with a scan, also with one over the closed arena. -/
theorem tends_frozen (s : Scanner) (a : AllocatorId) (x : Arena) :
    s.Tends fun m => IsArena (· = x.shut) a m.host.memory :=
  Scanner.tends_of_memory (Memory.leads_clone closed_of_eq_shut _)
    (Memory.leads_append closed_of_eq_shut) (Memory.leads_allocate closed_of_eq_shut _)
    (Memory.leads_release dropBuffer_shut _) (Memory.leads_releaseContext dropContext_shut _ _)

theorem tended_frozen (a : AllocatorId) (x : Arena) : Tended (Frozen a x) where
  same _ hmemory h := by rwa [Frozen, hmemory]
  tends {st i} _ _ := tends_frozen (st.scan i).scanner a x
  setArena {st a' y z} ha hgives h := by
    refine IsArena.setAllocator h fun y' hy' hshut => ⟨z, rfl, ?_⟩
    rw [ha] at hy'
    cases hy'
    subst hshut
    cases hgives <;> rfl
  markReleased _ h := h

/-- What is done by hand with allocators and buffers. -/
theorem frozen_byHand (hop : op.IsByHand) : Leads (Frozen a x) (Frozen a x) op.perform := by
  cases op with
  | newHeap | newArena | newRecorder => exact leads_onMemory_return (Memory.leads_addAllocator _)
  | allocate => exact leads_onMemory_return (Memory.leads_allocate closed_of_eq_shut _ _)
  | grow => exact leads_onMemory_return (Memory.leads_grow closed_of_eq_shut _ _ _)
  | clone => exact leads_onMemory_return (Memory.leads_clone closed_of_eq_shut _ _)
  | newBuffer => exact leads_onMemory_return (Memory.leads_addBuffer _ _)
  | release => exact leads_onMemory (Memory.leads_release dropBuffer_shut _ _)
  | acquireContext => exact leads_onMemory (Memory.leads_acquireContext closed_of_eq_shut _ _)
  | releaseContext => exact leads_onMemory (Memory.leads_releaseContext dropContext_shut _ _)
  | append => exact leads_onMemory (Memory.leads_append closed_of_eq_shut _ _)
  | clear | markReleased => exact leads_onMemory (Memory.leads_modifyBuffer _ _)
  | _ => exact hop.elim

theorem frozen_perform (op : Operation) (h : Frozen a x st) :
    Frozen a x (leftBy op.perform st) := by
  refine (tended_frozen a x).perform h (fun hop => frozen_byHand hop st h) (fun e rules r _ => ?_) fun i hd _ _ => ?_
  · rw [Frozen, (leftBy_start e rules r st).1]
    exact Memory.leads_acquireContext closed_of_eq_shut _ _ _ h
  · rw [leftBy_onScan]
    exact (tends_frozen (st.scan i).scanner a x).act hd _ h

theorem frozen_after (ops : List Operation) (h : Frozen a x st) : Frozen a x (st.after ops) :=
  invariant_after (fun _ op => frozen_perform op) ops h

/-! ## Requests -/

/-- An operation asks an arena for something, enters its scope, or has it take the context of a scan
that starts. -/
def Requests (a : AllocatorId) (st : Store) : Operation → Prop
  | .acquireContext a' _ | .allocate a' _ | .grow a' _ _ | .clone a' _ | .enterArena a' => a' = a
  | .start e rules r => (r.scanner e rules st.scans.length).allocator = a
  | .tokenize e l r => (r.scanner e (some l) st.scans.length).allocator = a
  | _ => False

theorem onMemory_of_error {α : Type} {act : MemoryM α} {fault : AllocationFault}
    (hr : act st.host.memory = .error fault st.host.memory) :
    onMemory act st = .error (.allocation fault) st := by
  simp only [onMemory, hr]

/-- A closed arena refuses every request, and nothing else happens then. -/
theorem perform_of_requests (ha : st.host.memory.allocator a = .arena x) (hx : x.closed = true)
    (hop : Requests a st op) : op.perform st = .error (.allocation (.closedArena x.name)) st := by
  have hstart : ∀ {e rules r}, (r.scanner e rules st.scans.length).allocator = a →
      start e rules r st = .error (.allocation (.closedArena x.name)) st := by
    intro e rules r hallocator
    subst hallocator
    exact start_of_refused (Memory.acquireContext_of_closed _ ha hx)
  cases op with
  | acquireContext a' i =>
    subst hop
    exact onMemory_of_error (Memory.acquireContext_of_closed i ha hx)
  | allocate a' capacity =>
    subst hop
    exact run_bind_error (onMemory_of_error (Memory.allocate_of_closed capacity ha hx))
  | grow a' b needed =>
    subst hop
    exact run_bind_error (onMemory_of_error (Memory.grow_of_closed b needed ha hx))
  | clone a' text =>
    subst hop
    exact run_bind_error (onMemory_of_error (Memory.clone_of_closed text ha hx))
  | enterArena a' =>
    subst hop
    rw [Operation.perform, enterArena, run_bind_get, ha]
    exact onMemory_of_error (Memory.requireOpen_closed hx)
  | start e rules r => exact run_bind_error (hstart hop)
  | tokenize e l r => exact run_bind_error (run_bind_error (hstart hop))
  | _ => exact hop.elim

/-! ## Closing -/

/-- While its contexts are released one after the other, an arena takes none into its care. -/
theorem drained_releaseContexts (is : List ScanId) :
    let J := fun st : Store =>
      IsArena (fun y => ∃ live, y = { x with contexts := [], live := live }) a st.host.memory
    Leads J J (releaseContexts is) := by
  intro J
  have hbuffer : ∀ (y : Arena) (b : BufferId),
      (∃ live, y = { x with contexts := [], live := live }) →
      ∃ live, y.dropBuffer b = { x with contexts := [], live := live } := by
    rintro _ b ⟨live, rfl⟩
    exact ⟨_, rfl⟩
  have hcontext : ∀ (y : Arena) (i : ScanId),
      (∃ live, y = { x with contexts := [], live := live }) →
      ∃ live, y.dropContext i = { x with contexts := [], live := live } := by
    rintro _ i ⟨live, rfl⟩
    exact ⟨live, rfl⟩
  induction is with
  | nil => exact leads_pure _
  | cons i is ih =>
    refine Leads.seq (fun st h => ?_) fun _ => ih
    rw [leftBy_onScan]
    exact Scanner.leads_release (fun b => Memory.leads_release hbuffer _ b)
      (Memory.leads_releaseContext hcontext _ _) _ h

theorem allocator_of_releaseAll (ha : st.host.memory.allocator a = .arena x)
    (hr : releaseAll a st = .ok n st') :
    st'.host.memory.allocator a = .arena { x with contexts := [], live := [] } := by
  rw [releaseAll, run_bind_get, ha] at hr
  have hput : onMemory (Memory.putArena a { x with contexts := [] }) st = .ok ()
      (st.withMemory (st.host.memory.setAllocator a (.arena { x with contexts := [] }))) := rfl
  dsimp only at hr
  rw [run_bind_ok hput] at hr
  obtain ⟨_, st₂, hcontexts, hr⟩ := of_bind_ok hr
  have hcleared : IsArena (fun y => ∃ live, y = { x with contexts := [], live := live }) a
      (st.host.memory.setAllocator a (.arena { x with contexts := [] })) :=
    ⟨_, Memory.allocator_replaced (by simp [ha]) _, x.live, rfl⟩
  have hdrained := drained_releaseContexts x.contexts
    (st.withMemory (st.host.memory.setAllocator a (.arena { x with contexts := [] }))) hcleared
  rw [leftBy_of_ok hcontexts] at hdrained
  obtain ⟨y, hy, live, rfl⟩ := hdrained
  obtain ⟨k, st₃, hbuffers, hr⟩ := of_bind_ok hr
  rw [releaseAll.releaseBuffers, run_bind_get, hy] at hbuffers
  cases (onMemory_run (Memory.releaseLive_run a _ _)).symm.trans hbuffers
  have hemptied : ∀ (m : Memory) (bs : List BufferId), m = (st₂.host.memory.setAllocator a
      (.arena { x with contexts := [], live := [] })).markAll bs →
      m.allocator a = .arena { x with contexts := [], live := [] } := by
    rintro _ bs rfl
    rw [Memory.allocator, Memory.allocators_markAll]
    exact Memory.allocator_replaced (by simp [hy]) _
  dsimp only at hr
  split at hr <;> cases hr <;> exact hemptied _ live rfl

theorem frozen_of_closeArena (ha : st.host.memory.allocator a = .arena x)
    (hr : closeArena a st = .ok () st') : Frozen a x st' := by
  obtain ⟨n, st₁, hall, hr⟩ := of_bind_ok hr
  have hemptied := allocator_of_releaseAll ha hall
  rw [markClosed, run_bind_get, hemptied] at hr
  cases hr
  exact frozen_iff.mpr (Memory.allocator_replaced (by simp [hemptied]) _)

/-- Once an arena was closed, it has nothing in its care, and whatever a program does afterwards it
stays so: closed, without contexts and buffers, and with the counts that it had. That is so whatever
is done with scans over it that are still open, also with those whose context it no longer had in
its care. Every request is refused and leaves the store as it was, so no scan is started and nothing is
counted. -/
theorem closed_arena_frozen (ha : st.host.memory.allocator a = .arena x)
    (hclose : closeArena a st = .ok () st') (ops : List Operation) :
    (st'.after ops).host.memory.allocator a =
      .arena { x with contexts := [], live := [], closed := true } ∧
    ∀ op, Requests a (st'.after ops) op →
      op.perform (st'.after ops) = .error (.allocation (.closedArena x.name)) (st'.after ops) := by
  have hfrozen := frozen_iff.mp (frozen_after ops (frozen_of_closeArena ha hclose))
  exact ⟨hfrozen, fun op => perform_of_requests (x := x.shut) hfrozen rfl⟩

/-- Two scans are over an arena, one of which is detached from it and still open when the arena is
closed. A pull of it then needs a buffer that it does not get. -/
theorem closed_arena_frozen_detached_scan :
    let r : Request := ⟨['"', 'a', '"', ' ', 'b'], some 1, .nothing⟩
    let st := initial.after [.newArena "scope", .start .initial (some .standby) r,
      .start .initial (some .bootstrap) r, .allocate 1 8, .releaseContext 1 0]
    ∃ st', closeArena 1 st = .ok () st' ∧ (st'.scan 0).progress.closed = false ∧
      (st'.after [.handle 0 .pull, .handle 0 .close, .closeArena 1]).host.memory.allocator 1 =
        .arena ⟨"scope", true, [], [], 8, 0, 0⟩ ∧
      (Operation.start .initial (some .standby) r).perform (st'.after [.handle 0 .pull]) =
        .error (.allocation (.closedArena "scope")) (st'.after [.handle 0 .pull]) := by
  intro r st
  have ha : st.host.memory.allocator 1 = .arena ⟨"scope", false, [1], [0], 8, 0, 0⟩ := rfl
  obtain ⟨st', hclose⟩ : ∃ st', closeArena 1 st = .ok () st' := by
    obtain ⟨st₁, hr, hgiven⟩ := releaseAll_run ha (List.nodup_singleton 1) fun i hi => by
      obtain rfl := List.mem_singleton.mp hi
      exact ⟨by decide +kernel, by decide +kernel, by decide +kernel⟩
    exact ⟨_, closeArena_of_releaseAll hr (hgiven.allocator (Memory.lt_of_arena ha))⟩
  have hopen : (st'.scan 0).progress.closed = false := by
    rw [← leftBy_of_ok hclose]
    decide +kernel
  exact ⟨st', hclose, hopen, (closed_arena_frozen ha hclose _).1,
    (closed_arena_frozen ha hclose [.handle 0 .pull]).2 _ rfl⟩

end Store

end MiniLex
