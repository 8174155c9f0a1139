import MiniLex.Proofs.Memory.Lasting
import MiniLex.Proofs.Store.Frozen

/-!
# What lasts in a program

Scans change only the buffers that they hold, and they hold only buffers that
they have obtained themselves. So what lasts in memory (`Memory.Lasting`) lasts
whatever a program does, as long as it does nothing by hand to buffers of which
something is known (`Apart.perform`):

* `lasting_byHand`: what is done by hand with other buffers keeps it true;
* `Scanner.tends_of_lasting`: a scan keeps it true and goes on holding free
  buffers;
* `Apart.releaseAll`, `Apart.closeArena`: arenas that give up all buffers mark
  them given back in the same moment.
-/

namespace MiniLex

variable {P : Memory → Prop} {free : BufferId → Prop}

/-- A buffer that is held, if any, is free and among the first of so many. -/
def IsFree (free : BufferId → Prop) (held : Option BufferId) (n : Nat) : Prop :=
  ∀ b ∈ held, b < n ∧ free b

theorem IsFree.mono {held : Option BufferId} {n k : Nat} (hle : n ≤ k) (h : IsFree free held n) :
    IsFree free held k := fun b hb => ⟨Nat.lt_of_lt_of_le (h b hb).1 hle, (h b hb).2⟩

theorem isFree_none {n : Nat} : IsFree free none n := nofun

namespace Scanner

/-- A scan that holds none but free buffers obtains none but free ones. -/
theorem tends_of_lasting (h : Memory.Lasting P free) (s : Scanner) :
    s.Tends fun m =>
      P m.host.memory ∧ IsFree free m.progress.accumulator m.host.memory.buffers.length := by
  have hkeep : ∀ held, Memory.Lasting (fun m => P m ∧ IsFree free held m.buffers.length) free :=
    fun held => h.and_length IsFree.mono
  refine { same := ?_, clone := ?_, append := ?_, leave := ?_, enter := ?_, shut := ?_ }
  · intro m m' hsame hm
    rwa [hsame.memory, hsame.held]
  · intro text m hm
    rw [leftBy_onMemory]
    exact (hkeep _).clone _ text _ hm
  · intro b text m hm
    rw [leftBy_onMemory]
    exact (hkeep _).append (hm.1.2 b hm.2).2 text _ hm.1
  · intro m hm
    rcases s.leaveQuoted_left m with ⟨ha, hleft⟩ | ⟨b, ha, hleft⟩
    · rw [hleft]
      exact hm
    · have hreleased := (hkeep _).release s.allocator b _ hm
      rcases hleft with hleft | hleft <;> rw [hleft]
      · exact ⟨hreleased.1, isFree_none⟩
      · exact hreleased
  · intro m hm
    cases hr : Memory.allocate s.allocator Buffer.initialCapacity m.host.memory with
    | ok b memory =>
      have hallocated := (hkeep _).allocate s.allocator Buffer.initialCapacity _ hm
      have hnew := (Memory.books_allocate_ok hr).1
      rw [leftBy_of_ok hr] at hallocated
      rw [leftBy_of_ok (enterQuoted_of_granted hr)]
      refine ⟨hallocated.1, fun c hc => ?_⟩
      cases hc
      exact ⟨(Memory.allocate_ok hr).valid, hnew ▸ h.next hm.1⟩
    | error fault memory =>
      have hallocated := (hkeep _).allocate s.allocator Buffer.initialCapacity _ hm
      rw [leftBy_of_error hr] at hallocated
      rw [leftBy_of_error (enterQuoted_of_refused hr)]
      exact hallocated
  · intro m hm _
    exact (hkeep _).releaseContext _ _ _ hm

end Scanner

/-- An operation appends by hand to free buffers only, and clears only these. -/
def Operation.Spares (free : BufferId → Prop) : Operation → Prop
  | append b _ | clear b => free b
  | _ => True

namespace Store

variable {st st' : Store} {a : AllocatorId} {x : Arena} {op : Operation}

/-- All buffers that scans hold are free and among the first. -/
def HoldsOnly (st : Store) (free : BufferId → Prop) (n : Nat) : Prop :=
  ∀ i, IsFree free (st.scan i).progress.accumulator n

/-- The memory is such, and scans hold none but free buffers. -/
def Apart (P : Memory → Prop) (free : BufferId → Prop) (st : Store) : Prop :=
  P st.host.memory ∧ st.HoldsOnly free st.host.memory.buffers.length

theorem HoldsOnly.mono {n k : Nat} (hle : n ≤ k) (h : st.HoldsOnly free n) :
    st.HoldsOnly free k := fun i => (h i).mono hle

theorem HoldsOnly.of_scans {n : Nat} (h : st.HoldsOnly free n) (hscans : st'.scans = st.scans) :
    st'.HoldsOnly free n := by
  intro i
  rw [scan, hscans]
  exact h i

theorem Apart.of_same (h : Apart P free st) (hscans : st'.scans = st.scans)
    (hmemory : st'.host.memory = st.host.memory) : Apart P free st' := by
  rw [Apart, hmemory]
  exact ⟨h.1, h.2.of_scans hscans⟩

/-- What scans hold lasts as well. -/
theorem lasting_apart (hl : Memory.Lasting P free) (st : Store) :
    Memory.Lasting (fun m => P m ∧ st.HoldsOnly free m.buffers.length) free :=
  hl.and_length HoldsOnly.mono

theorem handled_apart (hl : Memory.Lasting P free) : Handled (Apart P free) where
  same hscans hmemory h := h.of_same hscans hmemory
  tends {st i} h hi := by
    let others (n : Nat) : Prop := ∀ j ≠ i, IsFree free (st.scan j).progress.accumulator n
    have hothers : Memory.Lasting (fun m => P m ∧ others m.buffers.length) free :=
      hl.and_length (Q := others) fun hle hn j hj => (hn j hj).mono hle
    have hmachine : (fun m => Apart P free (st.putMachine i m)) = fun m =>
        (P m.host.memory ∧ others m.host.memory.buffers.length) ∧
          IsFree free m.progress.accumulator m.host.memory.buffers.length := by
      funext m
      refine propext ⟨fun hm => ⟨⟨hm.1, fun j hj => ?_⟩, ?_⟩, fun hm => ⟨hm.1.1, fun j => ?_⟩⟩
      · rw [← scan_putMachine_of_ne m hj]
        exact hm.2 j
      · have hself := hm.2 i
        rwa [scan_putMachine_self m hi] at hself
      · by_cases hj : j = i
        · subst hj
          rw [scan_putMachine_self m hi]
          exact hm.2
        · rw [scan_putMachine_of_ne m hj]
          exact hm.1.2 j hj
    rw [hmachine]
    exact Scanner.tends_of_lasting hothers _

/-- Only free buffers are changed by hand. -/
theorem lasting_byHand (hl : Memory.Lasting P free) (hop : op.IsByHand) (hspares : op.Spares free) :
    Leads (fun st => P st.host.memory) (fun st => P st.host.memory) op.perform := by
  cases op with
  | newHeap | newArena | newRecorder => exact leads_onMemory_return (hl.addAllocator _)
  | allocate => exact leads_onMemory_return (hl.allocate _ _)
  | grow => exact leads_onMemory_return (hl.grow _ _ _)
  | clone => exact leads_onMemory_return (hl.clone _ _)
  | newBuffer => exact leads_onMemory_return (hl.newBuffer _ _)
  | release => exact leads_onMemory (hl.release _ _)
  | acquireContext => exact leads_onMemory (hl.acquireContext _ _)
  | releaseContext => exact leads_onMemory (hl.releaseContext _ _)
  | append => exact leads_onMemory (hl.append hspares _)
  | clear => exact leads_onMemory (hl.modifyBuffer hspares _)
  | markReleased => exact leads_onMemory (hl.markReleased _)
  | _ => exact hop.elim

namespace Apart

theorem byHand (hl : Memory.Lasting P free) (h : Apart P free st) (hop : op.IsByHand)
    (hspares : op.Spares free) : Apart P free (leftBy op.perform st) := by
  have hlasts := lasting_byHand (lasting_apart hl st) hop hspares st h
  exact ⟨hlasts.1, hlasts.2.of_scans (Operation.scans_of_byHand hop)⟩

/-- A scan that starts holds no buffer yet. -/
theorem start (hl : Memory.Lasting P free) (h : Apart P free st) (e : Ambient)
    (rules : Option Language) (r : Request) : Apart P free (leftBy (start e rules r) st) := by
  obtain ⟨hmemory, hscans⟩ := leftBy_start e rules r st
  have hacquired := (lasting_apart hl st).acquireContext
    (r.scanner e rules st.scans.length).allocator st.scans.length _ h
  rw [← hmemory] at hacquired
  refine ⟨hacquired.1, ?_⟩
  rcases hscans with hscans | hscans
  · intro i
    rcases scan_of_append hscans i with hi | hi
    · rw [hi]
      exact hacquired.2 i
    · rw [hi]
      exact isFree_none
  · exact hacquired.2.of_scans hscans

/-- An arena is replaced, and buffers are given back with it. -/
theorem setArena {bs : List BufferId} {y : Arena} (hl : Memory.Lasting P free)
    (h : Apart P free st) (ha : st.host.memory.allocator a = .arena x) (hy : x.Turns bs y) :
    Apart P free (st.withMemory ((st.host.memory.setAllocator a (.arena y)).markAll bs)) :=
  (lasting_apart hl st).arena ha hy h

theorem releaseContexts (hl : Memory.Lasting P free) (is : List ScanId) :
    Leads (Apart P free) (Apart P free) (releaseContexts is) := by
  induction is with
  | nil => exact leads_pure _
  | cons i is ih => exact ((handled_apart hl).release i).seq fun _ => ih

theorem releaseBuffers (hl : Memory.Lasting P free) (a : AllocatorId) :
    Leads (Apart P free) (Apart P free) (releaseAll.releaseBuffers a) := by
  intro st h
  rw [releaseAll.releaseBuffers, leftBy_bind_get]
  cases ha : st.host.memory.allocator a with
  | heap | recorder r => exact h
  | arena x =>
    dsimp only
    rw [leftBy_onMemory, leftBy_of_ok (Memory.releaseLive_run a x _)]
    exact h.setArena hl ha ⟨fun b hb => .inr hb, rfl⟩

theorem releaseAll (hl : Memory.Lasting P free) (a : AllocatorId) :
    Leads (Apart P free) (Apart P free) (releaseAll a) := by
  intro st h
  rw [Store.releaseAll, leftBy_bind_get]
  cases ha : st.host.memory.allocator a with
  | heap | recorder r => exact h
  | arena x =>
    have hput : onMemory (Memory.putArena a { x with contexts := [] }) st = .ok ()
        (st.withMemory (st.host.memory.setAllocator a (.arena { x with contexts := [] }))) := rfl
    have hcleared : Apart P free
        (st.withMemory (st.host.memory.setAllocator a (.arena { x with contexts := [] }))) :=
      h.setArena hl ha (Arena.turns_of_live (y := { x with contexts := [] }) (fun _ hb => hb) rfl)
    dsimp only
    rw [leftBy_bind_ok hput]
    refine Leads.seq (releaseContexts hl x.contexts) (fun _ => ?_) _ hcleared
    refine (releaseBuffers hl a).seq fun n => ?_
    split
    · have hreport : ∀ event, Leads (Apart P free) (Apart P free)
          (updateHost (Host.report event)) :=
        fun event => (handled_apart hl).updateHost _ fun _ => rfl
      exact (hreport _).seq fun _ => leads_pure _
    · exact leads_pure _

/-- Only an arena that has given up all its buffers is closed. -/
theorem closeArena (hl : Memory.Enduring P free) (h : Apart P free st) (a : AllocatorId) :
    Apart P free (leftBy (closeArena a) st) := by
  have hall := releaseAll hl.toLasting a st h
  rw [Store.closeArena]
  cases hr : Store.releaseAll a st with
  | error failure st₁ =>
    rw [leftBy_of_error hr] at hall
    rwa [leftBy_bind_error hr]
  | ok n st₁ =>
    rw [leftBy_of_ok hr] at hall
    rw [leftBy_bind_ok hr, markClosed, leftBy_bind_get]
    cases ha : st.host.memory.allocator a with
    | heap | recorder r =>
      rw [Store.releaseAll, run_bind_get, ha] at hr
      cases hr
      rw [ha]
      exact hall
    | arena x =>
      have hemptied := allocator_of_releaseAll ha hr
      rw [hemptied]
      exact ⟨hl.close hemptied rfl hall.1, hall.2⟩

/-- What also survives the closing of arenas, an operation keeps true that does nothing by hand to
the buffers of which something is known. -/
theorem perform (he : Memory.Enduring P free) (h : Apart P free st) (hspares : op.Spares free) :
    Apart P free (leftBy op.perform st) := by
  have hl := he.toLasting
  refine (handled_apart hl).perform h (fun hhand => h.byHand hl hhand hspares) (fun hbulk => ?_)
    (fun e rules r _ => h.start hl e rules r) fun i hd _ hi => ?_
  · cases op with
    | releaseAll a =>
      rw [Operation.perform, leftBy_bind_return]
      exact releaseAll hl a st h
    | closeArena a => exact h.closeArena he a
    | _ => exact hbulk.elim
  · -- A scan that does not exist holds no buffer, and what it obtains it does not keep.
    have hscan : st.scan i = default := by simp [scan, hi]
    have hheld :
        IsFree free (st.scan i).progress.accumulator st.host.memory.buffers.length := by
      rw [hscan]
      exact isFree_none
    have hacted := (Scanner.tends_of_lasting (lasting_apart hl st) (st.scan i).scanner).act hd
      ⟨(st.scan i).progress, st.host⟩ ⟨h, hheld⟩
    rw [leftBy_onScan]
    exact ⟨hacted.1.1, hacted.1.2.of_scans (List.modify_eq_self hi)⟩

end Apart

/-- Scans hold none but buffers that there are. -/
theorem holdsOnly_after (ops : List Operation) :
    (initial.after ops).HoldsOnly (fun _ => True) (initial.after ops).host.memory.buffers.length := by
  have he : Memory.Enduring (fun _ => True) fun _ => True :=
    ⟨⟨fun _ _ _ => trivial, fun _ _ _ => trivial, fun _ _ => trivial, fun _ _ _ => trivial,
      fun _ _ => trivial, fun _ _ _ => trivial, fun _ => trivial⟩, fun _ _ _ => trivial⟩
  have hinitial : Apart (fun _ => True) (fun _ => True) initial := by
    refine ⟨trivial, fun i => ?_⟩
    have hscan : initial.scan i = default := by simp [scan, initial]
    rw [hscan]
    exact isFree_none
  refine (invariant_after (fun st op h => h.perform he ?_) ops hinitial).2
  cases op <;> trivial

end Store

end MiniLex
