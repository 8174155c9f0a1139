import MiniLex.Proofs.Store.Attribution

/-!
# Giving up everything at once

An arena that gives up all in its care closes the scans whose contexts it has,
one after the other, each of which hands its buffer back, and then gives up the
buffers that are left. What has been given up at any point on the way is
`Surrendered`, and two such parts in turn make one: `Surrendered.trans`.
-/

namespace MiniLex

open Relation (ReflTransGen)

/-- A scan that has given up its context. -/
def Scan.shut (x : Scan) : Scan :=
  { x with progress := { x.progress with mode := .normal, accumulator := none, closed := true } }

theorem Scan.shut_shut (x : Scan) : x.shut.shut = x.shut := rfl

/-! ## Operations of an arena -/

theorem Arena.dropContext_of_nil {x : Arena} (hx : x.contexts = []) (i : ScanId) :
    x.dropContext i = x := by
  cases x
  simp_all [dropContext]

theorem Memory.lt_of_arena {m : Memory} {a : AllocatorId} {x : Arena}
    (ha : m.allocator a = .arena x) : a < m.allocators.length :=
  lt_of_allocator_ne (by simp [ha])

theorem Memory.releaseContext_arena {m : Memory} {a : AllocatorId} {x : Arena} (i : ScanId)
    (ha : m.allocator a = .arena x) :
    releaseContext a i m = .ok () (m.setAllocator a (.arena (x.dropContext i))) := by
  rw [releaseContext, run_bind_get, ha]
  rfl

theorem Memory.release_arena {m : Memory} {a : AllocatorId} {x : Arena} (b : BufferId)
    (ha : m.allocator a = .arena x) :
    release a b m = .ok ()
      ((m.setAllocator a (.arena (x.dropBuffer b))).updateBuffer b Buffer.markReleased) := by
  rw [release, run_bind_get, ha]
  rfl

namespace Store

variable {st st₁ st₂ : Store} {a : AllocatorId} {x y : Arena} {is js : List ScanId}
  {bs cs : List BufferId} {i : ScanId} {b : BufferId}

/-- An arena is replaced, these scans have given up their contexts, and these buffers have been given
back. All other allocators, scans and buffers are as they were. -/
structure Surrendered (a : AllocatorId) (x : Arena) (is : List ScanId) (bs : List BufferId)
    (st st₁ : Store) : Prop where
  scans : ∀ i, st₁.scans[i]? = st.scans[i]?.map fun y => if i ∈ is then y.shut else y
  allocators : st₁.host.memory.allocators = st.host.memory.allocators.set a (.arena x)
  buffers : ∀ b, st₁.host.memory.buffers[b]? =
    st.host.memory.buffers[b]?.map fun y => if b ∈ bs then y.markReleased else y

namespace Surrendered

theorem trans (h : Surrendered a x is bs st st₁) (h' : Surrendered a y js cs st₁ st₂) :
    Surrendered a y (is ++ js) (bs ++ cs) st st₂ where
  scans i := by
    rw [h'.scans, h.scans, Option.map_map]
    congr 1
    funext z
    by_cases hi : i ∈ is <;> by_cases hj : i ∈ js <;> simp [hi, hj, Scan.shut_shut]
  allocators := by rw [h'.allocators, h.allocators, List.set_set]
  buffers b := by
    rw [h'.buffers, h.buffers, Option.map_map]
    congr 1
    funext z
    by_cases hb : b ∈ bs <;> by_cases hc : b ∈ cs <;>
      simp [hb, hc, Buffer.markReleased_markReleased]

theorem allocator (h : Surrendered a x is bs st st₁) (ha : a < st.host.memory.allocators.length) :
    st₁.host.memory.allocator a = .arena x := by
  simp [Memory.allocator, h.allocators, ha]

theorem length_scans (h : Surrendered a x is bs st st₁) : st₁.scans.length = st.scans.length := by
  have hnone : ∀ i, st₁.scans[i]? = none ↔ st.scans[i]? = none := fun i => by
    rw [h.scans, Option.map_eq_none_iff]
  simp only [List.getElem?_eq_none_iff] at hnone
  exact Nat.le_antisymm ((hnone _).mpr (Nat.le_refl _)) ((hnone _).mp (Nat.le_refl _))

theorem scan_of_mem (h : Surrendered a x is bs st st₁) (hi : i ∈ is) (hlt : i < st.scans.length) :
    st₁.scan i = (st.scan i).shut := by
  simp [scan, h.scans, hi, hlt]

theorem scan_of_not_mem (h : Surrendered a x is bs st st₁) (hi : i ∉ is) :
    st₁.scan i = st.scan i := by
  simp [scan, h.scans, hi]

theorem buffer_of_mem (h : Surrendered a x is bs st st₁) (hb : b ∈ bs)
    (hlt : b < st.host.memory.buffers.length) :
    st₁.host.memory.buffer b = (st.host.memory.buffer b).markReleased := by
  simp [Memory.buffer, h.buffers, hb, hlt]

theorem setArena (st : Store) (a : AllocatorId) (x : Arena) :
    Surrendered a x [] [] st (st.setArena a x) where
  scans i := by simp [Store.setArena]
  allocators := rfl
  buffers b := by simp [Store.setArena, Memory.setAllocator]

end Surrendered

/-- The buffers that scans hold. -/
def heldBy (st : Store) (is : List ScanId) : List BufferId :=
  is.flatMap fun i => (st.scan i).progress.accumulator.toList

theorem Surrendered.putMachine {h : Host} (hi : i < st.scans.length)
    (hallocators : h.memory.allocators = st.host.memory.allocators.set a (.arena x))
    (hbuffers : ∀ b, h.memory.buffers[b]? =
      st.host.memory.buffers[b]?.map fun y => if b ∈ bs then y.markReleased else y) :
    Surrendered a x [i] bs st (st.putMachine i ⟨(st.scan i).shut.progress, h⟩) where
  scans j := by
    rw [Store.putMachine, List.getElem?_modify]
    by_cases hj : i = j
    · subst hj
      simp [scan, hi, Scan.shut]
    · simp [hj, Ne.symm hj]
  allocators := hallocators
  buffers := hbuffers

/-- An open scan whose context its arena has let go hands its buffer back. -/
theorem release_run (ha : st.host.memory.allocator a = .arena x) (hx : x.contexts = [])
    (hi : i < st.scans.length) (hallocator : (st.scan i).scanner.allocator = a)
    (hopen : (st.scan i).progress.closed = false) :
    ∃ st₁, onScan i Scanner.release st = .ok () st₁ ∧
      Surrendered a { x with live := x.live.filter (· ∉ st.heldBy [i]) } [i] (st.heldBy [i])
        st st₁ := by
  subst hallocator
  have hlt := Memory.lt_of_arena ha
  cases hacc : (st.scan i).progress.accumulator with
  | none =>
    have hheld : st.heldBy [i] = [] := by simp [heldBy, hacc]
    have hcontext := Memory.releaseContext_arena (st.scan i).scanner.id ha
    rw [Arena.dropContext_of_nil hx] at hcontext
    have hrelease := Scanner.release_of_left (m := ⟨(st.scan i).progress, st.host⟩) hopen
      (Scanner.leaveQuoted_of_none hacc) hcontext
    have hprogress : (st.scan i).shut.progress =
        { (st.scan i).progress with mode := .normal, closed := true } := by
      simp [Scan.shut, hacc]
    refine ⟨_, onScan_run hrelease, ?_⟩
    rw [hheld, ← hprogress]
    exact .putMachine hi (by simp [Memory.setAllocator]) (by simp [Memory.setAllocator])
  | some b =>
    have hheld : st.heldBy [i] = [b] := by simp [heldBy, hacc]
    have hb := Memory.release_arena b ha
    have ha' : ((st.host.memory.setAllocator (st.scan i).scanner.allocator
        (.arena (x.dropBuffer b))).updateBuffer b Buffer.markReleased).allocator
          (st.scan i).scanner.allocator = .arena (x.dropBuffer b) :=
      Memory.allocator_setAllocator_self _ hlt
    have hcontext := Memory.releaseContext_arena (st.scan i).scanner.id ha'
    rw [Arena.dropContext_of_nil (x := x.dropBuffer b) hx] at hcontext
    have hrelease := Scanner.release_of_left (m := ⟨(st.scan i).progress, st.host⟩) hopen
      (Scanner.leaveQuoted_of_held hacc hb) hcontext
    refine ⟨_, onScan_run hrelease, ?_⟩
    rw [hheld]
    refine .putMachine hi ?_ fun c => ?_
    · simp [Memory.setAllocator, Memory.updateBuffer, Arena.dropBuffer]
    · simp only [Memory.setAllocator, Memory.updateBuffer, List.getElem?_modify,
        List.mem_singleton]
      by_cases hc : b = c
      · simp [hc]
      · simp [hc, Ne.symm hc]

/-- Open scans whose contexts their arena has let go give up their buffers, each what it holds. -/
theorem releaseContexts_run (ha : st.host.memory.allocator a = .arena x) (hx : x.contexts = [])
    (hnodup : is.Nodup) (his : ∀ i ∈ is, i < st.scans.length ∧
      (st.scan i).scanner.allocator = a ∧ (st.scan i).progress.closed = false) :
    ∃ st₁, releaseContexts is st = .ok () st₁ ∧
      Surrendered a { x with live := x.live.filter (· ∉ st.heldBy is) } is (st.heldBy is)
        st st₁ := by
  induction is generalizing st x with
  | nil =>
    refine ⟨st, rfl, fun i => by simp, ?_, fun b => by simp [heldBy]⟩
    have hlt := Memory.lt_of_arena ha
    have hself : st.host.memory.allocators[a] = .arena x := by
      simpa [Memory.allocator, hlt] using ha
    simp [heldBy, ← hself]
  | cons i is ih =>
    obtain ⟨hnot, hnodup⟩ := List.nodup_cons.mp hnodup
    obtain ⟨hi, hallocator, hopen⟩ := his i (List.mem_cons_self ..)
    obtain ⟨st₁, hr, hfirst⟩ := release_run ha hx hi hallocator hopen
    -- The scans that are left are the same as before.
    have hsame : ∀ j ∈ is, st₁.scan j = st.scan j := fun j hj =>
      hfirst.scan_of_not_mem fun hji => hnot (List.mem_singleton.mp hji ▸ hj)
    have hheld : st₁.heldBy is = st.heldBy is := by
      unfold heldBy
      exact List.flatMap_congr fun j hj => by rw [hsame j hj]
    obtain ⟨st₂, hrs, hrest⟩ := ih (hfirst.allocator (Memory.lt_of_arena ha)) hx hnodup
      fun j hj => by
        obtain ⟨hlt, hrest⟩ := his j (List.mem_cons_of_mem _ hj)
        rw [hsame j hj, hfirst.length_scans]
        exact ⟨hlt, hrest⟩
    refine ⟨st₂, (run_bind_ok hr).trans hrs, ?_⟩
    have htotal := hfirst.trans hrest
    have happend : st.heldBy (i :: is) = st.heldBy [i] ++ st.heldBy is := by simp [heldBy]
    rw [hheld, List.filter_filter] at htotal
    have hlive : x.live.filter (· ∉ st.heldBy [i] ++ st.heldBy is) =
        x.live.filter (fun b => decide (b ∉ st.heldBy is) && decide (b ∉ st.heldBy [i])) :=
      List.filter_congr fun b _ => by grind
    rw [happend, hlive]
    exact htotal

theorem releaseBuffers_run (ha : st.host.memory.allocator a = .arena x) :
    ∃ st₁, releaseAll.releaseBuffers a st = .ok x.live.length st₁ ∧
      Surrendered a { x with live := [] } [] x.live st st₁ := by
  rw [releaseAll.releaseBuffers, run_bind_get, ha]
  refine ⟨_, onMemory_run (Memory.releaseLive_run a x _), fun i => by simp, ?_, fun b => ?_⟩
  · exact Memory.allocators_markAll _ _
  · exact Memory.buffers_markAll _ _ b

/-- The buffers in an arena's care that none of the scans holds whose contexts are in its care. -/
def looseBuffers (st : Store) (x : Arena) : List BufferId :=
  x.live.filter (· ∉ st.heldBy x.contexts)

theorem mem_released (hb : b ∈ x.live) : b ∈ st.heldBy x.contexts ++ st.looseBuffers x := by
  by_cases hheld : b ∈ st.heldBy x.contexts
  · exact List.mem_append_left _ hheld
  · exact List.mem_append_right _ (List.mem_filter.mpr ⟨hb, by simpa using hheld⟩)

/-- If its contexts are those of open scans, an arena gives up everything, and counts its contexts
and the buffers that none of these scans holds. -/
theorem releaseAll_run (ha : st.host.memory.allocator a = .arena x) (hnodup : x.contexts.Nodup)
    (hopened : ∀ i ∈ x.contexts, i < st.scans.length ∧
      (st.scan i).scanner.allocator = a ∧ (st.scan i).progress.closed = false) :
    ∃ st₁, releaseAll a st = .ok (x.contexts.length + (st.looseBuffers x).length) st₁ ∧
      Surrendered a { x with contexts := [], live := [] } x.contexts
        (st.heldBy x.contexts ++ st.looseBuffers x) st st₁ := by
  have hlt := Memory.lt_of_arena ha
  have hcleared := Surrendered.setArena st a { x with contexts := [] }
  obtain ⟨st₂, hcontexts, hclosed⟩ := releaseContexts_run
    (hcleared.allocator hlt) rfl hnodup hopened
  have hclosed' := hcleared.trans hclosed
  obtain ⟨st₃, hbuffers, hreleased⟩ := releaseBuffers_run (hclosed'.allocator hlt)
  have htotal := hclosed'.trans hreleased
  rw [List.append_nil] at htotal
  have hput : onMemory (Memory.putArena a { x with contexts := [] }) st =
      .ok () (st.setArena a { x with contexts := [] }) := rfl
  rw [releaseAll, run_bind_get, ha]
  dsimp only
  rw [run_bind_ok hput, run_bind_ok hcontexts, run_bind_ok hbuffers]
  split
  · exact ⟨_, rfl, htotal.scans, htotal.allocators, htotal.buffers⟩
  · exact ⟨_, rfl, htotal⟩

/-- An arena that gave up everything is closed after that, which does not fail. -/
theorem closeArena_of_releaseAll {n : Nat} (hr : releaseAll a st = .ok n st₁)
    (ha : st₁.host.memory.allocator a = .arena x) :
    closeArena a st = .ok () (st₁.setArena a { x with closed := true }) := by
  rw [closeArena, run_bind_ok hr, markClosed, run_bind_get, ha]
  rfl

/-! ## Every arena that a program uses -/

/-- What is in an arena's care stands in the books. -/
theorem contexts_estate (ha : st.host.memory.allocator a = .arena x) :
    st.estate.books.contexts a = x.contexts := by
  rw [estate, Books.contexts, Memory.care?_books, ha]
  rfl

theorem live_estate (ha : st.host.memory.allocator a = .arena x) :
    st.estate.books.live a = x.live := by
  rw [estate, Books.live, Memory.care?_books, ha]
  rfl

theorem of_standing {z : Standing} (hz : st.estate.scans[i]? = some z) :
    i < st.scans.length ∧ (st.scan i).standing = z := by
  rw [estate, List.getElem?_map] at hz
  obtain ⟨y, hy, rfl⟩ := Option.map_eq_some_iff.mp hz
  exact ⟨(List.getElem?_eq_some_iff.mp hy).1, by simp [scan, hy]⟩

theorem opened_of_attributed (h : st.estate.Attributed a)
    (ha : st.host.memory.allocator a = .arena x) (hi : i ∈ x.contexts) :
    i < st.scans.length ∧ (st.scan i).scanner.allocator = a ∧
      (st.scan i).progress.closed = false := by
  rw [← contexts_estate ha] at hi
  obtain ⟨z, hz, hallocator, hopen⟩ := h.opened i hi
  obtain ⟨hlt, rfl⟩ := of_standing hz
  exact ⟨hlt, hallocator, hopen⟩

/-- An operation is about what there is, and puts no context in the care of an arena by hand. -/
def LeavesContexts (a : AllocatorId) (st : Store) (op : Operation) : Prop :=
  op.Known st ∧ ∀ i, op ≠ .acquireContext a i

theorem attributed_after {ops : List Operation} (hops : Along (LeavesContexts a) st ops)
    (h : st.estate.Attributed a) : (st.after ops).estate.Attributed a := by
  refine after_induction (I := fun st => st.estate.Attributed a) (fun st op hop h => ?_) hops h
  exact h.changes (op.changes_perform hop.1 fun a' i hi ha' => hop.2 i (ha' ▸ hi))

theorem attributed_initial : initial.estate.Attributed a := by
  have hcare : initial.estate.books.care? a = none := by
    rw [estate, Memory.care?_books]
    cases a <;> rfl
  refine ⟨fun _ _ hx => ?_, ?_, ?_, ?_, ?_⟩
  · cases hx
  all_goals simp [Books.contexts, Books.live, hcare]

theorem isShut_after {ops : List Operation} (hops : Along Operation.Known st ops)
    (h : st.estate.IsShut i) : (st.after ops).estate.IsShut i := by
  refine after_induction (I := fun st => st.estate.IsShut i) (fun st op hop h => ?_) hops h
  have hchanges : ReflTransGen (Estate.Change fun _ => True) st.estate
      (leftBy op.perform st).estate := op.changes_perform hop fun _ _ _ => trivial
  exact h.changes hchanges

/-- Whenever an arena whose contexts are those of scans gives up everything in its care, all these
scans are closed, with their cursor, line count, text matched last and error as they were, no other
scan changes, and all buffers in its care are given back. It counts its contexts and the buffers that
none of these scans held, keeps its counts of characters and copies, and then has nothing in its care,
so that giving up everything again counts nothing. Whatever is done afterwards, a pull of one of these
scans fails. -/
theorem releaseAll_complete {ops : List Operation} (hops : Along (LeavesContexts a) initial ops)
    (ha : (initial.after ops).host.memory.allocator a = .arena x) :
    ∃ st', releaseAll a (initial.after ops) =
        .ok (x.contexts.length + ((initial.after ops).looseBuffers x).length) st' ∧
      x.contexts.Nodup ∧ x.live.Nodup ∧
      (∀ i ∈ x.contexts, ((initial.after ops).scan i).progress.closed = false ∧
        st'.scan i = ((initial.after ops).scan i).shut) ∧
      (∀ i ∉ x.contexts, st'.scan i = (initial.after ops).scan i) ∧
      (∀ b ∈ x.live, b < (initial.after ops).host.memory.buffers.length ∧
        st'.host.memory.buffer b = ((initial.after ops).host.memory.buffer b).markReleased) ∧
      st'.host.memory.allocator a = .arena { x with contexts := [], live := [] } ∧
      (∃ st'', releaseAll a st' = .ok 0 st'') ∧
      ∀ later, Along Operation.Known st' later → ∀ i ∈ x.contexts, ∃ name st'',
        onScan i Scanner.pull (st'.after later) = .error (.scannerClosed name) st'' := by
  have hattributed : (initial.after ops).estate.Attributed a :=
    attributed_after hops attributed_initial
  have hopened := fun i (hi : i ∈ x.contexts) => opened_of_attributed hattributed ha hi
  have honce : x.contexts.Nodup := contexts_estate ha ▸ hattributed.once
  have hdistinct : x.live.Nodup := live_estate ha ▸ hattributed.distinct
  generalize initial.after ops = st at *
  have hknown : ∀ b ∈ x.live, b < st.host.memory.buffers.length := fun b hb =>
    Memory.length_titles _ ▸ hattributed.known b (live_estate ha ▸ hb)
  obtain ⟨st', hr, hsurrendered⟩ := releaseAll_run ha honce hopened
  have ha' := hsurrendered.allocator (Memory.lt_of_arena ha)
  refine ⟨st', hr, honce, hdistinct, fun i hi => ⟨(hopened i hi).2.2,
    hsurrendered.scan_of_mem hi (hopened i hi).1⟩, fun i hi => hsurrendered.scan_of_not_mem hi,
    fun b hb => ?_, ha', ?_, fun later hlater i hi => ?_⟩
  · exact ⟨hknown b hb, hsurrendered.buffer_of_mem (mem_released hb) (hknown b hb)⟩
  · obtain ⟨st'', hr', -⟩ := releaseAll_run ha' .nil nofun
    exact ⟨st'', hr'⟩
  · have hshut : st'.estate.IsShut i := by
      refine ⟨(st.scan i).shut.standing, ?_, rfl⟩
      rw [estate, List.getElem?_map, hsurrendered.scans]
      simp [scan, hi, (hopened i hi).1]
    obtain ⟨z, hz, hclosed⟩ := isShut_after hlater hshut
    obtain ⟨-, rfl⟩ := of_standing hz
    exact ⟨_, _, onScan_error (Scanner.pull_of_closed hclosed)⟩

/-- Of two scans, one holds a buffer, and another buffer was handed out to the program. -/
theorem releaseAll_complete_two_scans :
    let ops : List Operation := [.newArena "scope",
      .start .initial (some .standby) ⟨['"', 'a'], some 1, .nothing⟩,
      .start .initial (some .bootstrap) ⟨['a'], some 1, .nothing⟩,
      .handle 0 .enterQuoted, .allocate 1 8]
    let x : Arena := ⟨"scope", false, [0, 1], [0, 1], 72, 0, 0⟩
    Along (LeavesContexts 1) initial ops ∧
      (initial.after ops).host.memory.allocator 1 = .arena x ∧
      ∃ st', releaseAll 1 (initial.after ops) = .ok 3 st' ∧
        st'.host.memory.allocator 1 = .arena { x with contexts := [], live := [] } ∧
        ∃ st'', releaseAll 1 st' = .ok 0 st'' := by
  intro ops x
  have hops : Along (LeavesContexts 1) initial ops := by
    refine ⟨⟨trivial, nofun⟩, ⟨?_, nofun⟩, ⟨?_, nofun⟩, ⟨?_, nofun⟩, ⟨?_, nofun⟩, trivial⟩ <;>
      decide +kernel
  have ha : (initial.after ops).host.memory.allocator 1 = .arena x := rfl
  have hcount : x.contexts.length + ((initial.after ops).looseBuffers x).length = 3 := by
    decide +kernel
  obtain ⟨st', hr, -, -, -, -, -, ha', hagain, -⟩ := releaseAll_complete hops ha
  exact ⟨hops, ha, st', hcount ▸ hr, ha', hagain⟩

end Store

end MiniLex
