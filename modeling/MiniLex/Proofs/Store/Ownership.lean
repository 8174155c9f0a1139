import MiniLex.Proofs.Memory.Order
import MiniLex.Proofs.Store.BulkRelease

/-!
# Who owns what

Where a program leaves contexts to its scans and gives buffers back to their
owners, an arena has in its care exactly the contexts of the open scans that
have it as their allocator, and exactly the buffers that it has handed out and
that have not been given back (`Estate.InOrder`). Routine steps keep this
(`InOrder.routine`), and so does an arena that gives up everything
(`InOrder.giveUp`), although it lets all contexts go before it closes the first
of their scans.
-/

namespace MiniLex

open Relation (ReflTransGen)

/-- The allocator of a scan is there, has the scan's context in its care if it is an arena and the
scan is open, and owns the buffer that the scan holds. -/
structure Standing.InPlace (x : Standing) (v : Books) (i : ScanId) : Prop where
  allocator : x.allocator < v.cares.length
  held : ∀ b ∈ x.held, ∃ r, v.title? b = some ⟨x.allocator, r⟩
  context : x.closed = false → v.IsArena x.allocator → i ∈ v.contexts x.allocator

namespace Standing.InPlace

variable {x : Standing} {v w : Books} {i : ScanId}

theorem grow (h : x.InPlace v i) (hw : v.Grows w)
    (hcontexts : i ∈ v.contexts x.allocator → i ∈ w.contexts x.allocator) : x.InPlace w i where
  allocator := Nat.lt_of_lt_of_le h.allocator hw.cares
  held b hb := by
    obtain ⟨r, hr⟩ := h.held b hb
    exact hw.owners hr
  context hopen harena := hcontexts (h.context hopen (hw.isArena h.allocator harena))

end Standing.InPlace

namespace Estate

variable {v v' : Estate} {a : AllocatorId} {i : ScanId} {x : Standing} {w : Books} {bs : List BufferId}
  {closed : Bool} {held : Option BufferId}

/-- An arena has given up everything in its care, which closes the scans whose contexts it has. -/
def giveUp (v : Estate) (a : AllocatorId) (bs : List BufferId) : Estate where
  books := v.books.giveUp a bs
  scans := v.scans.mapIdx fun i y =>
    if i ∈ v.books.contexts a then { y with closed := true, held := none } else y

/-- The books are in order, and every scan is in place in them. -/
structure InOrder (v : Estate) : Prop where
  attributed : ∀ a, v.Attributed a
  books : v.books.InOrder
  placed : ∀ i (x : Standing), v.scans[i]? = some x → x.InPlace v.books i

namespace InOrder

/-- One scan changes where it stands. -/
theorem placed_put (h : ∀ j (y : Standing), i ≠ j → v.scans[j]? = some y → y.InPlace w j)
    (hx : v.scans[i]? = some x)
    (hplaced : Standing.InPlace { x with closed := closed, held := held } w i) (j : ScanId)
    (y : Standing) (hy : (v.put i w closed held).scans[j]? = some y) : y.InPlace w j := by
  by_cases hj : i = j
  · subst hj
    rw [scans_put_self hx] at hy
    cases hy
    exact hplaced
  · rw [scans_put_of_ne hj] at hy
    exact h j y hj hy

theorem begin (h : v.InOrder) (ha : a < v.books.cares.length) (hopen : v.books.Open a) :
    (v.begin a).InOrder := by
  refine ⟨fun a' => (h.attributed a').begin a, h.books.enroll hopen, fun i x hx => ?_⟩
  have hlength : (v.books.enroll a v.scans.length).cares.length = v.books.cares.length :=
    Books.length_alter
  rcases Nat.lt_trichotomy i v.scans.length with hi | rfl | hi
  · rw [Estate.begin, List.getElem?_append_left hi] at hx
    exact (h.placed i x hx).grow Books.grows_alter fun hi => Books.mem_contexts_enroll.mpr (.inl hi)
  · rw [Estate.begin, List.getElem?_concat_length] at hx
    cases hx
    refine ⟨hlength ▸ ha, fun b hb => absurd hb (Option.not_mem_none b), fun _ harena => ?_⟩
    exact Books.mem_contexts_enroll.mpr (.inr ⟨rfl, Books.isArena_alter.mp harena, rfl⟩)
  · rw [Estate.begin, List.getElem?_eq_none (by simpa [Nat.succ_le_iff] using hi)] at hx
    cases hx

theorem enter (h : v.InOrder) (hx : v.scans[i]? = some x) (hopen : v.books.Open x.allocator) :
    (v.put i (v.books.handOut x.allocator) x.closed (some v.books.titles.length)).InOrder := by
  have hbooks := h.books.handOut (h.placed i x hx).allocator hopen
  have hgrow : ∀ j (y : Standing), v.scans[j]? = some y →
      y.InPlace (v.books.handOut x.allocator) j := fun j y hy =>
    (h.placed j y hy).grow Books.grows_handOut fun hj => by rwa [Books.contexts_handOut]
  refine ⟨fun a => ((h.attributed a).handOut _).put hx (.inl rfl), hbooks,
    placed_put (fun j y _ => hgrow j y) hx ⟨(hgrow i x hx).allocator, fun b hb => ?_,
      (hgrow i x hx).context⟩⟩
  cases hb
  exact ⟨false, Books.title?_handOut.mpr (.inr ⟨rfl, rfl⟩)⟩

theorem leave {b : BufferId} (h : v.InOrder) (hx : v.scans[i]? = some x) (hb : x.held = some b) :
    (v.put i (v.books.takeBack x.allocator b) x.closed none).InOrder := by
  obtain ⟨r, hr⟩ := (h.placed i x hx).held b hb
  have hgrow : ∀ j (y : Standing), v.scans[j]? = some y →
      y.InPlace (v.books.takeBack x.allocator b) j := fun j y hy =>
    (h.placed j y hy).grow Books.grows_takeBack fun hj => by rwa [Books.contexts_takeBack]
  exact ⟨fun a => ((h.attributed a).takeBack _ _).put hx (.inl rfl), h.books.takeBack hr,
    placed_put (fun j y _ => hgrow j y) hx
      ⟨(hgrow i x hx).allocator, nofun, (hgrow i x hx).context⟩⟩

theorem shut (h : v.InOrder) (hx : v.scans[i]? = some x) :
    (v.put i (v.books.discharge x.allocator x.id) true x.held).InOrder := by
  have hid : x.id = i := (h.attributed 0).numbered i x hx
  have hgrow : v.books.Grows (v.books.discharge x.allocator x.id) := Books.grows_alter
  refine ⟨fun a => (h.attributed a).shut hx, h.books.discharge,
    placed_put (fun j y hj hy => (h.placed j y hy).grow hgrow fun hmem => ?_) hx
      ⟨Nat.lt_of_lt_of_le (h.placed i x hx).allocator hgrow.cares, fun b hb => ?_, nofun⟩⟩
  · exact Books.mem_contexts_discharge.mpr ⟨hmem, fun heq => hj (hid ▸ heq.2.symm)⟩
  · obtain ⟨r, hr⟩ := (h.placed i x hx).held b hb
    exact hgrow.owners hr

theorem routine (h : v.InOrder) (hv : Routine v v') : v'.InOrder := by
  cases hv with
  | join hc =>
    refine ⟨fun a => (h.attributed a).join hc, h.books.join hc, fun i x hx => ?_⟩
    exact (h.placed i x hx).grow Books.grows_join fun hi => by rwa [Estate.join, Books.contexts_join hc]
  | handOut ha hopen =>
    refine ⟨fun a => (h.attributed a).handOut _, h.books.handOut ha hopen, fun i x hx => ?_⟩
    exact (h.placed i x hx).grow Books.grows_handOut fun hi => by rwa [Books.contexts_handOut]
  | begin ha hopen => exact h.begin ha hopen
  | enter hx hopen => exact h.enter hx hopen
  | leave hx hb => exact h.leave hx hb
  | shut hx => exact h.shut hx

/-- A buffer is given back by hand. -/
theorem takeBack {b : BufferId} {r : Bool} (h : v.InOrder) (hb : v.books.title? b = some ⟨a, r⟩) :
    InOrder { v with books := v.books.takeBack a b } := by
  refine ⟨fun a' => (h.attributed a').takeBack a b, h.books.takeBack hb, fun i x hx => ?_⟩
  exact (h.placed i x hx).grow Books.grows_takeBack fun hi => by rwa [Books.contexts_takeBack]

theorem giveUp (h : v.InOrder) (hown : ∀ b ∈ bs, ∃ r, v.books.title? b = some ⟨a, r⟩)
    (hall : ∀ b ∈ v.books.live a, b ∈ bs) (hattributed : ∀ a', (v.giveUp a bs).Attributed a') :
    (v.giveUp a bs).InOrder := by
  refine ⟨hattributed, h.books.giveUp hown hall, fun i y hy => ?_⟩
  obtain ⟨x, hx, rfl⟩ : ∃ x, v.scans[i]? = some x ∧
      (if i ∈ v.books.contexts a then { x with closed := true, held := none } else x) = y := by
    simpa [Estate.giveUp, Option.map_eq_some_iff] using hy
  have hgrow : v.books.Grows (v.books.giveUp a bs) := Books.grows_giveUp
  by_cases hi : i ∈ v.books.contexts a
  · rw [if_pos hi]
    exact ⟨Nat.lt_of_lt_of_le (h.placed i x hx).allocator hgrow.cares, nofun, nofun⟩
  · rw [if_neg hi]
    refine (h.placed i x hx).grow hgrow fun hmem => ?_
    have hne : a ≠ x.allocator := fun ha => hi (ha ▸ hmem)
    show i ∈ (v.books.giveUp a bs).contexts x.allocator
    rwa [Books.contexts_giveUp, if_neg hne]

theorem close (h : v.InOrder) (hcontexts : v.books.contexts a = []) (hlive : v.books.live a = []) :
    InOrder { v with books := v.books.close a } := by
  refine ⟨fun a' => (h.attributed a').shrink a fun _ => ⟨.refl _, .refl _⟩,
    h.books.close hcontexts hlive, fun i x hx => ?_⟩
  exact (h.placed i x hx).grow Books.grows_alter fun hi => by rwa [Books.contexts_close]

end InOrder

end Estate

namespace Store

variable {st st' : Store} {a : AllocatorId} {x : Arena} {bs : List BufferId} {i : ScanId}
  {b : BufferId} {op : Operation}

theorem estate_of_surrendered (ha : st.host.memory.allocator a = .arena x)
    (h : Surrendered a { x with contexts := [], live := [] } x.contexts bs st st') :
    st'.estate = st.estate.giveUp a bs := by
  have hcares : st'.host.memory.allocators.map Allocator.care =
      (st.estate.books.giveUp a bs).cares := by
    have hbooks : (st.host.memory.setAllocator a (.arena { x with contexts := [], live := [] })).books =
        st.host.memory.books.alter a fun c => { c with contexts := [], live := [] } :=
      Memory.books_setAllocator (by rw [ha]; rfl)
    rw [h.allocators]
    exact congrArg Books.cares hbooks
  have htitles : st'.host.memory.buffers.map Buffer.title =
      (st.estate.books.giveUp a bs).titles := by
    refine List.ext_getElem? fun b => ?_
    simp only [Books.giveUp, estate, Memory.books, List.getElem?_map, List.getElem?_mapIdx,
      h.buffers, Option.map_map]
    congr 1
    funext y
    by_cases hb : b ∈ bs <;> simp [hb, Buffer.title, Buffer.markReleased]
  have hscans : st'.scans.map Scan.standing = (st.estate.giveUp a bs).scans := by
    refine List.ext_getElem? fun i => ?_
    simp only [Estate.giveUp, contexts_estate ha, List.getElem?_map, List.getElem?_mapIdx, h.scans]
    simp only [estate, List.getElem?_map, Option.map_map]
    congr 1
    funext y
    by_cases hi : i ∈ x.contexts <;> simp [hi, Scan.standing, Scan.shut]
  rw [estate, Memory.books, hcares, htitles, hscans]
  rfl

/-- If everything is in order, an arena that gives up everything leaves it so. -/
theorem releaseAll_inOrder (h : st.estate.InOrder) (ha : st.host.memory.allocator a = .arena x) :
    ∃ n st', releaseAll a st = .ok n st' ∧ st'.estate.InOrder ∧
      st'.host.memory.allocator a = .arena { x with contexts := [], live := [] } := by
  have hopened := fun i (hi : i ∈ x.contexts) => opened_of_attributed (h.attributed a) ha hi
  have harena : st.estate.books.IsArena a := by
    rw [Books.IsArena, estate, Memory.care?_books, ha]
    rfl
  obtain ⟨st', hr, hsurrendered⟩ :=
    releaseAll_run ha (contexts_estate ha ▸ (h.attributed a).once) hopened
  have hestate := estate_of_surrendered ha hsurrendered
  refine ⟨_, st', hr, ?_, hsurrendered.allocator (Memory.lt_of_arena ha)⟩
  rw [hestate]
  refine h.giveUp (fun b hb => ?_) (fun b hb => ?_) fun a' => ?_
  · rcases List.mem_append.mp hb with hb | hb
    · obtain ⟨i, hi, hheld⟩ := List.mem_flatMap.mp hb
      obtain ⟨hlt, hallocator, -⟩ := hopened i hi
      have hplaced := h.placed i _ (standing_scan hlt)
      exact hallocator ▸ hplaced.held b (by simpa [Scan.standing] using hheld)
    · have hlive : b ∈ st.estate.books.live a := live_estate ha ▸ (List.mem_filter.mp hb).1
      exact ⟨false, (h.books.live harena b).mp hlive⟩
  · rw [live_estate ha] at hb
    exact mem_released hb
  · have hchanges : ReflTransGen (Estate.Change (· ≠ a')) st.estate
        (leftBy (releaseAll a) st).estate := changes_releaseAll a st
    rw [leftBy_of_ok hr, hestate] at hchanges
    exact (h.attributed a').changes hchanges

/-- Contexts are left to the scans, and buffers are given back to their owners. -/
def Orderly (st : Store) (op : Operation) : Prop :=
  op.Known st ∧ match op with
    | .release a b => (st.host.memory.buffer b).owner = a
    | .acquireContext .. | .releaseContext .. | .newBuffer .. | .markReleased .. => False
    | _ => True

theorem title?_estate (st : Store) (hb : b < st.host.memory.buffers.length) :
    st.estate.books.title? b = some (st.host.memory.buffer b).title := by
  simp [estate, Memory.books, Books.title?, Memory.buffer, hb]

theorem inOrder_release (h : st.estate.InOrder) (hb : b < st.host.memory.buffers.length) :
    (leftBy (onMemory (Memory.release (st.host.memory.buffer b).owner b)) st).estate.InOrder := by
  rw [estate_onMemory]
  rcases Memory.release_cases (st.host.memory.buffer b).owner b st.host.memory with
    ⟨memory, hr, hbooks⟩ | ⟨fault, memory, hr, hbooks⟩
  · rw [leftBy_of_ok hr, hbooks]
    exact h.takeBack (title?_estate st hb)
  · rwa [leftBy_of_error hr, hbooks]

theorem inOrder_releaseAll (h : st.estate.InOrder) (a : AllocatorId) :
    (leftBy (releaseAll a) st).estate.InOrder := by
  cases ha : st.host.memory.allocator a with
  | heap | recorder r =>
    rw [releaseAll, leftBy_bind_get, ha]
    exact h
  | arena x =>
    obtain ⟨n, st', hr, h', -⟩ := releaseAll_inOrder h ha
    rwa [leftBy_of_ok hr]

theorem inOrder_closeArena (h : st.estate.InOrder) (a : AllocatorId) :
    (leftBy (closeArena a) st).estate.InOrder := by
  cases ha : st.host.memory.allocator a with
  | heap | recorder r =>
    have hr : releaseAll a st = .ok 0 st := by
      rw [releaseAll, run_bind_get, ha]
      rfl
    rw [closeArena, leftBy_bind_ok hr, markClosed, leftBy_bind_get, ha]
    exact h
  | arena x =>
    obtain ⟨n, st', hr, h', ha'⟩ := releaseAll_inOrder h ha
    rw [closeArena, leftBy_bind_ok hr, markClosed, leftBy_bind_get, ha']
    have hestate := estate_setArena (y := { x with contexts := [], live := [], closed := true })
      (fun c => { c with closed := true }) ha' rfl
    show (st'.setArena a _).estate.InOrder
    rw [hestate]
    exact h'.close (contexts_estate ha') (live_estate ha')

theorem inOrder_perform (h : st.estate.InOrder) (hop : Orderly st op) :
    (leftBy op.perform st).estate.InOrder := by
  obtain ⟨hk, hop⟩ := hop
  have hroutine (hr : op.IsRoutine) : (leftBy op.perform st).estate.InOrder := by
    have hsteps := Operation.routine_perform hr hk
    generalize (leftBy op.perform st).estate = v at hsteps
    induction hsteps with
    | refl => exact h
    | tail _ hstep ih => exact ih.routine hstep
  cases op with
  | release a b =>
    subst hop
    exact inOrder_release h hk.2
  | releaseAll a =>
    rw [Operation.perform, leftBy_bind_return]
    exact inOrder_releaseAll h a
  | closeArena a => exact inOrder_closeArena h a
  | acquireContext | releaseContext | newBuffer | markReleased => exact hop.elim
  | _ => exact hroutine trivial

theorem inOrder_initial : initial.estate.InOrder := by
  have hcare : ∀ a, initial.estate.books.care? a = none := fun a => by
    rw [estate, Memory.care?_books]
    cases a <;> rfl
  refine ⟨fun _ => attributed_initial, ⟨fun hb => ?_, fun {a} ha => ?_, fun a => ?_⟩,
    fun _ _ hx => ?_⟩
  · cases hb
  · rw [Books.IsArena, hcare] at ha
    cases ha
  · exact .inl fun c hc => absurd hc (by simp [hcare])
  · cases hx

/-- At any point of a program that leaves contexts to its scans and gives buffers back to their
owners, whatever has failed so far, an arena has in its care, each once, the contexts of the open
scans that have it as their allocator and the buffers that it has handed out and that have not been
given back. A closed arena has nothing in its care. -/
theorem arena_inOrder {ops : List Operation} (hops : Along Orderly initial ops)
    (ha : (initial.after ops).host.memory.allocator a = .arena x) :
    x.contexts.Nodup ∧
      (∀ i, i ∈ x.contexts ↔ i < (initial.after ops).scans.length ∧
        ((initial.after ops).scan i).scanner.allocator = a ∧
        ((initial.after ops).scan i).progress.closed = false) ∧
      x.live.Nodup ∧
      (∀ b, b ∈ x.live ↔ b < (initial.after ops).host.memory.buffers.length ∧
        ((initial.after ops).host.memory.buffer b).owner = a ∧
        ((initial.after ops).host.memory.buffer b).released = false) ∧
      (x.closed = true → x.contexts = [] ∧ x.live = []) := by
  have h : (initial.after ops).estate.InOrder :=
    after_induction (I := fun st => st.estate.InOrder) (fun _ _ hop h => inOrder_perform h hop)
      hops inOrder_initial
  generalize initial.after ops = st at *
  have harena : st.estate.books.IsArena a := by
    rw [Books.IsArena, estate, Memory.care?_books, ha]
    rfl
  have hcontexts := contexts_estate ha
  have hlive := live_estate ha
  refine ⟨hcontexts ▸ (h.attributed a).once, fun i => ⟨fun hi => ?_, fun hi => ?_⟩,
    hlive ▸ (h.attributed a).distinct, fun b => ?_, fun hx => ?_⟩
  · exact opened_of_attributed (h.attributed a) ha hi
  · obtain ⟨hlt, rfl, hopen⟩ := hi
    exact hcontexts ▸ (h.placed i _ (standing_scan hlt)).context hopen harena
  · rw [← hlive, h.books.live harena]
    by_cases hb : b < st.host.memory.buffers.length
    · rw [title?_estate st hb, Option.some.injEq, Buffer.title, Title.mk.injEq]
      exact (and_iff_right hb).symm
    · have hnone : st.estate.books.title? b = none := by
        simpa [estate, Memory.books, Books.title?] using hb
      simp [hnone, hb]
  · have hclosed : ¬st.estate.books.Open a := fun hopen => by
      have hc := hopen _ ((Memory.care?_books _ a).trans (by rw [ha]; rfl))
      rw [hx] at hc
      cases hc
    rw [← hcontexts, ← hlive]
    exact (h.books.closed a).resolve_left hclosed

/-- Of two scans, one is put in quoted mode by hand before it reads a name, and so loses a buffer; the
other one is released. Another buffer is handed out and given back. -/
theorem arena_inOrder_lost_buffer :
    let ops : List Operation := [.newArena "scope",
      .start .initial (some .standby) ⟨['"', 'a', '"'], some 1, .nothing⟩,
      .start .initial (some .bootstrap) ⟨['a'], some 1, .nothing⟩,
      .handle 0 .enterQuoted, .handle 0 .pull, .allocate 1 8, .release 1 2, .handle 1 .release]
    let st := initial.after ops
    Along Orderly initial ops ∧
      st.host.memory.allocator 1 = .arena ⟨"scope", false, [0], [0], 136, 1, 1⟩ ∧
      (∀ i, i ∈ [0] ↔ i < st.scans.length ∧ (st.scan i).scanner.allocator = 1 ∧
        (st.scan i).progress.closed = false) ∧
      ∀ b, b ∈ [0] ↔ b < st.host.memory.buffers.length ∧ (st.host.memory.buffer b).owner = 1 ∧
        (st.host.memory.buffer b).released = false := by
  intro ops st
  have hops : Along Orderly initial ops := by
    refine ⟨⟨?_, trivial⟩, ⟨?_, trivial⟩, ⟨?_, trivial⟩, ⟨?_, trivial⟩, ⟨?_, trivial⟩, ⟨?_, trivial⟩,
      ⟨?_, ?_⟩, ⟨?_, trivial⟩, trivial⟩ <;> decide +kernel
  have ha : st.host.memory.allocator 1 = .arena ⟨"scope", false, [0], [0], 136, 1, 1⟩ := rfl
  obtain ⟨-, hcontexts, -, hlive, -⟩ := arena_inOrder hops ha
  exact ⟨hops, ha, hcontexts, hlive⟩

end Store

end MiniLex
