import Mathlib.Logic.Relation
import MiniLex.Proofs.Store.Tending

/-!
# What belongs to whom

The `Estate` of a program is the books of its memory and, for each scan, where
it stands: its allocator, the buffer it holds, and whether it is closed. The
operations of a program change the estate by steps of a few kinds, and an
invariant of the estate is checked once for each kind:

* `Estate.Routine` are the steps of most operations, however they end;
* `Estate.Change` are these and the steps of interventions, by hand or in bulk.

Whatever is done with a scan comes to steps of the first kinds: `tends_reaches`.
-/

namespace MiniLex

open Relation (ReflTransGen)

/-- Where a scan stands with its allocator. -/
structure Standing where
  id : ScanId
  allocator : AllocatorId
  closed : Bool
  held : Option BufferId

/-- Where a scan stands with its allocator. -/
def Scan.standing (x : Scan) : Standing :=
  ⟨x.scanner.id, x.scanner.allocator, x.progress.closed, x.progress.accumulator⟩

/-- The books of a program and where its scans stand. -/
structure Estate where
  books : Books
  scans : List Standing

namespace Estate

/-- The estate after a scan has changed the books and where it stands. -/
def put (v : Estate) (i : ScanId) (books : Books) (closed : Bool) (held : Option BufferId) :
    Estate :=
  ⟨books, v.scans.modify i fun x => { x with closed := closed, held := held }⟩

/-- An allocator is added. -/
def join (v : Estate) (c : Option Care) : Estate :=
  { v with books := v.books.join c }

/-- A scan is started, and its context put in the care of its allocator. -/
def begin (v : Estate) (a : AllocatorId) : Estate :=
  ⟨v.books.enroll a v.scans.length, v.scans ++ [⟨v.scans.length, a, false, none⟩]⟩

/-- What operations do to the estate as a matter of routine. -/
inductive Routine (v : Estate) : Estate → Prop
  /-- An allocator is added, with nothing in its care. -/
  | join {c : Option Care} : (∀ y ∈ c, y = ⟨false, [], []⟩) → Routine v (v.join c)
  /-- A buffer is handed out. -/
  | handOut {a : AllocatorId} : a < v.books.cares.length → v.books.Open a →
    Routine v { v with books := v.books.handOut a }
  | begin {a : AllocatorId} : a < v.books.cares.length → v.books.Open a → Routine v (v.begin a)
  /-- A scan obtains a buffer, whether or not it holds one. -/
  | enter {i : ScanId} {x : Standing} : v.scans[i]? = some x → v.books.Open x.allocator →
    Routine v (v.put i (v.books.handOut x.allocator) x.closed (some v.books.titles.length))
  /-- A scan gives its buffer back. -/
  | leave {i : ScanId} {x : Standing} {b : BufferId} : v.scans[i]? = some x → x.held = some b →
    Routine v (v.put i (v.books.takeBack x.allocator b) x.closed none)
  /-- A scan gives up its context. -/
  | shut {i : ScanId} {x : Standing} : v.scans[i]? = some x →
    Routine v (v.put i (v.books.discharge x.allocator x.id) true x.held)

/-- What operations of any kind do to the estate, if contexts are put by hand in the care of such
allocators only. -/
inductive Change (free : AllocatorId → Prop) (v : Estate) : Estate → Prop
  | routine {v' : Estate} : Routine v v' → Change free v v'
  | enroll {a : AllocatorId} (i : ScanId) : free a →
    Change free v { v with books := v.books.enroll a i }
  /-- An arena lets go of some of what it has in its care. -/
  | shrink (a : AllocatorId) {f : Care → Care} :
    (∀ c, (f c).contexts.Sublist c.contexts ∧ (f c).live.Sublist c.live) →
    Change free v { v with books := v.books.alter a f }
  /-- There is a new buffer, of which its allocator does not know. -/
  | addTitle (a : AllocatorId) : Change free v { v with books := v.books.addTitle a }
  | markReleased (b : BufferId) : Change free v { v with books := v.books.markReleased b }

variable {v v' : Estate} {i j : ScanId} {x : Standing} {books books' : Books}
  {closed closed' : Bool} {held held' : Option BufferId} {free : AllocatorId → Prop}

theorem put_put :
    (v.put i books closed held).put i books' closed' held' = v.put i books' closed' held' := by
  simp [put, List.modify_modify_eq, Function.comp_def]

theorem scans_put_self (hx : v.scans[i]? = some x) :
    (v.put i books closed held).scans[i]? = some { x with closed := closed, held := held } := by
  simp [put, hx]

theorem scans_put_of_ne (h : i ≠ j) : (v.put i books closed held).scans[j]? = v.scans[j]? := by
  simp [put, h]

theorem put_self (hx : v.scans[i]? = some x) : v.put i v.books x.closed x.held = v := by
  have hscans :
      v.scans.modify i (fun y => { y with closed := x.closed, held := x.held }) = v.scans := by
    refine List.ext_getElem? fun j => ?_
    by_cases hj : i = j
    · subst hj
      simp [hx]
    · simp [hj]
  rw [put, hscans]

theorem changes_of_routine (h : ReflTransGen Routine v v') : ReflTransGen (Change free) v v' :=
  ReflTransGen.mono (fun _ _ => Change.routine) _ _ h

end Estate

namespace Store

variable {st : Store} {i : ScanId} {m m' : Machine} {v : Estate} {a : AllocatorId}

/-- The estate of a store. -/
def estate (st : Store) : Estate := ⟨st.host.memory.books, st.scans.map Scan.standing⟩

theorem estate_putMachine (st : Store) (i : ScanId) (m : Machine) :
    (st.putMachine i m).estate =
      st.estate.put i m.host.memory.books m.progress.closed m.progress.accumulator := by
  have hscans := map_modify (f := Scan.standing) (g := fun x => { x with progress := m.progress })
    (k := fun x => { x with closed := m.progress.closed, held := m.progress.accumulator })
    st.scans (fun _ => rfl) i
  rw [estate, Estate.put, putMachine, hscans, estate]

theorem standing_scan (hi : i < st.scans.length) :
    st.estate.scans[i]? = some (st.scan i).standing := by
  simp [estate, scan, hi]

/-! ## What scans do -/

/-- If a scan leaves this machine, the estate has changed by routine steps only. -/
def Reaches (st : Store) (i : ScanId) (v : Estate) (m : Machine) : Prop :=
  ReflTransGen Estate.Routine v (st.putMachine i m).estate

theorem standing_putMachine (m : Machine) (hi : i < st.scans.length) :
    (st.putMachine i m).estate.scans[i]? = some ⟨(st.scan i).scanner.id,
      (st.scan i).scanner.allocator, m.progress.closed, m.progress.accumulator⟩ := by
  simp [estate, putMachine, scan, hi, Scan.standing]

theorem estate_putMachine_again (st : Store) (i : ScanId) (m m' : Machine) :
    (st.putMachine i m').estate = (st.putMachine i m).estate.put i m'.host.memory.books
      m'.progress.closed m'.progress.accumulator := by
  rw [estate_putMachine st i m, Estate.put_put, estate_putMachine]

theorem Reaches.same (h : st.Reaches i v m) (hbooks : m'.host.memory.books = m.host.memory.books)
    (hclosed : m'.progress.closed = m.progress.closed)
    (hheld : m'.progress.accumulator = m.progress.accumulator) : st.Reaches i v m' := by
  rw [Reaches, estate_putMachine, hbooks, hclosed, hheld, ← estate_putMachine]
  exact h

theorem Reaches.step (h : st.Reaches i v m) (hstep : (st.putMachine i m).estate.Routine
    ((st.putMachine i m).estate.put i m'.host.memory.books m'.progress.closed
      m'.progress.accumulator)) : st.Reaches i v m' := by
  rw [← estate_putMachine_again] at hstep
  exact h.tail hstep

theorem Reaches.leave (h : st.Reaches i v m) (hi : i < st.scans.length) :
    st.Reaches i v (leftBy (st.scan i).scanner.leaveQuoted m) := by
  cases ha : m.progress.accumulator with
  | none =>
    rw [leftBy_of_ok (Scanner.leaveQuoted_of_none ha)]
    exact h.same rfl rfl rfl
  | some b =>
    rcases Memory.release_cases (st.scan i).scanner.allocator b m.host.memory with
      ⟨memory, hr, hbooks⟩ | ⟨fault, memory, hr, hbooks⟩
    · rw [leftBy_of_ok (Scanner.leaveQuoted_of_held ha hr)]
      refine h.step ?_
      rw [hbooks]
      exact .leave (standing_putMachine m hi) ha
    · rw [leftBy_of_error (Scanner.leaveQuoted_of_refused ha hr)]
      exact h.same hbooks rfl rfl

theorem Reaches.enter (h : st.Reaches i v m) (hi : i < st.scans.length) :
    st.Reaches i v (leftBy (st.scan i).scanner.enterQuoted m) := by
  rcases Memory.allocate_cases (st.scan i).scanner.allocator Buffer.initialCapacity
    m.host.memory with ⟨memory, hr, hopen, hbooks⟩ | ⟨fault, memory, hr, hbooks⟩
  · rw [leftBy_of_ok (Scanner.enterQuoted_of_granted hr)]
    refine h.step ?_
    rw [hbooks, ← Memory.length_titles]
    exact .enter (standing_putMachine m hi) hopen
  · rw [leftBy_of_error (Scanner.enterQuoted_of_refused hr)]
    exact h.same hbooks rfl rfl

theorem Reaches.shut (h : st.Reaches i v m) (hi : i < st.scans.length) :
    st.Reaches i v ⟨{ m.progress with closed := true }, { m.host with
      memory := leftBy (Memory.releaseContext (st.scan i).scanner.allocator
        (st.scan i).scanner.id) m.host.memory }⟩ := by
  refine h.step ?_
  rw [Memory.books_releaseContext]
  exact .shut (standing_putMachine m hi)

/-- Whatever is done with a scan, the estate changes by routine steps only. -/
theorem tends_reaches (hi : i < st.scans.length) :
    (st.scan i).scanner.Tends (st.Reaches i v) where
  same hsame hm := hm.same (by rw [hsame.memory]) hsame.closed hsame.held
  clone text m hm := by
    rw [Scanner.leftBy_onMemory]
    exact hm.same (Memory.books_clone _ text m.host.memory).symm rfl rfl
  append b text m hm := by
    rw [Scanner.leftBy_onMemory]
    exact hm.1.same (Memory.books_append b text m.host.memory).symm rfl rfl
  leave _ hm := hm.leave hi
  enter _ hm := hm.enter hi
  shut hm _ := hm.shut hi

theorem routine_onScan {α : Type} {act : Scanner → ScanM α} (hi : i < st.scans.length)
    (hact : Leads (st.Reaches i st.estate) (st.Reaches i st.estate) (act (st.scan i).scanner)) :
    ReflTransGen Estate.Routine st.estate (leftBy (onScan i act) st).estate := by
  rw [leftBy_onScan]
  refine hact _ ?_
  rw [Reaches, estate_putMachine]
  exact (Estate.put_self (standing_scan hi)).symm ▸ .refl

end Store

end MiniLex
