import MiniLex.Proofs.Memory.Books
import MiniLex.Proofs.Scan.Upkeep
import MiniLex.Proofs.Store.Operation
import MiniLex.Proofs.Store.Tokenize

/-!
# What scans keep true of a program

What a scan keeps true of the machine that it acts on, it keeps true whatever is
done with it (`Scanner.Tends.act`). What all scans of a program keep true of the
store (`Store.Handled`), every operation keeps true that does not start a scan
and does nothing by hand or in bulk (`Handled.perform`): scans are pulled and
closed through streams, together with others, or while a source is tokenized, but
nothing else is done with them. What arenas keep true as well that give up what
is in their care step by step (`Store.Tended`), operations in bulk also keep true
(`Tended.perform`). The scanners of a store (`Store.scanners`) are what scans were
started with: nothing that is done with a scan replaces one.
-/

namespace MiniLex

theorem Scanner.Tends.act {s : Scanner} {I : Machine → Prop} (t : s.Tends I) (h : Handling) :
    Leads I I (h.act s) := by
  cases h with
  | pull => exact t.pull.seq fun _ => leads_pure _
  | collect => exact t.collect.seq fun _ => leads_pure _
  | recordError complaint => exact (t.recordError complaint).seq fun _ => leads_pure _
  | noteError complaint => exact (t.noteError complaint).seq fun _ => leads_pure _
  | enterQuoted => exact t.enter.seq fun _ => leads_pure _
  | leaveQuoted => exact t.leave
  | release => exact t.release
  | close => exact t.close
  | finish => exact t.finish.seq fun _ => leads_pure _

/-! ## Closed scans -/

/-- A scan that is closed refuses this, or has nothing to do. -/
def Handling.NeedsOpen : Handling → Prop
  | .pull | .collect | .release | .close | .finish => True
  | .recordError _ | .noteError _ | .enterQuoted | .leaveQuoted => False

theorem Handling.leftBy_act_of_closed {h : Handling} {s : Scanner} {m : Machine}
    (hh : h.NeedsOpen) (hc : m.progress.closed = true) : leftBy (h.act s) m = m := by
  cases h with
  | pull =>
    rw [act, leftBy_bind_return]
    exact leftBy_of_error (Scanner.pull_of_closed hc)
  | collect =>
    rw [act, leftBy_bind_return, Scanner.collect, Scanner.collectUpTo]
    exact leftBy_bind_error (Scanner.pull_of_closed hc)
  | release => exact leftBy_of_ok (Scanner.release_of_closed hc)
  | close => exact leftBy_of_ok (Scanner.close_of_closed hc)
  | finish =>
    rw [act, leftBy_bind_return, Scanner.finish, leftBy_bind_ok (Scanner.close_of_closed hc)]
    rfl
  | recordError | noteError | enterQuoted | leaveQuoted => exact hh.elim

namespace Store

variable {st st' : Store} {i : ScanId} {a : AllocatorId} {b : BufferId} {x y : Arena}
  {J : Store → Prop}

/-- The store with another memory. -/
def withMemory (st : Store) (m : Memory) : Store := { st with host := { st.host with memory := m } }

theorem leftBy_onMemory {α : Type} (act : MemoryM α) (st : Store) :
    leftBy (onMemory act) st = st.withMemory (leftBy act st.host.memory) := by
  unfold leftBy onMemory
  cases act st.host.memory <;> rfl

/-- What an action keeps true of the memory, it keeps true in a store. -/
theorem leads_onMemory {α : Type} {P : Memory → Prop} {act : MemoryM α} (hact : Leads P P act) :
    Leads (fun st => P st.host.memory) (fun st => P st.host.memory) (onMemory act) := by
  intro st h
  rw [leftBy_onMemory]
  exact hact _ h

theorem leads_onMemory_return {α : Type} {P : Memory → Prop} {act : MemoryM α}
    (hact : Leads P P act) : Leads (fun st => P st.host.memory) (fun st => P st.host.memory)
      (do let _ ← onMemory act; return) :=
  (leads_onMemory hact).seq fun _ => leads_pure _

theorem putMachine_self (st : Store) (i : ScanId) :
    st.putMachine i ⟨(st.scan i).progress, st.host⟩ = st := by
  have hscans : st.scans.modify i (fun x => { x with progress := (st.scan i).progress }) =
      st.scans := by
    refine List.ext_getElem? fun j => ?_
    rw [List.getElem?_modify]
    by_cases hj : i = j
    · subst hj
      cases hx : st.scans[i]? with
      | none => rfl
      | some x => simp [scan, hx]
    · simp [hj]
  rw [putMachine, hscans]

theorem leftBy_onScan_of_closed {h : Handling} (hh : h.NeedsOpen)
    (hc : (st.scan i).progress.closed = true) : leftBy (onScan i h.act) st = st := by
  rw [leftBy_onScan, Handling.leftBy_act_of_closed hh hc, putMachine_self]

theorem onScan_pull_of_closed (hclosed : (st.scan i).progress.closed = true) :
    onScan i Scanner.pull st = .error (.scannerClosed (st.scan i).scanner.name) st := by
  rw [onScan_error (Scanner.pull_of_closed hclosed), putMachine_self]

theorem leftBy_handle_pull (i : ScanId) (st : Store) :
    leftBy (onScan i Handling.pull.act) st = leftBy (onScan i Scanner.pull) st := by
  rw [leftBy_onScan, leftBy_onScan, Handling.act, leftBy_bind_return]

theorem leftBy_handle_collect (i : ScanId) (st : Store) :
    leftBy (onScan i Handling.collect.act) st = leftBy (onScan i Scanner.collect) st := by
  rw [leftBy_onScan, leftBy_onScan, Handling.act, leftBy_bind_return]

/-- A scan that does not exist is as good as closed. -/
theorem closed_of_le (hi : st.scans.length ≤ i) : (st.scan i).progress.closed = true := by
  have hscan : st.scan i = default := by simp [scan, hi]
  rw [hscan]
  rfl

theorem lt_of_open (hopen : (st.scan i).progress.closed = false) : i < st.scans.length := by
  refine Nat.lt_of_not_le fun hle => ?_
  rw [closed_of_le hle] at hopen
  cases hopen

theorem scan_append_of_lt {x : Scan} (h : st'.scans = st.scans ++ [x]) (hi : i < st.scans.length) :
    st'.scan i = st.scan i := by
  simp [scan, h, List.getElem?_append_left hi]

theorem scan_append_last {x : Scan} (h : st'.scans = st.scans ++ [x]) :
    st'.scan st.scans.length = x := by
  simp [scan, h]

theorem scan_of_append {x : Scan} (h : st'.scans = st.scans ++ [x]) (i : ScanId) :
    st'.scan i = st.scan i ∨ st'.scan i = x := by
  rcases Nat.lt_trichotomy i st.scans.length with hi | rfl | hi
  · exact .inl (scan_append_of_lt h hi)
  · exact .inr (scan_append_last h)
  · have hnone : st.scans[i]? = none := List.getElem?_eq_none (Nat.le_of_lt hi)
    have hnone' : st'.scans[i]? = none :=
      List.getElem?_eq_none (by simpa [h] using Nat.succ_le_of_lt hi)
    exact .inl (by simp [scan, hnone, hnone'])

/-- A scan that is started is added, unless its allocator does not take the context. -/
theorem leftBy_start (e : Ambient) (rules : Option Language) (r : Request) (st : Store) :
    (leftBy (start e rules r) st).host.memory = leftBy (Memory.acquireContext
      (r.scanner e rules st.scans.length).allocator st.scans.length) st.host.memory ∧
    ((leftBy (start e rules r) st).scans =
        st.scans ++ [⟨r.scanner e rules st.scans.length, .initial⟩] ∨
      (leftBy (start e rules r) st).scans = st.scans) := by
  cases hr : Memory.acquireContext (r.scanner e rules st.scans.length).allocator st.scans.length
    st.host.memory with
  | ok u memory =>
    obtain ⟨st', hstart, hscans, hmemory⟩ := start_of_acquired hr
    rw [leftBy_of_ok hstart, leftBy_of_ok hr]
    exact ⟨hmemory, .inl hscans⟩
  | error fault memory =>
    rw [leftBy_of_error (start_of_refused hr), leftBy_of_error hr]
    exact ⟨rfl, .inr rfl⟩

/-- A source is tokenized by collecting a scan of it and closing the scan, whatever fails. -/
theorem leftBy_tokenize {e : Ambient} {l : Language} {r : Request}
    (hr : start e (some l) r st = .ok i st') : leftBy (tokenize e l r) st =
      leftBy (onScan i Scanner.close) (leftBy (onScan i Scanner.collect) st') := by
  rw [tokenize, leftBy_bind_ok hr, leftBy_tryFinally]

theorem leftBy_tokenize_of_refused {e : Ambient} {l : Language} {r : Request} {failure : Failure}
    (hr : start e (some l) r st = .error failure st') : leftBy (tokenize e l r) st = st' :=
  leftBy_bind_error hr

theorem leftBy_enterArena (a : AllocatorId) (st : Store) : leftBy (enterArena a) st = st := by
  rw [enterArena, leftBy_bind_get]
  split
  · rename_i x _
    rw [leftBy_onMemory, Memory.requireOpen]
    split <;> rfl
  · rfl

/-- What pulls keep true, and what does not depend on streams, streams keep true. -/
theorem leads_pullStream (hpull : ∀ i, Leads J J (onScan i Scanner.pull))
    (hfinish : ∀ s, Leads J J (finishStream s)) (s : StreamId) : Leads J J (pullStream s) := by
  refine leads_get.seq fun st => ?_
  dsimp only
  split
  · exact leads_pure _
  refine Leads.seq (Leads.tryCatch ?_ fun failure => ?_) fun result => ?_
  · refine (hpull _).seq fun token => ?_
    split
    · exact (hfinish s).seq fun _ => leads_pure _
    · exact leads_pure _
  · exact (hfinish s).seq fun _ => leads_throw _
  · cases result <;> exact leads_pure _

/-! ## Scanners -/

/-- The scanners of a store, in the order in which their scans were started. -/
def scanners (st : Store) : List Scanner := st.scans.map Scan.scanner

theorem scanner_eq (st : Store) (i : ScanId) :
    (st.scan i).scanner = st.scanners[i]?.getD (default : Scan).scanner := by
  rw [Store.scan, scanners, List.getElem?_map, List.getD_eq_getElem?_getD]
  cases st.scans[i]? <;> rfl

theorem length_scanners (st : Store) : st.scanners.length = st.scans.length := List.length_map ..

theorem scanners_putMachine (st : Store) (i : ScanId) (m : Machine) :
    (st.putMachine i m).scanners = st.scanners := by
  refine List.ext_getElem? fun j => ?_
  rw [scanners, scanners, putMachine, List.getElem?_map, List.getElem?_map, List.getElem?_modify]
  cases st.scans[j]? with
  | none => rfl
  | some x => by_cases hj : i = j <;> simp [hj]

theorem scanner_putMachine (st : Store) (i : ScanId) (m : Machine) (j : ScanId) :
    ((st.putMachine i m).scan j).scanner = (st.scan j).scanner := by
  rw [scanner_eq, scanners_putMachine, ← scanner_eq]

theorem scanners_onScan {α : Type} (i : ScanId) (act : Scanner → ScanM α) (st : Store) :
    (leftBy (onScan i act) st).scanners = st.scanners := by
  rw [leftBy_onScan]
  exact scanners_putMachine st i _

theorem scanners_of_scans (h : st'.scans = st.scans) : st'.scanners = st.scanners := by
  rw [scanners, h, scanners]

/-! ## Arenas that give up what is in their care -/

/-- An arena gives up all contexts, or all buffers, or is closed. -/
inductive GivesUp (x : Arena) : Arena → Prop
  | contexts : GivesUp x { x with contexts := [] }
  | live : GivesUp x { x with live := [] }
  | closed : GivesUp x { x with closed := true }

theorem GivesUp.charsReserved_eq (h : GivesUp x y) : y.charsReserved = x.charsReserved := by
  cases h <;> rfl

/-- What is true of a store and stays true while arenas give up what is in their care. -/
structure Persists (J : Store → Prop) : Prop where
  release : ∀ i, Leads J J (onScan i Scanner.release)
  setArena : ∀ {st a} {x y : Arena}, st.host.memory.allocator a = .arena x → GivesUp x y → J st →
    J (st.withMemory (st.host.memory.setAllocator a (.arena y)))
  markReleased : ∀ {st} b, J st →
    J (st.withMemory (st.host.memory.updateBuffer b Buffer.markReleased))
  report : ∀ event, Leads J J (updateHost (Host.report event))

namespace Persists

variable (t : Persists J)

include t

theorem releaseContexts (is : List ScanId) : Leads J J (releaseContexts is) := by
  induction is with
  | nil => exact leads_pure _
  | cons i is ih => exact (t.release i).seq fun _ => ih

theorem markAll (bs : List BufferId) (hJ : J st) :
    J (st.withMemory (st.host.memory.markAll bs)) := by
  induction bs generalizing st with
  | nil => exact hJ
  | cons b bs ih => exact ih (t.markReleased b hJ)

theorem releaseBuffers (a : AllocatorId) : Leads J J (releaseAll.releaseBuffers a) := by
  intro st hJ
  rw [releaseAll.releaseBuffers, leftBy_bind_get]
  cases ha : st.host.memory.allocator a with
  | heap | recorder r => exact hJ
  | arena x =>
    dsimp only
    rw [leftBy_onMemory, leftBy_of_ok (Memory.releaseLive_run a x _)]
    exact t.markAll x.live (t.setArena ha .live hJ)

theorem releaseAll (a : AllocatorId) : Leads J J (releaseAll a) := by
  intro st hJ
  rw [Store.releaseAll, leftBy_bind_get]
  cases ha : st.host.memory.allocator a with
  | heap | recorder r => exact hJ
  | arena x =>
    have hput : onMemory (Memory.putArena a { x with contexts := [] }) st = .ok ()
        (st.withMemory (st.host.memory.setAllocator a (.arena { x with contexts := [] }))) := rfl
    dsimp only
    rw [leftBy_bind_ok hput]
    refine Leads.seq (t.releaseContexts x.contexts) (fun _ => ?_) _ (t.setArena ha .contexts hJ)
    refine (t.releaseBuffers a).seq fun n => ?_
    split
    · exact (t.report _).seq fun _ => leads_pure _
    · exact leads_pure _

theorem closeArena (a : AllocatorId) : Leads J J (closeArena a) := by
  refine (t.releaseAll a).seq fun _ st hJ => ?_
  rw [markClosed, leftBy_bind_get]
  cases ha : st.host.memory.allocator a with
  | heap | recorder r => exact hJ
  | arena x => exact t.setArena ha .closed hJ

end Persists

theorem persists_ledgers {ledgers : List Ledger} : Persists fun st => st.host.ledgers = ledgers where
  release i st h := by
    have hkept : Keeps (fun m => m.host.ledgers) (st.scan i).scanner.release :=
      Scanner.keeps_release fun _ _ _ _ _ _ => rfl
    rw [leftBy_onScan]
    exact (hkept ⟨(st.scan i).progress, st.host⟩).symm.trans h
  setArena _ _ h := h
  markReleased _ h := h
  report _ _ h := h

/-! ## What is kept true of a store -/

/-- What is true of the scans and the memory of a store whatever is done with a scan. -/
structure Handled (J : Store → Prop) : Prop where
  same : ∀ {st st' : Store}, st'.scans = st.scans → st'.host.memory = st.host.memory → J st → J st'
  tends : ∀ {st i}, J st → i < st.scans.length →
    (st.scan i).scanner.Tends fun m => J (st.putMachine i m)

/-- What is true of the scans and the memory of a store whatever is done with a scan, and while
arenas give up what is in their care. -/
structure Tended (J : Store → Prop) : Prop extends Handled J where
  setArena : ∀ {st a} {x y : Arena}, st.host.memory.allocator a = .arena x → GivesUp x y → J st →
    J (st.withMemory (st.host.memory.setAllocator a (.arena y)))
  markReleased : ∀ {st} b, J st →
    J (st.withMemory (st.host.memory.updateBuffer b Buffer.markReleased))

namespace Handled

variable (t : Handled J)

include t

theorem handle (i : ScanId) {h : Handling} (hh : i < st.scans.length ∨ h.NeedsOpen) (hJ : J st) :
    J (leftBy (onScan i h.act) st) := by
  by_cases hi : i < st.scans.length
  · have hstart : J (st.putMachine i ⟨(st.scan i).progress, st.host⟩) := by
      rwa [putMachine_self]
    rw [leftBy_onScan]
    exact (t.tends hJ hi).act h _ hstart
  · rw [leftBy_onScan_of_closed (hh.resolve_left hi) (closed_of_le (Nat.le_of_not_lt hi))]
    exact hJ

theorem pull (i : ScanId) : Leads J J (onScan i Scanner.pull) := by
  intro st hJ
  rw [← leftBy_handle_pull]
  exact t.handle i (.inr trivial) hJ

theorem collect (i : ScanId) : Leads J J (onScan i Scanner.collect) := by
  intro st hJ
  rw [← leftBy_handle_collect]
  exact t.handle i (.inr trivial) hJ

theorem release (i : ScanId) : Leads J J (onScan i Scanner.release) :=
  fun _ => t.handle (h := .release) i (.inr trivial)

theorem close (i : ScanId) : Leads J J (onScan i Scanner.close) :=
  fun _ => t.handle (h := .close) i (.inr trivial)

theorem updateHost (f : Host → Host) (hf : ∀ h, (f h).memory = h.memory) :
    Leads J J (updateHost f) := fun st => t.same rfl (hf st.host)

theorem pullStream (s : StreamId) : Leads J J (pullStream s) :=
  leads_pullStream t.pull (fun _ _ => t.same rfl rfl) s

theorem tokenize {e : Ambient} {l : Language} {r : Request}
    (hstart : J (leftBy (start e (some l) r) st)) : J (leftBy (tokenize e l r) st) := by
  cases hr : start e (some l) r st with
  | error failure st₁ =>
    rw [leftBy_of_error hr] at hstart
    rwa [leftBy_tokenize_of_refused hr]
  | ok i st₁ =>
    rw [leftBy_of_ok hr] at hstart
    rw [leftBy_tokenize hr]
    exact t.close i _ (t.collect i _ hstart)

end Handled

theorem Tended.persists (t : Tended J) : Persists J where
  release := t.release
  setArena := t.setArena
  markReleased := t.markReleased
  report _ := t.updateHost _ fun _ => rfl

end Store

/-! ## Operations -/

/-- Operations on single allocators and buffers. -/
def Operation.IsByHand : Operation → Prop
  | newHeap | newArena _ | newRecorder _ | allocate .. | grow .. | clone .. | release ..
  | acquireContext .. | releaseContext .. | newBuffer .. | append .. | clear _ | markReleased _ =>
    True
  | _ => False

/-- Nothing but the memory changes by what is done by hand with allocators and buffers. -/
theorem Operation.leftBy_byHand (st : Store) {op : Operation} (h : op.IsByHand) :
    ∃ m, leftBy op.perform st = st.withMemory m := by
  cases op with
  | newHeap | newArena | newRecorder | allocate | grow | clone | newBuffer =>
    rw [perform, leftBy_bind_return, Store.leftBy_onMemory]
    exact ⟨_, rfl⟩
  | release | acquireContext | releaseContext | append | clear | markReleased =>
    rw [perform, Store.leftBy_onMemory]
    exact ⟨_, rfl⟩
  | _ => exact h.elim

theorem Operation.scans_of_byHand {st : Store} {op : Operation} (h : op.IsByHand) :
    (leftBy op.perform st).scans = st.scans := by
  obtain ⟨m, hleft⟩ := leftBy_byHand st h
  rw [hleft]
  rfl

/-- A scan is started with these rules, to be used on or to tokenize a source. -/
def Operation.Starts (e : Ambient) (rules : Option Language) (r : Store.Request) :
    Operation → Prop
  | start e' rules' r' => e' = e ∧ rules' = rules ∧ r' = r
  | tokenize e' l r' => e' = e ∧ some l = rules ∧ r' = r
  | _ => False

/-- Operations by which an arena gives up everything in its care at once. -/
def Operation.IsBulk : Operation → Prop
  | releaseAll _ | closeArena _ => True
  | _ => False

/-- What is left to be shown of an operation is that it keeps this true if it is done by hand or in
bulk, or starts a scan. A scan that does not exist may be handled as well. -/
theorem Store.Handled.perform {J : Store → Prop} {st : Store} {op : Operation} (t : Handled J)
    (hJ : J st) (hhand : op.IsByHand → J (leftBy op.perform st))
    (hbulk : op.IsBulk → J (leftBy op.perform st))
    (hstart : ∀ e rules r, op.Starts e rules r → J (leftBy (start e rules r) st))
    (hmissing : ∀ i h, op = .handle i h → st.scans.length ≤ i → J (leftBy (onScan i h.act) st)) :
    J (leftBy op.perform st) := by
  cases op with
  | start e rules r =>
    rw [Operation.perform, leftBy_bind_return]
    exact hstart e rules r ⟨rfl, rfl, rfl⟩
  | tokenize e l r =>
    rw [Operation.perform, leftBy_bind_return]
    exact t.tokenize (hstart e (some l) r ⟨rfl, rfl, rfl⟩)
  | handle i h =>
    by_cases hi : i < st.scans.length
    · exact t.handle i (.inl hi) hJ
    · exact hmissing i h rfl (Nat.le_of_not_lt hi)
  | pullStream s =>
    rw [Operation.perform, leftBy_bind_return]
    exact t.pullStream s st hJ
  | enterArena a =>
    rw [Operation.perform, leftBy_enterArena]
    exact hJ
  | openStream i =>
    rw [Operation.perform, leftBy_bind_return]
    refine t.same ?_ ?_ hJ <;> rfl
  | addLedger =>
    rw [Operation.perform, leftBy_bind_return]
    refine t.same ?_ ?_ hJ <;> rfl
  | count l entry => exact t.updateHost _ (Scanner.account_memory _ _) st hJ
  | releaseAll | closeArena => exact hbulk trivial
  | _ => exact hhand trivial

/-- Arenas that give up what is in their care at once do so step by step. -/
theorem Store.Tended.perform {J : Store → Prop} {st : Store} {op : Operation} (t : Tended J)
    (hJ : J st) (hhand : op.IsByHand → J (leftBy op.perform st))
    (hstart : ∀ e rules r, op.Starts e rules r → J (leftBy (start e rules r) st))
    (hmissing : ∀ i h, op = .handle i h → st.scans.length ≤ i → J (leftBy (onScan i h.act) st)) :
    J (leftBy op.perform st) := by
  refine t.toHandled.perform hJ hhand (fun hbulk => ?_) hstart hmissing
  cases op with
  | releaseAll a =>
    rw [Operation.perform, leftBy_bind_return]
    exact t.persists.releaseAll a st hJ
  | closeArena a => exact t.persists.closeArena a st hJ
  | _ => exact hbulk.elim

end MiniLex
