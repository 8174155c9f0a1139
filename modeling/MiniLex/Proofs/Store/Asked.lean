import MiniLex.Proofs.Store.Interleaving
import MiniLex.Proofs.Store.Lasting
import MiniLex.Proofs.Store.Transparency

/-!
# Scans that are only asked

A scan may be asked for answers (`Store.asked`) while a program does other
things: it starts and handles other scans, and uses allocators and buffers. None
of that changes the scan (`Operation.Bypasses`), nor does it keep an allocator
from serving, unless an arena is closed (`Store.provides_perform`). So whatever
comes in between, the answers are those that the scan determines:
`Store.Served.asked`.
-/

namespace MiniLex

/-! ## Demands as handlings -/

/-- The handling of a scan by which this is demanded. -/
def Demand.handling : Demand → Handling
  | pull => .pull
  | recordError complaint => .recordError complaint
  | noteError complaint => .noteError complaint
  | close => .close
  | finish => .finish

/-- What is demanded by a handling, if it is anything that is answered. -/
def Handling.demand? : Handling → Option Demand
  | pull => some .pull
  | recordError complaint => some (.recordError complaint)
  | noteError complaint => some (.noteError complaint)
  | close => some .close
  | finish => some .finish
  | collect | enterQuoted | leaveQuoted | release => none

@[simp] theorem Demand.demand?_handling (d : Demand) : d.handling.demand? = some d := by
  cases d <;> rfl

theorem Demand.leftBy_handling (d : Demand) (s : Scanner) (m : Machine) :
    leftBy (d.handling.act s) m = leftBy (d.act s) m := by
  cases d with
  | pull | recordError | noteError | finish =>
    rw [handling, Handling.act, Demand.act, leftBy_bind_return, leftBy_bind_pure]
  | close => exact (leftBy_bind_pure s.close _ m).symm

namespace Memory

variable {a : AllocatorId}

/-- There is this allocator, and it never fails. -/
def Provides (a : AllocatorId) (m : Memory) : Prop := a < m.allocators.length ∧ m.Serves a

/-- An allocator goes on serving whatever is done with others, or with buffers. -/
theorem lasting_provides (a : AllocatorId) : Lasting (Provides a) fun _ => True where
  arena {m a' x bs y} ha hy hm := by
    have hsame : ((m.setAllocator a' (.arena y)).markAll bs).allocator a =
        (m.setAllocator a' (.arena y)).allocator a := by rw [allocator, allocators_markAll]; rfl
    refine ⟨by rw [allocators_markAll]; simpa [setAllocator] using hm.1, ?_⟩
    rw [Serves, hsame]
    by_cases haa : a' = a
    · subst haa
      exact serves_putArena ha (hy.closed.trans (hm.2.isOpen ha))
    · rw [allocator_setAllocator_of_ne m _ haa]
      exact hm.2
  note {m a' r} call ha hm := by
    refine ⟨by simpa [setAllocator] using hm.1, ?_⟩
    by_cases haa : a' = a
    · subst haa
      exact hm.2.note ha call
    · rw [Serves, allocator_setAllocator_of_ne m _ haa]
      exact hm.2
  giveBack _ hm := hm
  addBuffer _ _ hm := hm
  join {m} z hm := by
    have hsame := (allocator_join m z a).resolve_right fun hnew => Nat.ne_of_lt hm.1 hnew.1
    refine ⟨Nat.lt_of_lt_of_le hm.1 (by simp), ?_⟩
    rw [Serves, hsame]
    exact hm.2
  update _ _ hm := hm
  next _ := trivial

end Memory

open Memory (Provides lasting_provides)

/-- An operation neither handles a scan nor gives up all that is in the care of an arena. No stream
is pulled, as it might be one over the scan. -/
def Operation.Bypasses (i : ScanId) : Operation → Prop
  | handle j _ => j ≠ i
  | pullStream _ | releaseAll _ | closeArena _ => False
  | _ => True

/-- Of a scan an operation wants nothing but an answer, if anything. -/
def Operation.OnlyAsks (i : ScanId) (op : Operation) : Prop :=
  op.Bypasses i ∨ ∃ d : Demand, op = .handle i d.handling

namespace Store

variable {st st' : Store} {i j : ScanId} {s : Scanner} {p : Progress} {a : AllocatorId}
  {x : Scan} {op : Operation}

theorem leftBy_handling (st : Store) (i : ScanId) (d : Demand) :
    leftBy (Operation.handle i d.handling).perform st = (st.turn (i, d)).2 := by
  have hturn : (st.turn (i, d)).2 = leftBy (onScan i d.act) st := by
    rw [turn, leftBy]
    cases onScan i d.act st <;> rfl
  rw [hturn, Operation.perform, leftBy_onScan, leftBy_onScan, d.leftBy_handling]

/-- What is demanded of a scan by an operation, and what it answers. -/
def asked (st : Store) (i : ScanId) : Operation → Option (Demand × Except Failure Answer)
  | .handle j h => if j = i then h.demand?.map fun d => (d, (st.turn (i, d)).1) else none
  | _ => none

theorem asked_handling (st : Store) (i : ScanId) (d : Demand) :
    st.asked i (.handle i d.handling) = some (d, (st.turn (i, d)).1) := by
  simp [asked]

theorem asked_of_bypasses (hop : op.Bypasses i) : st.asked i op = none := by
  cases op with
  | handle j h => exact if_neg hop
  | _ => rfl

/-! ## What is left alone -/

theorem getElem?_of_onScan {α : Type} (act : Scanner → ScanM α) (hx : st.scans[i]? = some x)
    (hj : j ≠ i) : (leftBy (onScan j act) st).scans[i]? = some x := by
  rw [leftBy_onScan, putMachine, List.getElem?_modify, hx]
  simp [hj]

theorem getElem?_of_start (e : Ambient) (rules : Option Language) (r : Request)
    (hx : st.scans[i]? = some x) : (leftBy (start e rules r) st).scans[i]? = some x := by
  rcases (leftBy_start e rules r st).2 with hscans | hscans <;> rw [hscans]
  · rwa [List.getElem?_append_left (List.getElem?_eq_some_iff.mp hx).1]
  · exact hx

/-- An operation that bypasses a scan leaves it as it is. -/
theorem getElem?_of_bypasses (hop : op.Bypasses i) (hx : st.scans[i]? = some x) :
    (leftBy op.perform st).scans[i]? = some x := by
  have hhand (hbyHand : op.IsByHand) : (leftBy op.perform st).scans[i]? = some x := by
    rw [Operation.scans_of_byHand hbyHand]
    exact hx
  cases op with
  | start e rules r =>
    rw [Operation.perform, leftBy_bind_return]
    exact getElem?_of_start e rules r hx
  | tokenize e l r =>
    have hstarted := getElem?_of_start e (some l) r hx
    rw [Operation.perform, leftBy_bind_return]
    cases hr : start e (some l) r st with
    | ok j st₁ =>
      rw [leftBy_of_ok hr] at hstarted
      have hj : j ≠ i := by
        rw [(start_ok hr).1]
        exact Nat.ne_of_gt (List.getElem?_eq_some_iff.mp hx).1
      rw [leftBy_tokenize hr]
      exact getElem?_of_onScan _ (getElem?_of_onScan _ hstarted hj) hj
    | error failure st₁ =>
      rw [leftBy_of_error hr] at hstarted
      rwa [leftBy_tokenize_of_refused hr]
  | handle j h => exact getElem?_of_onScan _ hx hop
  | enterArena a => rwa [Operation.perform, leftBy_enterArena]
  | openStream | addLedger | count => exact hx
  | pullStream | releaseAll | closeArena => exact hop.elim
  | _ => exact hhand trivial

/-- Whatever is done with a scan, all allocators that serve go on serving. -/
theorem tends_provides (s : Scanner) (a : AllocatorId) :
    s.Tends fun m => Provides a m.host.memory :=
  have hl := lasting_provides a
  Scanner.tends_of_memory (hl.clone _) (fun _ => hl.append trivial) (hl.allocate _)
    (hl.release _) (hl.releaseContext _ _)

/-- An allocator serves until it is closed. -/
theorem provides_perform (h : Provides a st.host.memory) (hop : ¬op.IsBulk) :
    Provides a (leftBy op.perform st).host.memory := by
  have hl := lasting_provides a
  have hhandled : Handled fun st => Provides a st.host.memory :=
    ⟨fun _ hmemory h => by rwa [hmemory], fun {st i} _ _ => tends_provides (st.scan i).scanner a⟩
  refine hhandled.perform h (fun hhand => ?_) (fun hbulk => absurd hbulk hop)
    (fun e rules r _ => ?_) fun i hd _ _ => ?_
  · refine lasting_byHand hl hhand ?_ st h
    cases op <;> trivial
  · rw [(leftBy_start e rules r st).1]
    exact hl.acquireContext _ _ _ h
  · rw [leftBy_onScan]
    exact (tends_provides (st.scan i).scanner a).act hd _ h

/-! ## What a scan answers -/

/-- A scan has this scanner and is at this point, and its allocator is there and never fails. -/
structure Served (st : Store) (i : ScanId) (s : Scanner) (p : Progress) : Prop where
  scan : st.scans[i]? = some ⟨s, p⟩
  provides : Provides s.allocator st.host.memory

namespace Served

theorem of_same (h : Served st i s p) (hscans : st'.scans = st.scans)
    (hmemory : st'.host.memory = st.host.memory) : Served st' i s p :=
  ⟨hscans ▸ h.scan, hmemory ▸ h.provides⟩

theorem bypassed (h : Served st i s p) (hop : op.Bypasses i) :
    Served (leftBy op.perform st) i s p := by
  refine ⟨getElem?_of_bypasses hop h.scan, provides_perform h.provides fun hbulk => ?_⟩
  cases op with
  | releaseAll | closeArena => exact hop
  | _ => exact hbulk

/-- A demand is answered as the scan determines, and leaves what it determines. -/
theorem turn (h : Served st i s p) (d : Demand) :
    (st.turn (i, d)).1 = (s.effect p d).answer ∧
      Served (st.turn (i, d)).2 i s (s.effect p d).progress := by
  have hi := (List.getElem?_eq_some_iff.mp h.scan).1
  have hscan : st.scan i = ⟨s, p⟩ := by simp [Store.scan, h.scan]
  have hserves : st.host.memory.Serves (st.scan i).scanner.allocator := hscan ▸ h.provides.2
  obtain ⟨hanswer, hself, hi', -⟩ := scan_turn hi hserves d
  rw [hscan] at hanswer hself
  refine ⟨hanswer, ?_, ?_⟩
  · rw [← hself, Store.scan, List.getD_eq_getElem?_getD, List.getElem?_eq_getElem hi']
    rfl
  · rw [← leftBy_handling]
    exact provides_perform h.provides id

/-- What an operation asks of a scan, if anything, is answered as the scan determines. -/
theorem perform (h : Served st i s p) (hop : op.OnlyAsks i) :
    (st.asked i op).toList.map Prod.snd =
        s.answers p ((st.asked i op).toList.map Prod.fst) ∧
      Served (leftBy op.perform st) i s
        (s.after p ((st.asked i op).toList.map Prod.fst)) := by
  rcases hop with hbypass | ⟨d, rfl⟩
  · rw [asked_of_bypasses hbypass]
    exact ⟨rfl, h.bypassed hbypass⟩
  · obtain ⟨hanswer, h'⟩ := h.turn d
    rw [asked_handling, leftBy_handling]
    exact ⟨congrArg (fun answer => [answer]) hanswer, h'⟩

end Served

end Store

end MiniLex
