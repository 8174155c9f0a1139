import MiniLex.Proofs.Store.Estate

/-!
# Operations as a matter of routine

Most operations of a program change the estate by steps of `Estate.Routine`
only, however they end: `routine_perform`, with one lemma before it for each
operation that does more than one thing.
-/

namespace MiniLex

open Relation (ReflTransGen)

namespace Store

variable {st : Store} {i : ScanId}

/-- Whatever such an action does, the estate changes by routine steps only. -/
abbrev Routinely {α : Type} (x : StoreM α) : Prop := Moves estate (ReflTransGen Estate.Routine) x

section Routinely

variable {α : Type} {x : StoreM α}

theorem routinely_of_keeps (hx : Keeps estate x) : Routinely x := hx.moves fun _ => .refl

theorem routinely_pull (i : ScanId) : Routinely (onScan i Scanner.pull) := by
  intro st
  by_cases hi : i < st.scans.length
  · exact routine_onScan hi (tends_reaches hi).pull
  · rw [leftBy_of_error (onScan_pull_of_closed (closed_of_le (Nat.le_of_not_lt hi)))]

theorem routinely_release (i : ScanId) : Routinely (onScan i Scanner.release) := by
  intro st
  by_cases hi : i < st.scans.length
  · exact routine_onScan hi (tends_reaches hi).release
  · have hsame : leftBy (onScan i Scanner.release) st = st :=
      leftBy_onScan_of_closed (h := .release) trivial (closed_of_le (Nat.le_of_not_lt hi))
    rw [hsame]

end Routinely

/-! ## What programs do -/

theorem estate_onMemory {α : Type} (act : MemoryM α) (st : Store) :
    (leftBy (onMemory act) st).estate =
      { st.estate with books := (leftBy act st.host.memory).books } := by
  rw [leftBy_onMemory]
  rfl

theorem keeps_onMemory {α : Type} {act : MemoryM α} (hact : Keeps Memory.books act) :
    Keeps estate (onMemory act) := by
  intro st
  rw [estate_onMemory, ← hact]
  rfl

theorem routine_addAllocator {x : Allocator} (hx : ∀ y ∈ x.care, y = ⟨false, [], []⟩) :
    ReflTransGen Estate.Routine st.estate (leftBy (onMemory (Memory.addAllocator x)) st).estate := by
  have hrun : leftBy (Memory.addAllocator x) st.host.memory =
      { st.host.memory with allocators := st.host.memory.allocators ++ [x] } := rfl
  have hbooks : (leftBy (Memory.addAllocator x) st.host.memory).books =
      (st.estate.join x.care).books := by
    rw [hrun]
    simp [Memory.books, Estate.join, Books.join, estate]
  rw [estate_onMemory, hbooks]
  exact .single (.join hx)

/-- A scan is started, or nothing changes. -/
theorem start_cases (e : Ambient) (rules : Option Language) (r : Request) (st : Store) :
    (∃ st', start e rules r st = .ok st.scans.length st' ∧
      st.estate.books.Open (r.scanner e rules st.scans.length).allocator ∧
      st'.scans.length = st.scans.length + 1 ∧
      st'.estate = st.estate.begin (r.scanner e rules st.scans.length).allocator) ∨
    ∃ failure st', start e rules r st = .error failure st' ∧ st'.estate = st.estate := by
  rcases Memory.acquireContext_cases (r.scanner e rules st.scans.length).allocator
    st.scans.length st.host.memory with ⟨memory, hr, hopen, hbooks⟩ | ⟨fault, memory, hr, hbooks⟩
  · obtain ⟨st', hstart, hscans, hmemory⟩ := start_of_acquired hr
    refine .inl ⟨st', hstart, hopen, by simp [hscans], ?_⟩
    rw [estate, hmemory, hbooks, hscans, List.map_append, Estate.begin]
    simp [estate, Scan.standing, Request.scanner, Progress.initial]
  · refine .inr ⟨_, _, start_of_refused hr, ?_⟩
    rw [estate, hbooks, estate]

theorem routine_start {e : Ambient} {rules : Option Language} {r : Request}
    (ha : (r.scanner e rules st.scans.length).allocator < st.host.memory.allocators.length) :
    ReflTransGen Estate.Routine st.estate (leftBy (start e rules r) st).estate := by
  rcases start_cases e rules r st with ⟨st', hr, hopen, -, hestate⟩ | ⟨failure, st', hr, hestate⟩
  · rw [leftBy_of_ok hr, hestate]
    exact .single (.begin (by simpa [estate, Memory.books] using ha) hopen)
  · rw [leftBy_of_error hr, hestate]

theorem routine_tokenize {e : Ambient} {l : Language} {r : Request}
    (ha : (r.scanner e (some l) st.scans.length).allocator < st.host.memory.allocators.length) :
    ReflTransGen Estate.Routine st.estate (leftBy (tokenize e l r) st).estate := by
  have hfirst := routine_start ha
  rcases start_cases e (some l) r st with ⟨st₁, hr, -, hlength, -⟩ | ⟨failure, st₁, hr, -⟩
  · rw [leftBy_of_ok hr] at hfirst
    rw [leftBy_tokenize hr]
    have hi : st.scans.length < st₁.scans.length := by omega
    have hcollect := routine_onScan hi (tends_reaches hi).collect
    have hi' : st.scans.length <
        (leftBy (onScan st.scans.length Scanner.collect) st₁).scans.length := by
      rw [leftBy_onScan]
      simpa [putMachine] using hi
    exact hfirst.trans (hcollect.trans (routine_onScan hi' (tends_reaches hi').close))
  · rw [leftBy_of_error hr] at hfirst
    rwa [leftBy_tokenize_of_refused hr]

theorem routinely_pullStream (t : StreamId) : Routinely (pullStream t) := by
  intro st
  let J : Store → Prop := fun st' => ReflTransGen Estate.Routine st.estate st'.estate
  have hpull (i : ScanId) : Leads J J (onScan i Scanner.pull) :=
    fun st' h => h.trans (routinely_pull i st')
  exact leads_pullStream hpull (fun _ _ h => h) t st .refl

end Store

/-- Operations other than by hand or in bulk. -/
def Operation.IsRoutine : Operation → Prop
  | release .. | acquireContext .. | releaseContext .. | releaseAll .. | closeArena .. | newBuffer ..
  | markReleased .. => False
  | _ => True

open Store in
theorem Operation.routine_perform {st : Store} {op : Operation} (hr : op.IsRoutine)
    (hk : op.Known st) :
    ReflTransGen Estate.Routine st.estate (leftBy op.perform st).estate := by
  cases op with
  | newHeap =>
    rw [perform, leftBy_bind_return]
    exact routine_addAllocator (by simp [Allocator.care])
  | newArena name =>
    rw [perform, leftBy_bind_return]
    exact routine_addAllocator (by simp [Allocator.care, Arena.fresh])
  | newRecorder refuses =>
    rw [perform, leftBy_bind_return]
    exact routine_addAllocator (by simp [Allocator.care])
  | allocate a capacity =>
    rw [perform, leftBy_bind_return, estate_onMemory]
    rcases Memory.allocate_cases a capacity st.host.memory with
      ⟨memory, hr, hopen, hbooks⟩ | ⟨fault, memory, hr, hbooks⟩
    · rw [leftBy_of_ok hr, hbooks]
      refine .single (.handOut ?_ hopen)
      simpa [estate, Memory.books] using (show a < st.host.memory.allocators.length from hk)
    · rw [leftBy_of_error hr, hbooks]
      exact .refl
  | grow a b needed =>
    rw [perform, leftBy_bind_return]
    exact routinely_of_keeps (keeps_onMemory (Memory.books_grow a b needed)) st
  | clone a text =>
    rw [perform, leftBy_bind_return]
    exact routinely_of_keeps (keeps_onMemory (Memory.books_clone a text)) st
  | enterArena a =>
    rw [perform, leftBy_enterArena]
  | append b text => exact routinely_of_keeps (keeps_onMemory (Memory.books_append b text)) st
  | clear b =>
    have hkeeps := Memory.books_modifyBuffer b (g := Buffer.clear) fun _ => rfl
    exact routinely_of_keeps (keeps_onMemory hkeeps) st
  | start e rules r =>
    rw [perform, leftBy_bind_return]
    exact routine_start hk
  | tokenize e l r =>
    rw [perform, leftBy_bind_return]
    exact routine_tokenize hk
  | handle i h => exact routine_onScan hk ((tends_reaches hk).act h)
  | openStream i =>
    rw [perform, leftBy_bind_return]
    exact .refl
  | pullStream t =>
    rw [perform, leftBy_bind_return]
    exact routinely_pullStream t st
  | addLedger =>
    rw [perform, leftBy_bind_return]
    exact .refl
  | count l entry =>
    refine routinely_of_keeps (keeps_modify fun st => ?_) st
    simp only [estate, Scanner.account_memory]
  | _ => exact hr.elim

end MiniLex
