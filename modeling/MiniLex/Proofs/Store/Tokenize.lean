import MiniLex.Proofs.Scan.Division
import MiniLex.Proofs.Scan.Demand
import MiniLex.Store.Basic

/-!
# Tokenizing a source

A source is tokenized by a scan that is started for it, collected and closed.
Its tokens divide the source, whatever the allocator and whatever other scans
have done before, and where the allocator never fails nothing but a character
that no bootstrap rule accepts keeps them back (`tokenize_divides`).

What tokenizing comes to is what collecting does: `tokenize_of_collect` where
the allocator never fails, and from any result back `of_tokenize_ok` and
`of_tokenize_illegal`.
-/

namespace MiniLex

/-! ## Closing a scan -/

namespace Scanner

open ScanM

/-- What a scan has kept as its error. -/
def keptError (m : Machine) : Option Diagnostic := m.progress.error

/-- A scan that is closed keeps its error. -/
theorem close_keptError (s : Scanner) : Keeps keptError s.close :=
  keeps_close fun _ _ _ _ _ _ => rfl

theorem error_of_close {s : Scanner} {m m' : Machine} (h : s.close m = .ok () m') :
    m'.progress.error = m.progress.error := by
  have hkept := s.close_keptError m
  rw [leftBy_of_ok h] at hkept
  exact hkept.symm

/-- Closing a scan fails for no other reason than its allocator gives. -/
theorem close_isAllocation (s : Scanner) : FailsOnly Failure.IsAllocation s.close := by
  have hrelease : FailsOnly Failure.IsAllocation s.release := by
    refine failsOnly_progress.bind fun p => ?_
    split
    · exact failsOnly_pure ()
    · exact s.leaveQuoted_isAllocation.bind fun _ =>
        (failsOnly_modify _).bind fun _ => onMemory_isAllocation _
  refine failsOnly_progress.bind fun p => ?_
  split
  · exact failsOnly_pure ()
  · exact hrelease.bind fun _ => failsOnly_progress.bind fun p => failsOnly_modify _

end Scanner

namespace Store

variable {e : Ambient} {rules : Option Language} {l : Language} {r : Request} {st st' : Store}
  {i j : ScanId} {tokens : List Token}

/-! ## Starting a scan -/

theorem onMemory_run {α : Type} {act : MemoryM α} {a : α} {memory : Memory}
    (hr : act st.host.memory = .ok a memory) :
    onMemory act st = .ok a { st with host := { st.host with memory := memory } } := by
  simp only [onMemory, hr]

theorem scan_append_self (st : Store) (x : Scan) (h : Host) :
    ({ st with scans := st.scans ++ [x], host := h } : Store).scan st.scans.length = x := by
  simp [scan]

/-- A scan that is started has the scanner that is requested, and is at the start of its source. -/
theorem start_ok (h : start e rules r st = .ok i st') :
    i = st.scans.length ∧ st'.scan i = ⟨r.scanner e rules i, .initial⟩ ∧ i < st'.scans.length := by
  unfold start at h
  rw [run_bind_get] at h
  obtain ⟨_, st₁, hacquire, h⟩ := of_bind_ok h
  unfold onMemory at hacquire
  split at hacquire
  · cases hacquire
    cases h
    exact ⟨rfl, scan_append_self _ _ _, by simp⟩
  · cases hacquire

/-- A scan is started if its allocator takes the context. -/
theorem start_of_acquired {memory : Memory}
    (hr : Memory.acquireContext (r.scanner e rules st.scans.length).allocator st.scans.length
      st.host.memory = .ok () memory) :
    ∃ st', start e rules r st = .ok st.scans.length st' ∧
      st'.scans = st.scans ++ [⟨r.scanner e rules st.scans.length, .initial⟩] ∧
      st'.host.memory = memory := by
  unfold start
  rw [run_bind_get, run_bind_ok (onMemory_run hr)]
  refine ⟨_, rfl, rfl, ?_⟩
  show (Host.report _ (Host.account _ _ _)).memory = memory
  rw [Host.report, Scanner.account_memory]

theorem start_of_refused {fault : AllocationFault} {memory : Memory}
    (hr : Memory.acquireContext (r.scanner e rules st.scans.length).allocator st.scans.length
      st.host.memory = .error fault memory) :
    start e rules r st =
      .error (.allocation fault) { st with host := { st.host with memory := memory } } := by
  unfold start
  rw [run_bind_get, run_bind_error]
  simp only [onMemory, hr]

theorem start_run (hs : st.host.memory.Serves (r.scanner e rules st.scans.length).allocator) :
    ∃ st', start e rules r st = .ok st.scans.length st' ∧
      st'.host.memory.Serves (r.scanner e rules st.scans.length).allocator := by
  obtain ⟨memory, hr, hs'⟩ := hs.acquireContext st.scans.length
  obtain ⟨st', hstart, -, hmemory⟩ := start_of_acquired hr
  exact ⟨st', hstart, hmemory ▸ hs'⟩

/-! ## What a scan of a store does -/

theorem onScan_ok {α : Type} {act : Scanner → ScanM α} {a : α} (h : onScan i act st = .ok a st') :
    ∃ m, act (st.scan i).scanner ⟨(st.scan i).progress, st.host⟩ = .ok a m ∧
      st' = st.putMachine i m := by
  unfold onScan at h
  dsimp only at h
  split at h
  · cases h
    exact ⟨_, by assumption, rfl⟩
  · cases h

theorem onScan_failed {α : Type} {act : Scanner → ScanM α} {failure : Failure}
    (h : onScan i act st = .error failure st') :
    ∃ m, act (st.scan i).scanner ⟨(st.scan i).progress, st.host⟩ = .error failure m := by
  unfold onScan at h
  dsimp only at h
  split at h
  · cases h
  · cases h
    exact ⟨_, by assumption⟩

theorem scan_putMachine_self (m : Machine) (h : i < st.scans.length) :
    (st.putMachine i m).scan i = ⟨(st.scan i).scanner, m.progress⟩ := by
  simp [scan, putMachine, h]

theorem scan_putMachine_of_ne (m : Machine) (h : j ≠ i) : (st.putMachine i m).scan j = st.scan j := by
  simp [scan, putMachine, h.symm]

theorem length_putMachine (st : Store) (i : ScanId) (m : Machine) :
    (st.putMachine i m).scans.length = st.scans.length := List.length_modify ..

theorem onScan_run {α : Type} {act : Scanner → ScanM α} {a : α} {m : Machine}
    (hr : act (st.scan i).scanner ⟨(st.scan i).progress, st.host⟩ = .ok a m) :
    onScan i act st = .ok a (st.putMachine i m) := by
  simp only [onScan, hr]

theorem leftBy_onScan {α : Type} (act : Scanner → ScanM α) :
    leftBy (onScan i act) st =
      st.putMachine i (leftBy (act (st.scan i).scanner) ⟨(st.scan i).progress, st.host⟩) := by
  simp only [leftBy, onScan]
  cases act (st.scan i).scanner ⟨(st.scan i).progress, st.host⟩ <;> rfl

theorem onScan_error {α : Type} {act : Scanner → ScanM α} {failure : Failure} {m : Machine}
    (hr : act (st.scan i).scanner ⟨(st.scan i).progress, st.host⟩ = .error failure m) :
    onScan i act st = .error failure (st.putMachine i m) := by
  simp only [onScan, hr]

/-- A scan that has acted can be closed where the allocator never fails. -/
theorem onScan_close_run {m : Machine} (hi : i < st.scans.length)
    (hs : m.host.memory.Serves (st.scan i).scanner.allocator) :
    ∃ st', onScan i Scanner.close (st.putMachine i m) = .ok () st' := by
  obtain ⟨h', hr, -⟩ := Scanner.close_run hs m.progress
  refine ⟨_, onScan_run (m := ⟨m.progress.shut, h'⟩) ?_⟩
  rw [scan_putMachine_self m hi]
  exact hr

/-! ## All tokens of a source -/

/-- Where the allocator never fails, tokenizing a source comes to what collecting its tokens comes to
on the host that the scan finds once it is started. -/
theorem tokenize_of_collect
    (hs : st.host.memory.Serves (r.scanner e (some l) st.scans.length).allocator) :
    let s := r.scanner e (some l) st.scans.length
    ∃ h, h.memory.Serves s.allocator ∧ ∀ m, m.host.memory.Serves s.allocator →
      (∀ tokens, s.collect ⟨.initial, h⟩ = .ok tokens m →
        ∃ st', tokenize e l r st = .ok tokens st') ∧
      ∀ failure, s.collect ⟨.initial, h⟩ = .error failure m →
        ∃ st', tokenize e l r st = .error failure st' := by
  intro s
  obtain ⟨st₁, hstart, hs₁⟩ := start_run hs
  obtain ⟨-, hscan, hi⟩ := start_ok hstart
  refine ⟨st₁.host, hs₁, fun m hsm => ?_⟩
  obtain ⟨st', hclose⟩ :
      ∃ st', onScan st.scans.length Scanner.close (st₁.putMachine st.scans.length m) =
        .ok () st' := by
    refine onScan_close_run hi ?_
    rw [hscan]
    exact hsm
  unfold tokenize
  rw [run_bind_ok hstart]
  refine ⟨fun tokens hm => ⟨st', run_tryFinally_ok (onScan_run ?_) hclose⟩,
    fun failure hm => ⟨st', run_tryFinally_error (onScan_error ?_) hclose⟩⟩
  · rw [hscan]
    exact hm
  · rw [hscan]
    exact hm

/-- Where the allocator never fails, the tokens of a source are returned, unless a character is
refused that no bootstrap rule accepts. -/
theorem tokenize_run (hs : st.host.memory.Serves (r.scanner e (some l) st.scans.length).allocator) :
    ∃ st', (∃ tokens, tokenize e l r st = .ok tokens st') ∨
      (l = .bootstrap ∧ ∃ line c, tokenize e l r st =
        .error (.illegalCharacter line c (r.sourceName.orElse e.config.sourceName)) st') := by
  obtain ⟨h, hsh, hcollect⟩ := tokenize_of_collect hs
  obtain ⟨m, hsm, hm⟩ := Scanner.collectUpTo_run (p := .initial) (h := h)
    (r.source.length + 1) (l := l) rfl rfl (Nat.zero_le _) hsh
  obtain ⟨hok, herror⟩ := hcollect m hsm
  rcases hm with ⟨tokens, hm⟩ | ⟨hboot, line, c, hm⟩
  · obtain ⟨st', htokens⟩ := hok tokens hm
    exact ⟨st', .inl ⟨tokens, htokens⟩⟩
  · obtain ⟨st', hfailure⟩ := herror _ hm
    exact ⟨st', .inr ⟨hboot, line, c, hfailure⟩⟩

/-- Tokens that are returned are collected by a scan of their source. Its error is kept when it is
closed. -/
theorem of_tokenize_ok (h : tokenize e l r st = .ok tokens st') :
    ∃ host m, (r.scanner e (some l) st.scans.length).collect ⟨.initial, host⟩ = .ok tokens m ∧
      (st'.scan st.scans.length).progress.error = m.progress.error := by
  unfold tokenize at h
  obtain ⟨i, st₁, hstart, h⟩ := of_bind_ok h
  obtain ⟨rfl, hscan, hi⟩ := start_ok hstart
  obtain ⟨_, st₂, hcollect, hclose⟩ := of_tryFinally_ok h
  obtain ⟨m, hm, rfl⟩ := onScan_ok hcollect
  obtain ⟨m', hm', rfl⟩ := onScan_ok hclose
  have hi' : st.scans.length < (st₁.putMachine st.scans.length m).scans.length := by
    rwa [length_putMachine]
  rw [scan_putMachine_self _ hi] at hm'
  rw [hscan] at hm
  refine ⟨st₁.host, m, hm, ?_⟩
  rw [scan_putMachine_self _ hi']
  exact Scanner.error_of_close hm'

/-- A character that is refused is refused to a scan of the source. -/
theorem of_tokenize_illegal {line : Nat} {c : Char} {name : Setting}
    (h : tokenize e l r st = .error (.illegalCharacter line c name) st') :
    ∃ host m, (r.scanner e (some l) st.scans.length).collect ⟨.initial, host⟩ =
      .error (.illegalCharacter line c name) m := by
  have hmemory : FailsOnly Failure.IsAllocation (start e (some l) r) := by
    refine failsOnly_get.bind fun st₀ => FailsOnly.bind ?_ fun _ => ?_
    · intro st₀ failure st₁ hfail
      unfold onMemory at hfail
      split at hfail
      · cases hfail
      · cases hfail
        exact ⟨_, rfl⟩
    · exact (failsOnly_modify _).bind fun _ => (failsOnly_modify _).bind fun _ =>
        (failsOnly_modify _).bind fun _ => failsOnly_pure _
  unfold tokenize at h
  rcases of_bind_error h with hstart | ⟨i, st₁, hstart, h⟩
  · obtain ⟨fault, hfault⟩ := hmemory _ _ _ hstart
    cases hfault
  obtain ⟨rfl, hscan, hi⟩ := start_ok hstart
  rcases of_tryFinally_error h with ⟨st₂, hcollect⟩ | ⟨st₂, hclose⟩
  · obtain ⟨m, hm⟩ := onScan_failed hcollect
    rw [hscan] at hm
    exact ⟨st₁.host, m, hm⟩
  · obtain ⟨m, hm⟩ := onScan_failed hclose
    obtain ⟨fault, hfault⟩ := Scanner.close_isAllocation _ _ _ _ hm
    cases hfault

/-- The tokens that a source is divided into. -/
theorem divides_of_tokenize (h : tokenize e l r st = .ok tokens st') :
    Divides (l.Gap r.source) r.source tokens := by
  obtain ⟨host, m, hm, -⟩ := of_tokenize_ok h
  exact (Scanner.collect_ok rfl hm).divides (l.le_of_gap r.source)

/-- The tokens of a source, if they are returned, divide it: none of its characters is lost or read
twice. They are returned where the allocator never fails, unless a character is refused that no
bootstrap rule accepts, so those of a standby list always are. -/
theorem tokenize_divides (e : Ambient) (l : Language) (r : Request) (st : Store) :
    (∀ tokens st', tokenize e l r st = .ok tokens st' →
      Divides (l.Gap r.source) r.source tokens) ∧
    (st.host.memory.Serves (r.scanner e (some l) st.scans.length).allocator →
      ∃ st', (∃ tokens, tokenize e l r st = .ok tokens st') ∨
        (l = .bootstrap ∧ ∃ line c, tokenize e l r st =
          .error (.illegalCharacter line c (r.sourceName.orElse e.config.sourceName)) st')) :=
  ⟨fun _ _ h => divides_of_tokenize h, tokenize_run⟩

/-- A standby list with blanks, junk and a quoted name that never ends. -/
theorem tokenize_mixed_list :
    ∃ tokens st', tokenize .initial .standby ⟨['a', ' ', ';', '\n', '"', 'b'], none, .nothing⟩
        .initial = .ok tokens st' ∧
      Divides (Standby.Gap ['a', ' ', ';', '\n', '"', 'b']) ['a', ' ', ';', '\n', '"', 'b']
        tokens := by
  obtain ⟨hdivides, hreturns⟩ := tokenize_divides .initial .standby
    ⟨['a', ' ', ';', '\n', '"', 'b'], none, .nothing⟩ .initial
  obtain ⟨st', ⟨tokens, htokens⟩ | ⟨hboot, -⟩⟩ := hreturns trivial
  · exact ⟨tokens, st', htokens, hdivides tokens st' htokens⟩
  · cases hboot

end Store

end MiniLex
