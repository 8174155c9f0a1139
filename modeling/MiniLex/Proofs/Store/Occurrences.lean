import MiniLex.Proofs.Scan.Deeds
import MiniLex.Proofs.Store.Sharing

/-!
# What a program has to be counted for

What happens in a program and is to be counted (`Occurrence`) is that a scan is
started, or does something that counts. A ledger counts the starts of scans
while it is active and all that these scans do (`enter`), as long as nobody
else writes to it. So much is true of a piece of a program (`Booked`), of two
pieces if it is of each, and of every operation: `booked_perform`.
-/

namespace MiniLex

/-- Something that happens in a program and is to be counted. -/
inductive Occurrence where
  /-- A scan is started on a source of this length, while this ledger is active, if any is. -/
  | started (i : ScanId) (active : Option LedgerId) (length : Nat)
  | did (i : ScanId) (d : Deed)
  deriving DecidableEq

/-- The scan that an occurrence is about. -/
def Occurrence.scan : Occurrence → ScanId
  | started i _ _ | did i _ => i

/-- What a handling of a scan has to be counted for. -/
def Handling.deeds (h : Handling) (s : Scanner) (m : Machine) : List Deed :=
  match h with
  | pull => s.pullDeeds m
  | collect => s.pullsDeeds (s.source.length + 1) m
  | recordError complaint => s.recordDeeds complaint m
  | noteError _ | enterQuoted | leaveQuoted | release | close | finish => []

theorem Handling.ledgers_act (h : Handling) (s : Scanner) (m : Machine) :
    (leftBy (h.act s) m).host.ledgers =
      (h.deeds s m).foldl (Deed.post s.ledger) m.host.ledgers := by
  have hclose : Keeps (fun m => m.host.ledgers) s.close :=
    Scanner.keeps_close fun _ _ _ _ _ _ => rfl
  cases h with
  | pull =>
    rw [act, leftBy_bind_return]
    exact s.ledgers_pull m
  | collect =>
    rw [act, leftBy_bind_return]
    exact s.ledgers_collectUpTo _ m
  | recordError complaint =>
    rw [act, leftBy_bind_return]
    exact s.ledgers_recordError complaint m
  | noteError complaint =>
    rw [act, leftBy_bind_return, leftBy_of_ok (Scanner.noteError_run complaint m.progress m.host)]
    rfl
  | enterQuoted =>
    rw [act, leftBy_bind_return]
    exact (congrArg Prod.fst (Scanner.record_enterQuoted m)).symm
  | leaveQuoted => exact (congrArg Prod.fst (Scanner.record_leaveQuoted m)).symm
  | release =>
    have hkept : Keeps (fun m => m.host.ledgers) s.release :=
      Scanner.keeps_release fun _ _ _ _ _ _ => rfl
    exact (hkept m).symm
  | close => exact (hclose m).symm
  | finish =>
    rw [act, leftBy_bind_return]
    exact ((hclose.bind fun _ _ => rfl : Keeps (fun m => m.host.ledgers) s.finish) m).symm

namespace Store

variable {st st' st'' : Store} {i : ScanId} {l : LedgerId} {t : StreamId} {e : Ambient}
  {rules : Option Language} {r : Request} {op : Operation} {os os' : List Occurrence}

/-! ## The occurrences of a program -/

/-- What happens when a scan is handled. -/
def handled (st : Store) (i : ScanId) (h : Handling) : List Occurrence :=
  (h.deeds (st.scan i).scanner ⟨(st.scan i).progress, st.host⟩).map (.did i)

/-- What happens when an operation is done. -/
def occurrences (st : Store) : Operation → List Occurrence
  | .start e rules r =>
    match start e rules r st with
    | .ok i _ => [.started i e.ledger r.source.length]
    | .error _ _ => []
  | .tokenize e l r =>
    match start e (some l) r st with
    | .ok i st' => .started i e.ledger r.source.length :: st'.handled i .collect
    | .error _ _ => []
  | .handle i h => st.handled i h
  | .pullStream t =>
    if (st.stream t).finished then [] else st.handled (st.stream t).scan .pull
  | _ => []

/-! ## The ledgers of scans -/

/-- The ledger that a scan is counted on, if any. -/
def ledgerOf (st : Store) (i : ScanId) : Option LedgerId := (st.scan i).scanner.ledger

theorem ledgerOf_eq (st : Store) (i : ScanId) :
    st.ledgerOf i = st.scanners[i]?.bind Scanner.ledger := by
  rw [ledgerOf, scanner_eq]
  cases st.scanners[i]? <;> rfl

theorem ledgerOf_of_scanners (h : st'.scanners = st.scanners) : st'.ledgerOf = st.ledgerOf := by
  funext i
  rw [ledgerOf_eq, h, ledgerOf_eq]

theorem persists_scanners {scanners : List Scanner} :
    Persists fun st => st.scanners = scanners where
  release i st h := (scanners_onScan i Scanner.release st).trans h
  setArena _ _ h := h
  markReleased _ h := h
  report _ _ h := h

theorem tended_scanners (scanners : List Scanner) : Tended fun st => scanners <+: st.scanners where
  same hscans _ h := by rwa [scanners_of_scans hscans]
  tends {st i} h _ :=
    have hall (m : Machine) : scanners <+: (st.putMachine i m).scanners := by
      rwa [scanners_putMachine]
    { same := fun _ _ => hall _, clone := fun _ _ _ => hall _, append := fun _ _ _ _ => hall _,
      leave := fun _ _ => hall _, enter := fun _ _ => hall _, shut := fun _ _ => hall _ }
  setArena _ _ h := h
  markReleased _ h := h

/-- Scanners are added, but none is ever changed. -/
theorem scanners_perform (op : Operation) (st : Store) :
    st.scanners <+: (leftBy op.perform st).scanners := by
  have hsame {st' : Store} (h : st'.scanners = st.scanners) : st.scanners <+: st'.scanners :=
    h ▸ List.prefix_rfl
  refine (tended_scanners st.scanners).perform List.prefix_rfl (fun hhand => ?_)
    (fun e rules r _ => ?_) fun i h _ _ => hsame (scanners_onScan i h.act st)
  · exact hsame (scanners_of_scans (Operation.scans_of_byHand hhand))
  · rcases (leftBy_start e rules r st).2 with hscans | hscans
    · have hadded : (leftBy (start e rules r) st).scanners =
          st.scanners ++ [r.scanner e rules st.scans.length] := by
        rw [scanners, hscans, List.map_append]
        rfl
      rw [hadded]
      exact List.prefix_append _ _
    · exact hsame (scanners_of_scans hscans)

/-- A ledger once something has happened. It is active, or the ledger of these scans. -/
def enter (l : LedgerId) (mine : ScanId → Bool) (x : Ledger) : Occurrence → Ledger
  | .started _ active length => if active = some l then x.countScan length else x
  | .did i d => if mine i then x.count d.entry else x

/-- All ledgers that scans are counted on are there. -/
def Grounded (st : Store) : Prop :=
  ∀ s ∈ st.scanners, ∀ l, s.ledger = some l → l < st.host.ledgers.length

theorem Grounded.lt (h : st.Grounded) (hl : st.ledgerOf i = some l) :
    l < st.host.ledgers.length := by
  rw [ledgerOf_eq] at hl
  obtain ⟨s, hs, hl⟩ := Option.bind_eq_some_iff.mp hl
  exact h s (List.mem_of_getElem? hs) l hl

/-- One ledger once a scan has done something. -/
theorem getD_foldl_post {mine : ScanId → Bool} {k : Option LedgerId} {ledgers : List Ledger}
    (hk : ∀ l, k = some l → l < ledgers.length) (hmine : mine i = decide (k = some l))
    (ds : List Deed) : (ds.foldl (Deed.post k) ledgers).getD l default =
      (ds.map (Occurrence.did i)).foldl (enter l mine) (ledgers.getD l default) := by
  induction ds generalizing ledgers with
  | nil => rfl
  | cons d ds ih =>
    have hlength : (d.post k ledgers).length = ledgers.length := Ledger.length_account ..
    rw [List.foldl_cons, ih (by rwa [hlength]), Deed.post, Ledger.getD_account hk, List.map_cons,
      List.foldl_cons, enter, hmine]
    simp only [decide_eq_true_eq]

/-- What happened from one store to the next is this, as far as it is to be counted, and a ledger
has counted it. -/
structure Booked (l : LedgerId) (st : Store) (os : List Occurrence) (st' : Store) : Prop where
  grounded : st'.Grounded
  /-- Ledgers are added, but never removed. -/
  length : st.host.ledgers.length ≤ st'.host.ledgers.length
  scanners : st.scanners <+: st'.scanners
  known : ∀ o ∈ os, o.scan < st'.scans.length
  active : ∀ i active length, .started i active length ∈ os → st'.ledgerOf i = active
  started : ∀ i < st'.scans.length, st.scans.length ≤ i →
    ∃ length, .started i (st'.ledgerOf i) length ∈ os
  ledger : st'.host.ledger l =
    os.foldl (enter l fun i => decide (st'.ledgerOf i = some l)) (st.host.ledger l)

theorem Booked.length_le (h : Booked l st os st') : st.scans.length ≤ st'.scans.length := by
  rw [← length_scanners, ← length_scanners]
  exact h.scanners.length_le

theorem Booked.ledgerOf (h : Booked l st os st') (hi : i < st.scans.length) :
    st'.ledgerOf i = st.ledgerOf i := by
  rw [← length_scanners] at hi
  obtain ⟨later, hlater⟩ := h.scanners
  rw [ledgerOf_eq, ledgerOf_eq, ← hlater, List.getElem?_append_left hi]

theorem Booked.trans (h : Booked l st os st') (h' : Booked l st' os' st'') :
    Booked l st (os ++ os') st'' where
  grounded := h'.grounded
  length := h.length.trans h'.length
  scanners := h.scanners.trans h'.scanners
  known o ho := by
    rcases List.mem_append.mp ho with ho | ho
    · exact (h.known o ho).trans_le h'.length_le
    · exact h'.known o ho
  active i active length ho := by
    rcases List.mem_append.mp ho with ho | ho
    · have hi : i < st'.scans.length := h.known _ ho
      rw [h'.ledgerOf hi]
      exact h.active i active length ho
    · exact h'.active i active length ho
  started i hi hle := by
    by_cases hi' : i < st'.scans.length
    · obtain ⟨length, ho⟩ := h.started i hi' hle
      rw [h'.ledgerOf hi']
      exact ⟨length, List.mem_append_left _ ho⟩
    · obtain ⟨length, ho⟩ := h'.started i hi (Nat.le_of_not_lt hi')
      exact ⟨length, List.mem_append_right _ ho⟩
  ledger := by
    rw [h'.ledger, h.ledger, List.foldl_append]
    congr 1
    refine List.foldl_ext _ _ _ fun x o ho => ?_
    cases o with
    | started => rfl
    | did i d =>
      have hi : i < st'.scans.length := h.known _ ho
      rw [enter, enter, h'.ledgerOf hi]

/-! ## Where no scan is started -/

theorem booked_of_scanners (h : st.Grounded) (hscanners : st'.scanners = st.scanners)
    (hlength : st.host.ledgers.length ≤ st'.host.ledgers.length)
    (hdid : ∀ o ∈ os, ∃ i d, o = .did i d ∧ i < st.scans.length)
    (hledger : st'.host.ledger l =
      os.foldl (enter l fun i => decide (st.ledgerOf i = some l)) (st.host.ledger l)) :
    Booked l st os st' := by
  have hscans : st'.scans.length = st.scans.length := by
    rw [← length_scanners, hscanners, length_scanners]
  have hledgerOf := ledgerOf_of_scanners hscanners
  refine ⟨fun s hs k hk => ?_, hlength, hscanners ▸ List.prefix_rfl, fun o ho => ?_,
    fun i active length ho => ?_, fun i hi hle => ?_, ?_⟩
  · rw [hscanners] at hs
    exact (h s hs k hk).trans_le hlength
  · obtain ⟨i, d, rfl, hi⟩ := hdid o ho
    rwa [hscans]
  · obtain ⟨j, d, ho, -⟩ := hdid _ ho
    cases ho
  · exact absurd (hscans ▸ hi) (Nat.not_lt_of_le hle)
  · rw [hledger, hledgerOf]

/-- Nothing that is to be counted happens where neither scanners nor ledgers change. -/
theorem booked_of_ledgers (h : st.Grounded) (hscanners : st'.scanners = st.scanners)
    (hledgers : st'.host.ledgers = st.host.ledgers) : Booked l st [] st' :=
  booked_of_scanners h hscanners (by rw [hledgers]) (fun _ ho => absurd ho List.not_mem_nil)
    (by rw [Host.ledger, hledgers, Host.ledger]; rfl)

theorem booked_handle (hg : st.Grounded) (hi : i < st.scans.length) (h : Handling) :
    Booked l st (st.handled i h) (leftBy (onScan i h.act) st) := by
  have hledgers : (leftBy (onScan i h.act) st).host.ledgers =
      (h.deeds (st.scan i).scanner ⟨(st.scan i).progress, st.host⟩).foldl
        (Deed.post (st.ledgerOf i)) st.host.ledgers := by
    rw [leftBy_onScan]
    exact h.ledgers_act _ _
  refine booked_of_scanners hg (scanners_onScan i h.act st) ?_ (fun o ho => ?_) ?_
  · rw [hledgers, Deed.length_foldl_post]
  · obtain ⟨d, -, rfl⟩ := List.mem_map.mp ho
    exact ⟨i, d, rfl, hi⟩
  · rw [Host.ledger, hledgers]
    exact getD_foldl_post (fun _ => hg.lt) rfl _

/-- A scan that does not exist is as good as closed, so a pull of it does nothing. -/
theorem booked_pull (hg : st.Grounded) (i : ScanId) :
    Booked l st (st.handled i .pull) (leftBy (onScan i Scanner.pull) st) := by
  rw [← leftBy_handle_pull]
  by_cases hi : i < st.scans.length
  · exact booked_handle hg hi .pull
  · have hclosed := closed_of_le (Nat.le_of_not_lt hi)
    have hnothing : st.handled i .pull = [] := by
      rw [handled, Handling.deeds, Scanner.pullDeeds_of_closed hclosed, List.map_nil]
    rw [hnothing, leftBy_onScan_of_closed (h := .pull) trivial hclosed]
    exact booked_of_ledgers hg rfl rfl

/-! ## Where a scan is started -/

/-- A scan is started and counted on the active ledger, or neither scanners nor ledgers change. -/
theorem started_or_same (e : Ambient) (rules : Option Language) (r : Request) (st : Store) :
    (∃ st', start e rules r st = .ok st.scans.length st' ∧
      st'.scanners = st.scanners ++ [r.scanner e rules st.scans.length] ∧
      st'.host.ledgers =
        Ledger.account e.ledger (Ledger.countScan r.source.length) st.host.ledgers) ∨
    ∃ failure st', start e rules r st = .error failure st' ∧
      st'.scanners = st.scanners ∧ st'.host.ledgers = st.host.ledgers := by
  cases hr : Memory.acquireContext (r.scanner e rules st.scans.length).allocator st.scans.length
    st.host.memory with
  | ok u memory =>
    let s := r.scanner e rules st.scans.length
    let counted : Host :=
      { st.host with memory := memory }.account s.ledger (Ledger.countScan r.source.length)
    have hstart : start e rules r st = .ok st.scans.length { st with
        scans := st.scans ++ [⟨s, .initial⟩]
        host := counted.report (.scanStarted s.name r.source.length) } := by
      rw [start, run_bind_get, run_bind_ok (onMemory_run hr)]
      rfl
    exact .inl ⟨_, hstart, List.map_append, Ledger.ledgers_account ..⟩
  | error fault memory => exact .inr ⟨_, _, start_of_refused hr, rfl, rfl⟩

/-- What happens when a scan is started. -/
theorem booked_start (hg : st.Grounded)
    (he : ∀ k, e.ledger = some k → k < st.host.ledgers.length) (rules : Option Language)
    (r : Request) :
    (∃ st', start e rules r st = .ok st.scans.length st' ∧ st.scans.length < st'.scans.length ∧
      Booked l st [.started st.scans.length e.ledger r.source.length] st') ∨
    ∃ failure st', start e rules r st = .error failure st' ∧ Booked l st [] st' := by
  rcases started_or_same e rules r st with
    ⟨st', hr, hscanners, hledgers⟩ | ⟨failure, st', hr, hscanners, hledgers⟩
  · have hcount : st'.scans.length = st.scans.length + 1 := by
      rw [← length_scanners, hscanners, List.length_append, length_scanners, List.length_singleton]
    have hlength : st'.host.ledgers.length = st.host.ledgers.length := by
      rw [hledgers, Ledger.length_account]
    have hnew : st'.ledgerOf st.scans.length = e.ledger := by
      rw [ledgerOf_eq, hscanners, ← length_scanners, List.getElem?_concat_length]
      rfl
    refine .inl ⟨st', hr, by rw [hcount]; exact Nat.lt_succ_self _, {
      grounded := fun s hs k hk => ?_
      length := by rw [hlength]
      scanners := by rw [hscanners]; exact List.prefix_append _ _
      known := fun o ho => ?_
      active := fun i active length ho => ?_
      started := fun i hi hle => ?_
      ledger := ?_ }⟩
    · rw [hlength]
      rw [hscanners] at hs
      rcases List.mem_append.mp hs with hs | hs
      · exact hg s hs k hk
      · obtain rfl := List.mem_singleton.mp hs
        exact he k hk
    · obtain rfl := List.mem_singleton.mp ho
      rw [hcount]
      exact Nat.lt_succ_self _
    · cases List.mem_singleton.mp ho
      exact hnew
    · rw [hcount] at hi
      obtain rfl : i = st.scans.length := Nat.le_antisymm (Nat.lt_succ_iff.mp hi) hle
      rw [hnew]
      exact ⟨_, List.mem_singleton_self _⟩
    · rw [Host.ledger, hledgers, Ledger.getD_account he, List.foldl_cons, List.foldl_nil, enter]
      rfl
  · exact .inr ⟨failure, st', hr, booked_of_ledgers hg hscanners hledgers⟩

/-! ## All operations -/

theorem booked_pullStream (hg : st.Grounded) (t : StreamId) :
    Booked l st (st.occurrences (.pullStream t)) (leftBy (pullStream t) st) := by
  rw [occurrences]
  cases hfinished : (st.stream t).finished with
  | true =>
    rw [if_pos rfl, leftBy_of_ok (pullStream_of_finished hfinished)]
    exact booked_of_ledgers hg rfl rfl
  | false =>
    have hpulled := booked_pull (l := l) hg (st.stream t).scan
    obtain ⟨hscans, hhost⟩ := leftBy_pullStream hfinished
    have hfinish : Booked l (leftBy (onScan (st.stream t).scan Scanner.pull) st) []
        (leftBy (pullStream t) st) :=
      booked_of_ledgers hpulled.grounded (scanners_of_scans hscans) (by rw [hhost])
    have htotal := hpulled.trans hfinish
    rwa [List.append_nil] at htotal

/-- A new ledger is blank, as one that there is not reads. -/
theorem booked_addLedger (hg : st.Grounded) : Booked l st [] (leftBy addLedger st) := by
  refine booked_of_scanners hg rfl ?_ (fun _ ho => absurd ho List.not_mem_nil) ?_
  · show st.host.ledgers.length ≤ (st.host.ledgers ++ [Ledger.blank]).length
    rw [List.length_append]
    exact Nat.le_add_right _ _
  · show (st.host.ledgers ++ [Ledger.blank]).getD l default = st.host.ledgers.getD l default
    rw [List.getD_eq_getElem?_getD, List.getD_eq_getElem?_getD, List.getElem?_append]
    split
    · rfl
    · rename_i hle
      rw [List.getElem?_eq_none (Nat.le_of_not_lt hle)]
      cases l - st.host.ledgers.length <;> rfl

/-- What happens when an operation is done. -/
theorem booked_perform (hg : st.Grounded) (hknown : op.Known st)
    (hactive : ∀ e rules r, op.Starts e rules r → ∀ k, e.ledger = some k →
      k < st.host.ledgers.length) (hleaves : ∀ entry, op ≠ .count l entry) :
    Booked l st (st.occurrences op) (leftBy op.perform st) := by
  have hhand (hop : op.IsByHand) : Booked l st [] (leftBy op.perform st) := by
    obtain ⟨m, hleft⟩ := Operation.leftBy_byHand st hop
    rw [hleft]
    exact booked_of_ledgers hg rfl rfl
  cases op with
  | start e rules r =>
    rw [Operation.perform, leftBy_bind_return, occurrences]
    rcases booked_start (l := l) hg (hactive e rules r ⟨rfl, rfl, rfl⟩) rules r with
      ⟨st', hr, -, hbooked⟩ | ⟨failure, st', hr, hbooked⟩
    · rw [hr, leftBy_of_ok hr]
      exact hbooked
    · rw [hr, leftBy_of_error hr]
      exact hbooked
  | tokenize e language r =>
    rw [Operation.perform, leftBy_bind_return, occurrences]
    have he := hactive e (some language) r ⟨rfl, rfl, rfl⟩
    rcases booked_start (l := l) hg he (some language) r with
      ⟨st', hr, hi, hbooked⟩ | ⟨failure, st', hr, hbooked⟩
    · rw [hr, leftBy_tokenize hr]
      have hcollected := booked_handle (l := l) hbooked.grounded hi .collect
      rw [leftBy_handle_collect] at hcollected
      have hi' := hi.trans_le hcollected.length_le
      have hclosed := booked_handle (l := l) hcollected.grounded hi' .close
      have htotal := hbooked.trans (hcollected.trans hclosed)
      have hnothing (st : Store) (i : ScanId) : st.handled i .close = [] := rfl
      rwa [hnothing, List.append_nil] at htotal
    · rw [hr, leftBy_tokenize_of_refused hr]
      exact hbooked
  | handle i h => exact booked_handle hg hknown h
  | pullStream t =>
    rw [Operation.perform, leftBy_bind_return]
    exact booked_pullStream hg t
  | releaseAll a =>
    rw [Operation.perform, leftBy_bind_return]
    exact booked_of_ledgers hg (persists_scanners.releaseAll a st rfl)
      (persists_ledgers.releaseAll a st rfl)
  | closeArena a =>
    exact booked_of_ledgers hg (persists_scanners.closeArena a st rfl)
      (persists_ledgers.closeArena a st rfl)
  | enterArena a =>
    rw [Operation.perform, leftBy_enterArena]
    exact booked_of_ledgers hg rfl rfl
  | openStream i => exact booked_of_ledgers hg rfl rfl
  | addLedger => exact booked_addLedger hg
  | count k entry =>
    have hne : ¬some k = some l := fun hk => hleaves entry (by rw [Option.some.inj hk])
    have hledgers : (leftBy (Operation.count k entry).perform st).host.ledgers =
        Ledger.account (some k) (Ledger.count entry) st.host.ledgers := rfl
    have hk : ∀ j, some k = some j → j < st.host.ledgers.length := fun j hj =>
      Option.some.inj hj ▸ hknown
    refine booked_of_scanners hg rfl ?_ (fun _ ho => absurd ho List.not_mem_nil) ?_
    · rw [hledgers, Ledger.length_account]
    · rw [Host.ledger, hledgers, Ledger.getD_account hk, if_neg hne]
      rfl
  | _ => exact hhand trivial

end Store

end MiniLex
