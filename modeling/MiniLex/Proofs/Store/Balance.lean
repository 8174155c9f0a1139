import MiniLex.Proofs.Memory.Balance
import MiniLex.Proofs.Scan.Upkeep
import MiniLex.Proofs.Store.Tokenize

/-!
# Tokenizing balances its calls

While a source is tokenized, the calls that its allocator has got are in balance
but for the buffer that the scan holds (`Scanner.InBalance`). Obtaining that
buffer, using it and giving it back keep them so, hence a pull does too, whether
it fails or not; and closing the scan gives back what is still held. So the
calls of a whole `tokenize` are in balance, however it ends:
`tokenize_balanced`.
-/

namespace MiniLex

namespace Scanner

open ScanM

variable {s : Scanner} {r : Recorder} {m : Machine} {es : List Entry}

/-- A scan is open, and since its allocator was this recorder, its context was put in care, and the
calls after that are in balance, but for the buffer that the scan holds. -/
structure InBalance (s : Scanner) (r : Recorder) (m : Machine) : Prop where
  isOpen : m.progress.closed = false
  calls : ∃ es, m.host.memory.Recorded s.allocator r (⟨.acquireContext s.id, true⟩ :: es) ∧
    match m.progress.accumulator with
    | none => Balanced es
    | some b => Pending b es ∧ (m.host.memory.buffer b).owner = s.allocator

/-- Leaving quoted mode always succeeds, and what is held is given back. -/
theorem InBalance.leave (h : s.InBalance r m) (hr : r.TakesBack) :
    ∃ m', s.leaveQuoted m = .ok () m' ∧ Holding (s.InBalance r) none m' := by
  obtain ⟨hopen, es, hes, hheld⟩ := h
  cases ha : m.progress.accumulator with
  | none =>
    rw [ha] at hheld
    exact ⟨_, leaveQuoted_of_none ha, ⟨hopen, es, hes, by simpa [ha] using hheld⟩, ha⟩
  | some b =>
    rw [ha] at hheld
    obtain ⟨memory, hrelease, hes'⟩ := hes.release hr b
    exact ⟨_, leaveQuoted_of_held ha hrelease, ⟨hopen, _, hes', hheld.1.balanced⟩, rfl⟩

/-- If no buffer is held, entering quoted mode adds one request. -/
theorem InBalance.enter (h : s.InBalance r m) (ha : m.progress.accumulator = none) :
    s.InBalance r (leftBy s.enterQuoted m) := by
  obtain ⟨hopen, es, hes, hheld⟩ := h
  rw [ha] at hheld
  rcases hes.allocate Buffer.initialCapacity with ⟨memory, hr, hes'⟩ | ⟨fault, memory, hr, hes'⟩
  · rw [leftBy_of_ok (enterQuoted_of_granted hr)]
    refine ⟨hopen, _, hes', hheld.pending _ _, ?_⟩
    exact congrArg Title.owner (Memory.title_of_allocate hr)
  · rw [leftBy_of_error (enterQuoted_of_refused hr)]
    refine ⟨hopen, _, hes', ?_⟩
    simp only [ha]
    exact hheld.append (.refused .nil)

theorem upkeep_inBalance (hr : r.TakesBack) : s.Upkeep (s.InBalance r) where
  same h hm := by
    obtain ⟨hopen, es, hes, hheld⟩ := hm
    refine ⟨h.closed.trans hopen, es, ?_, ?_⟩
    · rwa [h.memory]
    · rwa [h.held, h.memory]
  clone text := by
    rintro m ⟨hopen, es, hes, hheld⟩
    rw [leftBy_onMemory]
    obtain ⟨granted, hes'⟩ := hes.clone text
    have hbooks := (Memory.books_clone s.allocator text m.host.memory).symm
    refine ⟨hopen, _, hes', ?_⟩
    dsimp only
    cases ha : m.progress.accumulator with
    | none =>
      rw [ha] at hheld
      exact hheld.append (.clone .nil)
    | some b =>
      rw [ha] at hheld
      refine ⟨hheld.1.use (by simp [Entry.Uses]), ?_⟩
      exact (congrArg Title.owner (Memory.title_of_books hbooks b)).trans hheld.2
  append b text := by
    rintro m ⟨⟨hopen, es, hes, hheld⟩, ha⟩
    rw [ha] at hheld
    rw [leftBy_onMemory]
    obtain ⟨uses, huses, hes'⟩ := hes.append hheld.2 text
    have hbooks := (Memory.books_append b text m.host.memory).symm
    refine ⟨hopen, _, hes', ?_⟩
    dsimp only
    rw [ha]
    refine ⟨hheld.1.use huses, ?_⟩
    exact (congrArg Title.owner (Memory.title_of_books hbooks b)).trans hheld.2
  leave := by
    intro m hm
    obtain ⟨m', hleave, hm', -⟩ := hm.leave hr
    rwa [leftBy_of_ok hleave]

/-- Closing a scan gives back its buffer, if it holds one, and then its context. -/
theorem InBalance.close (h : s.InBalance r m) (hr : r.TakesBack) :
    ∃ es, Balanced es ∧ (leftBy s.close m).host.memory.Recorded s.allocator r
      (⟨.acquireContext s.id, true⟩ :: (es ++ [⟨.releaseContext s.id, true⟩])) := by
  obtain ⟨m₁, hleave, ⟨-, es, hes, hheld⟩, ha⟩ := h.leave hr
  rw [ha] at hheld
  obtain ⟨memory, hcontext, hes'⟩ := hes.releaseContext hr s.id
  refine ⟨es, hheld, ?_⟩
  have hopen : ¬m.progress.closed = true := by simp [h.isOpen]
  have hrelease := release_of_left h.isOpen hleave hcontext
  rw [Scanner.close, leftBy_bind_ok (progress_run m), if_neg hopen, leftBy_bind_ok hrelease]
  exact hes'

end Scanner

namespace Store

variable {e : Ambient} {l : Language} {q : Request} {st : Store} {r : Recorder}

/-- However tokenizing a source ends, the calls that its allocator gets begin with the context that
is put in its care and end with the same context taken back. In between they are in balance: each
buffer that is handed out is given back, exactly once, before the next one is asked for, and only
that buffer grows meanwhile. Which buffers, growth and copies are refused may depend in any way on
the calls so far; what is not refused is done as the heap does it. The heap and arenas record no
calls, so this says nothing of theirs. -/
theorem tokenize_balanced (e : Ambient) (l : Language) (q : Request) (st : Store)
    (ha : st.host.memory.allocator (q.scanner e (some l) st.scans.length).allocator = .recorder r)
    (hr : r.TakesBack) :
    ∃ now es, (leftBy (tokenize e l q) st).host.memory.allocator
        (q.scanner e (some l) st.scans.length).allocator = .recorder now ∧
      now.history = r.history ++ ⟨.acquireContext st.scans.length, true⟩ ::
        (es ++ [⟨.releaseContext st.scans.length, true⟩]) ∧
      Balanced es := by
  let s := q.scanner e (some l) st.scans.length
  obtain ⟨memory, hacquire, hrecorded⟩ :=
    (Memory.Recorded.refl ha).acquireContext hr st.scans.length
  obtain ⟨st₁, hstart, hscans, hmemory⟩ := start_of_acquired hacquire
  have hscan : st₁.scan st.scans.length = ⟨s, .initial⟩ := by simp [scan, hscans, s]
  have hi : st.scans.length < st₁.scans.length := by simp [hscans]
  -- The scan is in balance once it is started, and stays so while its tokens are collected.
  have hfirst : s.InBalance r ⟨.initial, st₁.host⟩ := ⟨rfl, [], hmemory ▸ hrecorded, .nil⟩
  have hcollected : s.InBalance r (leftBy s.collect ⟨.initial, st₁.host⟩) :=
    (Scanner.upkeep_inBalance hr).collectUpTo (fun m hm => hm.1.enter hm.2) _ _ ⟨hfirst, rfl⟩
  obtain ⟨es, hes, now, hnow, -, hhistory⟩ := hcollected.close hr
  refine ⟨now, es, ?_, hhistory, hes⟩
  rw [tokenize, leftBy_bind_ok hstart, leftBy_tryFinally, leftBy_onScan, leftBy_onScan,
    scan_putMachine_self _ hi, hscan]
  exact hnow

/-- The copy of the second of two quoted names is refused while its buffer is held. -/
theorem tokenize_balanced_refused_copy :
    let r : Recorder := .fresh fun _ call => call = .clone ['b']
    let st : Store := ⟨[], [], ⟨⟨[.heap, .recorder r], []⟩, [], []⟩⟩
    let q : Request := ⟨['"', 'a', '"', ' ', '"', 'b', '"'], some 1, .nothing⟩
    r.TakesBack ∧
      (∃ st', tokenize .initial .standby q st = .error (.allocation (.refused .clone)) st') ∧
      ∃ now es, (leftBy (tokenize .initial .standby q) st).host.memory.allocator 1 =
          .recorder now ∧
        now.history = ⟨.acquireContext 0, true⟩ :: (es ++ [⟨.releaseContext 0, true⟩]) ∧
        Balanced es := by
  intro r st q
  have hr : r.TakesBack := by
    constructor <;> simp [r, Recorder.fresh]
  have hfails : (match tokenize .initial .standby q st with
      | .ok _ _ => none
      | .error failure _ => some failure) = some (.allocation (.refused .clone)) := by
    decide +kernel
  refine ⟨hr, ?_, tokenize_balanced .initial .standby q st rfl hr⟩
  cases ht : tokenize .initial .standby q st with
  | ok tokens st' =>
    rw [ht] at hfails
    cases hfails
  | error failure st' =>
    rw [ht] at hfails
    exact ⟨st', by rw [Option.some.inj hfails]⟩

end Store

end MiniLex
