import MiniLex.Proofs.Memory.Books

/-!
# Calls in balance

What a scan asks of an allocator between its first and its last call is in
`Balanced` order: a buffer that is handed out is given back before the next one
is asked for, and nothing but that buffer grows meanwhile. A list that is still
`Pending` lacks the call that gives the last buffer back.

A recorder remembers its calls in order, whether it grants them or not
(`Memory.Recorded`): one lemma for each operation says which call it adds.
-/

namespace MiniLex

/-- A copy is asked for, or that this buffer grows. -/
def Entry.Uses (e : Entry) (b : BufferId) : Prop :=
  (∃ text, e.call = .clone text) ∨ ∃ needed, e.call = .grow b needed

/-- Every buffer that is handed out is given back before the next one is asked for, exactly once. In
between it may grow, and no other buffer does. Copies may be asked for at any time. -/
inductive Balanced : List Entry → Prop
  | nil : Balanced []
  | clone {text : Text} {granted : Bool} {es : List Entry} :
    Balanced es → Balanced (⟨.clone text, granted⟩ :: es)
  | refused {capacity : Int} {b : BufferId} {es : List Entry} :
    Balanced es → Balanced (⟨.allocate capacity b, false⟩ :: es)
  | granted {capacity : Int} {b : BufferId} {uses es : List Entry} :
    (∀ e ∈ uses, e.Uses b) → Balanced es →
    Balanced (⟨.allocate capacity b, true⟩ :: (uses ++ ⟨.release b, true⟩ :: es))

/-- Calls in balance up to one that has handed this buffer out, which is not given back yet. -/
def Pending (b : BufferId) (es : List Entry) : Prop :=
  ∃ before capacity uses, Balanced before ∧ (∀ e ∈ uses, e.Uses b) ∧
    es = before ++ ⟨.allocate capacity b, true⟩ :: uses

variable {es fs : List Entry} {b : BufferId}

theorem Balanced.append (h : Balanced es) (h' : Balanced fs) : Balanced (es ++ fs) := by
  induction h with
  | nil => exact h'
  | clone _ ih => exact .clone ih
  | refused _ ih => exact .refused ih
  | granted hu _ ih =>
    rw [List.cons_append, List.append_assoc, List.cons_append]
    exact .granted hu ih

theorem Balanced.pending (h : Balanced es) (capacity : Int) (b : BufferId) :
    Pending b (es ++ [⟨.allocate capacity b, true⟩]) :=
  ⟨es, capacity, [], h, by simp, rfl⟩

theorem Pending.use (h : Pending b es) {uses : List Entry} (hu : ∀ e ∈ uses, e.Uses b) :
    Pending b (es ++ uses) := by
  obtain ⟨before, capacity, used, hbefore, hused, rfl⟩ := h
  refine ⟨before, capacity, used ++ uses, hbefore, fun e he => ?_, by simp⟩
  rcases List.mem_append.mp he with he | he
  · exact hused e he
  · exact hu e he

/-- Once the buffer is given back, the calls are in balance. -/
theorem Pending.balanced (h : Pending b es) : Balanced (es ++ [⟨.release b, true⟩]) := by
  obtain ⟨before, capacity, uses, hbefore, hu, rfl⟩ := h
  rw [List.append_assoc, List.cons_append]
  exact hbefore.append (.granted hu .nil)

/-- Whatever else it refuses, a recorder takes contexts, and takes contexts and buffers back. -/
structure Recorder.TakesBack (r : Recorder) : Prop where
  acquireContext : ∀ before i, r.refuses before (.acquireContext i) = false
  releaseContext : ∀ before i, r.refuses before (.releaseContext i) = false
  release : ∀ before b, r.refuses before (.release b) = false

namespace Memory

/-- Since an allocator was this recorder, it has remembered these calls. Its policy is still the
same. -/
def Recorded (m : Memory) (a : AllocatorId) (r : Recorder) (es : List Entry) : Prop :=
  ∃ now, m.allocator a = .recorder now ∧ now.refuses = r.refuses ∧
    now.history = r.history ++ es

namespace Recorded

variable {m m' : Memory} {a : AllocatorId} {r now : Recorder} {call : Call}

theorem refl (ha : m.allocator a = .recorder r) : m.Recorded a r [] :=
  ⟨r, ha, rfl, (List.append_nil _).symm⟩

theorem congr (h : m.Recorded a r es) (hm : m'.allocators = m.allocators) :
    m'.Recorded a r es := by
  obtain ⟨now, hnow, hrest⟩ := h
  refine ⟨now, ?_, hrest⟩
  rwa [allocator, hm]

theorem note (h : m.Recorded a r es) (ha : m.allocator a = .recorder now) (call : Call) :
    (m.setAllocator a (.recorder (now.note call))).Recorded a r
      (es ++ [⟨call, !now.refuses now.calls call⟩]) := by
  obtain ⟨now', hnow, hrefuses, hhistory⟩ := h
  obtain rfl := Allocator.recorder.inj (ha.symm.trans hnow)
  refine ⟨now.note call, allocator_replaced (by simp [ha]) _, hrefuses, ?_⟩
  rw [← List.append_assoc, ← hhistory]
  simp [Recorder.history, Recorder.note]

theorem clone (h : m.Recorded a r es) (text : Text) :
    ∃ granted, (leftBy (Memory.clone a text) m).Recorded a r
      (es ++ [⟨.clone text, granted⟩]) := by
  obtain ⟨now, ha, -⟩ := id h
  have hleft : leftBy (Memory.clone a text) m =
      m.setAllocator a (.recorder (now.note (.clone text))) := by
    rw [Memory.clone, leftBy_bind_get, ha]
    simp only [leftBy_note_bind]
    split <;> rfl
  rw [hleft]
  exact ⟨_, h.note ha _⟩

theorem grow (h : m.Recorded a r es) (b : BufferId) (needed : Int) :
    ∃ granted, (leftBy (Memory.grow a b needed) m).Recorded a r
      (es ++ [⟨.grow b needed, granted⟩]) := by
  obtain ⟨now, ha, -⟩ := id h
  have hleft : leftBy (Memory.grow a b needed) m =
      m.setAllocator a (.recorder (now.note (.grow b needed))) := by
    rw [Memory.grow, leftBy_bind_get, ha]
    simp only [leftBy_note_bind]
    split <;> rfl
  rw [hleft]
  exact ⟨_, h.note ha _⟩

theorem modifyBuffer (b : BufferId) (f : Buffer → Buffer) :
    Leads (fun m => m.Recorded a r es) (fun m => m.Recorded a r es) (Memory.modifyBuffer b f) :=
  fun _ hm => hm.congr rfl

/-- A buffer is appended to with at most one call, which is for this buffer. -/
theorem append (h : m.Recorded a r es) (hb : (m.buffer b).owner = a) (text : Text) :
    ∃ uses, (∀ e ∈ uses, e.Uses b) ∧
      (leftBy (Memory.append b text) m).Recorded a r (es ++ uses) := by
  have hnone : ∃ uses : List Entry, (∀ e ∈ uses, e.Uses b) ∧ m.Recorded a r (es ++ uses) :=
    ⟨[], by simp, by rwa [List.append_nil]⟩
  rw [Memory.append, leftBy_bind_get]
  dsimp only
  rw [hb]
  split
  · exact hnone
  split
  · exact hnone
  split
  · generalize (((m.buffer b).length + text.length : Nat) : Int) = needed
    obtain ⟨granted, hgrow⟩ := h.grow b needed
    have hfirst : Leads (fun m' => m' = m)
        (fun m' => m'.Recorded a r (es ++ [⟨.grow b needed, granted⟩]))
        (Memory.grow a b needed) := by
      rintro m' rfl
      exact hgrow
    refine ⟨[⟨.grow b needed, granted⟩], by simp [Entry.Uses], ?_⟩
    exact hfirst.seq (fun capacity => (modifyBuffer b _).seq fun _ => modifyBuffer b _) m rfl
  · exact hnone

theorem allocate (h : m.Recorded a r es) (capacity : Int) :
    (∃ m', Memory.allocate a capacity m = .ok m.buffers.length m' ∧
      m'.Recorded a r (es ++ [⟨.allocate capacity m.buffers.length, true⟩])) ∨
    ∃ fault m', Memory.allocate a capacity m = .error fault m' ∧
      m'.Recorded a r (es ++ [⟨.allocate capacity m.buffers.length, false⟩]) := by
  obtain ⟨now, ha, -⟩ := id h
  have hnote := h.note ha (.allocate capacity m.buffers.length)
  rw [Memory.allocate, run_bind_get, ha]
  cases hr : now.refuses now.calls (.allocate capacity m.buffers.length) with
  | true =>
    rw [hr] at hnote
    exact .inr ⟨_, _, run_bind_error (note_refused hr), hnote⟩
  | false =>
    rw [hr] at hnote
    exact .inl ⟨_, (run_bind_ok (note_run hr)).trans rfl, hnote.congr rfl⟩

/-! ## Calls that a recorder grants if it takes things back -/

theorem note_run (h : m.Recorded a r es) (hc : ∀ before, r.refuses before call = false) :
    ∃ now, m.allocator a = .recorder now ∧
      Memory.note a now call m = .ok () (m.setAllocator a (.recorder (now.note call))) ∧
      (m.setAllocator a (.recorder (now.note call))).Recorded a r (es ++ [⟨call, true⟩]) := by
  obtain ⟨now, ha, hrefuses, -⟩ := id h
  have hr : now.refuses now.calls call = false := by rw [hrefuses]; exact hc _
  have hnote := h.note ha call
  rw [hr] at hnote
  exact ⟨now, ha, Memory.note_run hr, hnote⟩

theorem acquireContext (h : m.Recorded a r es) (hr : r.TakesBack) (i : ScanId) :
    ∃ m', Memory.acquireContext a i m = .ok () m' ∧
      m'.Recorded a r (es ++ [⟨.acquireContext i, true⟩]) := by
  obtain ⟨now, ha, hrun, hnote⟩ := h.note_run fun before => hr.acquireContext before i
  refine ⟨_, ?_, hnote⟩
  rw [Memory.acquireContext, run_bind_get, ha]
  exact hrun

theorem releaseContext (h : m.Recorded a r es) (hr : r.TakesBack) (i : ScanId) :
    ∃ m', Memory.releaseContext a i m = .ok () m' ∧
      m'.Recorded a r (es ++ [⟨.releaseContext i, true⟩]) := by
  obtain ⟨now, ha, hrun, hnote⟩ := h.note_run fun before => hr.releaseContext before i
  refine ⟨_, ?_, hnote⟩
  rw [Memory.releaseContext, run_bind_get, ha]
  exact hrun

theorem release (h : m.Recorded a r es) (hr : r.TakesBack) (b : BufferId) :
    ∃ m', Memory.release a b m = .ok () m' ∧
      m'.Recorded a r (es ++ [⟨.release b, true⟩]) := by
  obtain ⟨now, ha, hrun, hnote⟩ := h.note_run fun before => hr.release before b
  rw [Memory.release, run_bind_get, ha]
  exact ⟨_, (run_bind_ok hrun).trans rfl, hnote.congr rfl⟩

end Recorded

end Memory

end MiniLex
