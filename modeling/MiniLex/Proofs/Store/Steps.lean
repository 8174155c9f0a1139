import MiniLex.Proofs.Memory.Step
import MiniLex.Proofs.Store.Tending

/-!
# Programs by steps of memory

Whatever a program does comes to steps of its memory, and to scans being started
and closed. What is true of the memory and of which scans are gone (`Store.gone`)
holds of all stores that a program can get to, if every kind of step keeps it,
and a scan that is closed and lets its context go (`Invariant`):
`Invariant.after`.
-/

namespace MiniLex

open Relation (ReflTransGen)

variable {asks : AllocatorId → Call → Prop} {free : AllocatorId → Prop}

/-! ## Scans -/

namespace Scanner

variable {s : Scanner} {R : Bool → Memory → Prop}

/-- What steps of memory keep, a scan keeps whose allocator there is, if closing it does so. A scan
asks no allocator to let a context go but then. -/
theorem tends_of_steps (hasks : ∀ a call, call.method ≠ .releaseContext → asks a call)
    (hknown : ∀ {c m}, R c m → s.allocator < m.allocators.length)
    (hstep : ∀ {c m m'}, Memory.Step asks free m m' → R c m → R c m')
    (hshut : ∀ {m}, R false m → R true (leftBy (Memory.releaseContext s.allocator s.id) m)) :
    s.Tends fun m => R m.progress.closed m.host.memory where
  same h hm := by rwa [h.closed, h.memory]
  clone text m hm := by
    rw [leftBy_onMemory]
    exact Memory.of_steps hstep (Memory.steps_clone (hasks _ _ nofun) _) hm
  append b text m hm := by
    rw [leftBy_onMemory]
    exact Memory.of_steps hstep (Memory.steps_append (fun _ _ => hasks _ _ nofun) _ _) hm.1
  leave m hm := by
    rcases s.leaveQuoted_left m with ⟨-, hleft⟩ | ⟨b, -, hleft⟩
    · rw [hleft]
      exact hm
    · have hsteps : R m.progress.closed (leftBy (Memory.release s.allocator b) m.host.memory) :=
        Memory.of_steps hstep (Memory.steps_release (hasks _ _ nofun) _) hm
      rcases hleft with hleft | hleft <;> rw [hleft] <;> exact hsteps
  enter m hm := by
    have hsteps : R m.progress.closed
        (leftBy (Memory.allocate s.allocator Buffer.initialCapacity) m.host.memory) :=
      Memory.of_steps hstep (Memory.steps_allocate (hasks _ _ nofun) (hknown hm)) hm
    rcases s.enterQuoted_left m with ⟨b, hleft⟩ | hleft <;> rw [hleft] <;> exact hsteps
  shut {m} hm hopen := by
    rw [hopen] at hm
    exact hshut hm

end Scanner

/-! ## Stores -/

namespace Store

variable {st : Store} {i j : ScanId} {m : Machine}

/-- Every scan has the identifier by which it is known, and an allocator that there is. -/
structure Sound (st : Store) : Prop where
  numbered : ∀ i < st.scans.length, (st.scan i).scanner.id = i
  known : ∀ i < st.scans.length,
    (st.scan i).scanner.allocator < st.host.memory.allocators.length

/-- A scan was started and has been closed since. -/
def gone (st : Store) (i : ScanId) : Bool :=
  decide (i < st.scans.length) && (st.scan i).progress.closed

theorem Sound.putMachine_iff (h : st.Sound) : (st.putMachine i m).Sound ↔
    ∀ j < st.scans.length, (st.scan j).scanner.allocator < m.host.memory.allocators.length := by
  refine ⟨fun hm j hj => ?_, fun hm => ⟨fun j hj => ?_, fun j hj => ?_⟩⟩
  · have hknown := hm.known j (by rwa [length_putMachine])
    rwa [scanner_putMachine] at hknown
  · rw [length_putMachine] at hj
    rw [scanner_putMachine]
    exact h.numbered j hj
  · rw [length_putMachine] at hj
    rw [scanner_putMachine]
    exact hm j hj

theorem gone_putMachine (m : Machine) (hi : i < st.scans.length) :
    (st.putMachine i m).gone = Function.update st.gone i m.progress.closed := by
  funext j
  rw [gone, length_putMachine]
  by_cases hj : j = i
  · subst hj
    rw [Function.update_self, scan_putMachine_self m hi]
    simp [hi]
  · rw [Function.update_of_ne hj, scan_putMachine_of_ne m hj, gone]

/-- What is true of the memory of a store and of which of its scans are gone, whatever a program
does: steps of memory keep it, and a scan that is closed and lets its context go. -/
structure Invariant (asks : AllocatorId → Call → Prop) (free : AllocatorId → Prop)
    (G : (ScanId → Bool) → Memory → Prop) : Prop where
  /-- What recorders are not to be asked for is to let contexts go. -/
  permits : ∀ a call, call.method ≠ .releaseContext → asks a call
  step : ∀ {f m m'}, Memory.Step asks free m m' → G f m → G f m'
  shut : ∀ {f m i} a, f i = false → G f m →
    G (Function.update f i true) (leftBy (Memory.releaseContext a i) m)

end Store

/-- An operation is about what there is, and recorders and other allocators are not asked by hand for
what they are not to be asked for. -/
structure Operation.Allowed (asks : AllocatorId → Call → Prop) (free : AllocatorId → Prop)
    (st : Store) (op : Operation) : Prop where
  known : op.Known st
  letsGo : ∀ a i, op = .releaseContext a i → asks a (.releaseContext i)
  grows : ∀ a b needed, op = .grow a b needed → free a
  adds : ∀ a capacity, op = .newBuffer a capacity → free a

/-- Whatever is done by hand comes to steps of memory. -/
theorem Operation.steps_byHand {st : Store} {op : Operation}
    (hasks : ∀ a call, call.method ≠ .releaseContext → asks a call) (hhand : op.IsByHand)
    (h : op.Allowed asks free st) :
    ReflTransGen (Memory.Step asks free) st.host.memory (leftBy op.perform st).host.memory := by
  have hmemory : ∀ {α : Type} {act : MemoryM α},
      ReflTransGen (Memory.Step asks free) st.host.memory (leftBy act st.host.memory) →
      ReflTransGen (Memory.Step asks free) st.host.memory
        (leftBy (Store.onMemory act) st).host.memory := by
    intro α act hact
    rw [Store.leftBy_onMemory]
    exact hact
  have hknown := h.known
  cases op with
  | newHeap =>
    rw [perform, leftBy_bind_return]
    exact hmemory (Memory.steps_addAllocator (by simp) (by simp) _)
  | newArena name =>
    rw [perform, leftBy_bind_return]
    refine hmemory (Memory.steps_addAllocator (fun x hx => ?_) (by simp) _)
    cases hx
    rfl
  | newRecorder refuses =>
    rw [perform, leftBy_bind_return]
    refine hmemory (Memory.steps_addAllocator (by simp) (fun r hr => ?_) _)
    cases hr
    rfl
  | allocate a capacity =>
    rw [perform, leftBy_bind_return]
    exact hmemory (Memory.steps_allocate (hasks _ _ (by simp [Call.method])) hknown)
  | grow a b needed =>
    rw [perform, leftBy_bind_return]
    exact hmemory (Memory.steps_grow (hasks _ _ (by simp [Call.method])) (h.grows a b needed rfl) _)
  | clone a text =>
    rw [perform, leftBy_bind_return]
    exact hmemory (Memory.steps_clone (hasks _ _ (by simp [Call.method])) _)
  | newBuffer a capacity =>
    rw [perform, leftBy_bind_return]
    exact hmemory (.single (.addBuffer capacity (h.adds a capacity rfl) hknown))
  | release a b =>
    rw [perform]
    exact hmemory (Memory.steps_release (hasks _ _ (by simp [Call.method])) _)
  | acquireContext a i =>
    rw [perform]
    exact hmemory (Memory.steps_acquireContext (hasks _ _ (by simp [Call.method])) _)
  | releaseContext a i =>
    rw [perform]
    exact hmemory (Memory.steps_releaseContext (h.letsGo a i rfl) _)
  | append b text =>
    rw [perform]
    exact hmemory (Memory.steps_append (fun _ _ => hasks _ _ (by simp [Call.method])) _ _)
  | clear b =>
    rw [perform]
    exact hmemory (.single (.touch b fun _ => ⟨rfl, rfl⟩))
  | markReleased b =>
    rw [perform]
    exact hmemory (Memory.steps_markReleased b _)
  | _ => exact hhand.elim

namespace Store.Invariant

variable {st : Store} {G : (ScanId → Bool) → Memory → Prop}

/-- A store is sound, and such is its memory. -/
def Holds (G : (ScanId → Bool) → Memory → Prop) (st : Store) : Prop :=
  st.Sound ∧ G st.gone st.host.memory

theorem Holds.of_same {st' : Store} (h : Holds G st) (hscans : st'.scans = st.scans)
    (hknown : st.host.memory.allocators.length ≤ st'.host.memory.allocators.length)
    (hG : G st.gone st'.host.memory) : Holds G st' := by
  have hscan : st'.scan = st.scan := by
    funext i
    rw [scan, hscans, scan]
  have hgone : st'.gone = st.gone := by
    funext i
    rw [gone, hscans, hscan, gone]
  refine ⟨⟨fun i hi => ?_, fun i hi => ?_⟩, by rwa [hgone]⟩
  · rw [hscan]
    exact h.1.numbered i (hscans ▸ hi)
  · rw [hscan]
    exact Nat.lt_of_lt_of_le (h.1.known i (hscans ▸ hi)) hknown

/-- What has become of the memory by steps. -/
theorem Holds.of_steps {st' : Store} (t : Invariant asks free G) (h : Holds G st)
    (hscans : st'.scans = st.scans)
    (hsteps : ReflTransGen (Memory.Step asks free) st.host.memory st'.host.memory) : Holds G st' := by
  exact h.of_same hscans (Memory.length_allocators_le_of_steps hsteps)
    (Memory.of_steps t.step hsteps h.2)

theorem tended (t : Invariant asks free G) : Tended (Holds G) where
  same {st st'} hscans hmemory h := h.of_same hscans (by rw [hmemory]) (by rw [hmemory]; exact h.2)
  tends {st i} h hi := by
    let R : Bool → Memory → Prop := fun c m =>
      (∀ j < st.scans.length, (st.scan j).scanner.allocator < m.allocators.length) ∧
        G (Function.update st.gone i c) m
    have hmachine : (fun m => Holds G (st.putMachine i m)) =
        fun m => R m.progress.closed m.host.memory := by
      funext m
      rw [Holds, h.1.putMachine_iff, gone_putMachine m hi]
      rfl
    have hkeep : ∀ {c m m'}, Memory.Step asks free m m' → R c m → R c m' := fun hstep hR =>
      ⟨fun j hj => Nat.lt_of_lt_of_le (hR.1 j hj) hstep.length_allocators_le, t.step hstep hR.2⟩
    rw [hmachine]
    refine Scanner.tends_of_steps t.permits (fun hR => hR.1 i hi) hkeep fun {m} hR => ?_
    let a := (st.scan i).scanner.allocator
    have hsteps : ReflTransGen (Memory.Step (fun _ _ => True) free) m
        (leftBy (Memory.releaseContext a i) m) := Memory.steps_releaseContext trivial m
    have hshut := t.shut a (Function.update_self ..) hR.2
    rw [Function.update_idem] at hshut
    rw [h.1.numbered i hi]
    exact ⟨fun j hj => Nat.lt_of_lt_of_le (hR.1 j hj)
      (Memory.length_allocators_le_of_steps hsteps), hshut⟩
  setArena ha hy h := h.of_steps t rfl (.single (.arena ha hy.charsReserved_eq))
  markReleased b h := h.of_steps t rfl (Memory.steps_markReleased b _)

/-- A scan that is started is not gone. -/
theorem Holds.start {e : Ambient} {rules : Option Language} {r : Request}
    (t : Invariant asks free G) (h : Holds G st)
    (ha : (r.scanner e rules st.scans.length).allocator < st.host.memory.allocators.length) :
    Holds G (leftBy (start e rules r) st) := by
  obtain ⟨hmemory, hscans⟩ := leftBy_start e rules r st
  have hsteps : ReflTransGen (Memory.Step asks free) st.host.memory
      (leftBy (Store.start e rules r) st).host.memory := by
    rw [hmemory]
    exact Memory.steps_acquireContext (t.permits _ _ nofun) st.host.memory
  have hlength := Memory.length_allocators_le_of_steps hsteps
  rcases hscans with hscans | hscans
  · generalize leftBy (Store.start e rules r) st = st' at *
    have hcount : st'.scans.length = st.scans.length + 1 := by simp [hscans]
    have hgone : st'.gone = st.gone := by
      funext i
      rw [gone, gone, hcount]
      rcases Nat.lt_trichotomy i st.scans.length with hi | rfl | hi
      · rw [scan_append_of_lt hscans hi]
        simp [hi, Nat.lt_succ_of_lt hi]
      · simp [scan_append_last hscans, Progress.initial]
      · simp [Nat.not_lt_of_lt hi, Nat.not_lt.mpr (Nat.succ_le_of_lt hi)]
    refine ⟨⟨fun i hi => ?_, fun i hi => ?_⟩, ?_⟩
    · rcases Nat.lt_succ_iff_lt_or_eq.mp (hcount ▸ hi) with hi | rfl
      · rw [scan_append_of_lt hscans hi]
        exact h.1.numbered i hi
      · rw [scan_append_last hscans]
        rfl
    · refine Nat.lt_of_lt_of_le ?_ hlength
      rcases Nat.lt_succ_iff_lt_or_eq.mp (hcount ▸ hi) with hi | rfl
      · rw [scan_append_of_lt hscans hi]
        exact h.1.known i hi
      · rw [scan_append_last hscans]
        exact ha
    · rw [hgone]
      exact Memory.of_steps t.step hsteps h.2
  · exact h.of_steps t hscans hsteps

theorem initial (h : G (fun _ => false) .initial) : Holds G initial := by
  refine ⟨⟨nofun, nofun⟩, ?_⟩
  have hgone : Store.initial.gone = fun _ => false := rfl
  rw [hgone]
  exact h

/-- What every kind of step keeps holds of all stores that a program gets to. -/
theorem after (t : Invariant asks free G) (hG : G (fun _ => false) .initial) {ops : List Operation}
    (hops : Along (Operation.Allowed asks free) Store.initial ops) :
    Holds G (Store.initial.after ops) := by
  refine after_induction (fun st op hop h => ?_) hops (initial hG)
  refine t.tended.perform h (fun hhand => ?_) (fun e rules r hstart => ?_) fun i hd hi hle => ?_
  · exact h.of_steps t (Operation.scans_of_byHand hhand)
      (Operation.steps_byHand t.permits hhand hop)
  · refine h.start t ?_
    have hknown := hop.known
    cases op with
    | start e' rules' r' =>
      obtain ⟨rfl, rfl, rfl⟩ := hstart
      exact hknown
    | tokenize e' l r' =>
      obtain ⟨rfl, rfl, rfl⟩ := hstart
      exact hknown
    | _ => exact hstart.elim
  · have hknown := hop.known
    subst hi
    exact absurd hknown (Nat.not_lt_of_le hle)

end Store.Invariant

end MiniLex
