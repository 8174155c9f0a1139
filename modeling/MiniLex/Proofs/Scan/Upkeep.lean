import MiniLex.Proofs.Scan.Outcome

/-!
# What a scan keeps true

Of the machine that it acts on, a scan changes four things that others have to
rely on: it obtains a buffer on entering quoted mode, gives it back on leaving
it, lets it grow while it is held, and asks for copies. What each of these keeps
true (`Upkeep`), a pull keeps true as a whole, whatever fails in it:
`Upkeep.pull`, with one lemma for each part of a pull.

What the steps that change the buffer come to is `enterQuoted_of_granted`,
`leaveQuoted_of_held` and the lemmas beside them. What each of them leaves in any
case is `enterQuoted_left` and `leaveQuoted_left`, and what is kept true by
everything that is done with a scan is `Tends`.
-/

namespace MiniLex

/-- A failure that is an allocator's. -/
def Failure.IsAllocation (failure : Failure) : Prop := ∃ fault, failure = .allocation fault

namespace Scanner

open ScanM

variable {s : Scanner} {I : Machine → Prop} {held : Option BufferId} {m m' : Machine}

theorem leftBy_onMemory {α : Type} (act : MemoryM α) (m : Machine) :
    leftBy (onMemory act) m =
      { m with host := { m.host with memory := leftBy act m.host.memory } } := by
  unfold leftBy onMemory
  cases act m.host.memory <;> rfl

theorem failsOnly_progress {P : Failure → Prop} : FailsOnly P progress :=
  failsOnly_get.bind fun _ => failsOnly_pure _

theorem onMemory_isAllocation {α : Type} (act : MemoryM α) :
    FailsOnly Failure.IsAllocation (onMemory act) := by
  intro m failure m' h
  unfold onMemory at h
  split at h
  · cases h
  · cases h
    exact ⟨_, rfl⟩

/-! ## Entering and leaving quoted mode, and closing again -/

theorem enterQuoted_of_granted {b : BufferId} {memory : Memory}
    (hr : Memory.allocate s.allocator Buffer.initialCapacity m.host.memory = .ok b memory) :
    s.enterQuoted m = .ok b ⟨{ m.progress with accumulator := some b, mode := .quoted },
      { m.host with memory := memory }⟩ := by
  unfold enterQuoted onMemory
  simp only [bind, EStateM.bind, hr]
  rfl

theorem enterQuoted_of_refused {fault : AllocationFault} {memory : Memory}
    (hr : Memory.allocate s.allocator Buffer.initialCapacity m.host.memory =
      .error fault memory) :
    s.enterQuoted m =
      .error (.allocation fault) { m with host := { m.host with memory := memory } } := by
  unfold enterQuoted onMemory
  simp only [bind, EStateM.bind, hr]

theorem leaveQuoted_of_none (ha : m.progress.accumulator = none) :
    s.leaveQuoted m = .ok () { m with progress := { m.progress with mode := .normal } } := by
  have hrun : s.leaveQuoted m = update (fun p => { p with mode := .normal }) m := by
    rw [leaveQuoted, run_bind_ok (progress_run m)]
    simp only [ha]
  rw [hrun, update_run]

theorem leaveQuoted_of_held {b : BufferId} {memory : Memory}
    (ha : m.progress.accumulator = some b)
    (hr : Memory.release s.allocator b m.host.memory = .ok () memory) :
    s.leaveQuoted m = .ok () ⟨{ m.progress with accumulator := none, mode := .normal },
      { m.host with memory := memory }⟩ := by
  rw [leaveQuoted, run_bind_ok (progress_run m)]
  simp only [ha, onMemory, bind, EStateM.bind, hr]
  rfl

theorem leaveQuoted_of_refused {b : BufferId} {fault : AllocationFault} {memory : Memory}
    (ha : m.progress.accumulator = some b)
    (hr : Memory.release s.allocator b m.host.memory = .error fault memory) :
    s.leaveQuoted m =
      .error (.allocation fault) { m with host := { m.host with memory := memory } } := by
  rw [leaveQuoted, run_bind_ok (progress_run m)]
  simp only [ha, onMemory, bind, EStateM.bind, hr]

/-- What is left on entering quoted mode, whether the buffer is granted or not. -/
theorem enterQuoted_left (s : Scanner) (m : Machine) :
    let h : Host := { m.host with
      memory := leftBy (Memory.allocate s.allocator Buffer.initialCapacity) m.host.memory }
    (∃ b, leftBy s.enterQuoted m =
      ⟨{ m.progress with accumulator := some b, mode := .quoted }, h⟩) ∨
    leftBy s.enterQuoted m = ⟨m.progress, h⟩ := by
  cases hr : Memory.allocate s.allocator Buffer.initialCapacity m.host.memory with
  | ok b memory =>
    rw [leftBy_of_ok (enterQuoted_of_granted hr), leftBy_of_ok hr]
    exact .inl ⟨b, rfl⟩
  | error fault memory =>
    rw [leftBy_of_error (enterQuoted_of_refused hr), leftBy_of_error hr]
    exact .inr rfl

/-- What is left on leaving quoted mode, whether the buffer is taken back or not. -/
theorem leaveQuoted_left (s : Scanner) (m : Machine) :
    (m.progress.accumulator = none ∧
      leftBy s.leaveQuoted m = ⟨{ m.progress with mode := .normal }, m.host⟩) ∨
    ∃ b, m.progress.accumulator = some b ∧
      let h : Host := { m.host with memory := leftBy (Memory.release s.allocator b) m.host.memory }
      (leftBy s.leaveQuoted m = ⟨{ m.progress with accumulator := none, mode := .normal }, h⟩ ∨
        leftBy s.leaveQuoted m = ⟨m.progress, h⟩) := by
  cases ha : m.progress.accumulator with
  | none => exact .inl ⟨rfl, leftBy_of_ok (leaveQuoted_of_none ha)⟩
  | some b =>
    refine .inr ⟨b, rfl, ?_⟩
    cases hr : Memory.release s.allocator b m.host.memory with
    | ok u memory =>
      rw [leftBy_of_ok (leaveQuoted_of_held ha hr), leftBy_of_ok hr]
      exact .inl rfl
    | error fault memory =>
      rw [leftBy_of_error (leaveQuoted_of_refused ha hr), leftBy_of_error hr]
      exact .inr rfl

theorem leaveQuoted_isAllocation (s : Scanner) :
    FailsOnly Failure.IsAllocation s.leaveQuoted := by
  refine failsOnly_progress.bind fun p => ?_
  split
  · exact (onMemory_isAllocation _).bind fun _ => failsOnly_modify _
  · exact failsOnly_modify _

/-- A scan that has left quoted mode is closed and lets its context go. -/
theorem release_of_left {memory : Memory} (hopen : m.progress.closed = false)
    (hleave : s.leaveQuoted m = .ok () m')
    (hr : Memory.releaseContext s.allocator s.id m'.host.memory = .ok () memory) :
    s.release m = .ok () ⟨{ m'.progress with closed := true },
      { m'.host with memory := memory }⟩ := by
  rw [release, run_bind_ok (progress_run m), if_neg (by simp [hopen]), run_bind_ok hleave,
    run_bind_ok (update_run _ _), onMemory]
  simp only [hr]

theorem release_of_closed (hc : m.progress.closed = true) : s.release m = .ok () m := by
  rw [release, run_bind_ok (progress_run m), if_pos hc]
  rfl

theorem close_of_closed (hc : m.progress.closed = true) : s.close m = .ok () m := by
  rw [close, run_bind_ok (progress_run m), if_pos hc]
  rfl

theorem held_of_enterQuoted {b : BufferId} (hr : s.enterQuoted m = .ok b m') :
    m'.progress.accumulator = some b := by
  obtain ⟨b', m₁, -, hr⟩ := of_bind_ok hr
  cases hr
  rfl

/-! ## What is kept true -/

/-- The same buffer is held in the same mode, the scan is as open, and the memory is the same. -/
structure SameUse (m m' : Machine) : Prop where
  held : m'.progress.accumulator = m.progress.accumulator
  mode : m'.progress.mode = m.progress.mode
  closed : m'.progress.closed = m.progress.closed
  memory : m'.host.memory = m.host.memory

/-- Of machines that are such, this buffer is held. -/
def Holding (I : Machine → Prop) (held : Option BufferId) (m : Machine) : Prop :=
  I m ∧ m.progress.accumulator = held

theorem leads_progress {P : Machine → Prop} : Leads P P progress := fun _ h => h

/-- What holds on to whichever buffer is held keeps to the machines that are such. -/
theorem leads_of_holding {α : Type} {x : ScanM α}
    (h : ∀ held, Leads (Holding I held) (Holding I held) x) : Leads I I x :=
  fun m hm => (h m.progress.accumulator m ⟨hm, rfl⟩).1

/-- What a scan keeps true of a machine while it holds on to the buffer that it holds, if any. -/
structure Uses (s : Scanner) (I : Machine → Prop) : Prop where
  same : ∀ {m m'}, SameUse m m' → I m → I m'
  clone : ∀ text, Leads I I (onMemory (Memory.clone s.allocator text))
  /-- Only the buffer that is held is appended to. -/
  append : ∀ b text, Leads (Holding I (some b)) I (onMemory (Memory.append b text))

/-- What a scan keeps true of a machine, if it does so on entering quoted mode. -/
structure Upkeep (s : Scanner) (I : Machine → Prop) : Prop extends s.Uses I where
  leave : Leads I I s.leaveQuoted

/-! ## Parts that hold on to the buffer -/

namespace Uses

theorem holding_same (u : s.Uses I) (hm : Holding I held m) (h : SameUse m m') :
    Holding I held m' := ⟨u.same h hm.1, h.held.trans hm.2⟩

theorem update (u : s.Uses I) (f : Progress → Progress)
    (hf : ∀ p, (f p).accumulator = p.accumulator ∧ (f p).mode = p.mode ∧
      (f p).closed = p.closed) : Leads (Holding I held) (Holding I held) (update f) :=
  fun m hm => have ⟨hheld, hmode, hclosed⟩ := hf m.progress
    u.holding_same hm ⟨hheld, hmode, hclosed, rfl⟩

theorem withLastText (u : s.Uses I) (t : Text) :
    Leads (Holding I held) (Holding I held) (ScanM.update (Progress.withLastText t)) :=
  u.update _ fun _ => ⟨rfl, rfl, rfl⟩

theorem advance (u : s.Uses I) (n : Nat) :
    Leads (Holding I held) (Holding I held) (ScanM.update (Progress.advance n)) :=
  u.update _ fun _ => ⟨rfl, rfl, rfl⟩

theorem countLines (u : s.Uses I) (t : Text) :
    Leads (Holding I held) (Holding I held) (ScanM.update (Progress.countLines t)) :=
  u.update _ fun _ => ⟨rfl, rfl, rfl⟩

theorem updateHost (u : s.Uses I) (f : Host → Host) (hf : ∀ h, (f h).memory = h.memory) :
    Leads (Holding I held) (Holding I held) (updateHost f) :=
  fun m hm => u.holding_same hm ⟨rfl, rfl, rfl, hf m.host⟩

theorem account (u : s.Uses I) (l : Option LedgerId) (f : Ledger → Ledger) :
    Leads (Holding I held) (Holding I held) (ScanM.updateHost (Host.account l f)) :=
  u.updateHost _ (account_memory l f)

theorem report (u : s.Uses I) (event : Event) :
    Leads (Holding I held) (Holding I held) (report event) :=
  u.updateHost _ fun _ => rfl

theorem holding_onMemory {α : Type} {act : MemoryM α} (h : Leads (Holding I held) I (onMemory act)) :
    Leads (Holding I held) (Holding I held) (onMemory act) := by
  intro m hm
  refine ⟨h m hm, ?_⟩
  rw [leftBy_onMemory]
  exact hm.2

theorem holding_clone (u : s.Uses I) (text : Text) :
    Leads (Holding I held) (Holding I held) (onMemory (Memory.clone s.allocator text)) :=
  holding_onMemory fun m hm => u.clone text m hm.1

theorem holding_append (u : s.Uses I) (b : BufferId) (text : Text) :
    Leads (Holding I (some b)) (Holding I (some b)) (onMemory (Memory.append b text)) :=
  holding_onMemory (u.append b text)

theorem makeToken (u : s.Uses I) (kind : TokenKind) (value : Option Text) (start : Nat) :
    Leads (Holding I held) (Holding I held) (s.makeToken kind value start) :=
  leads_progress.seq fun _ => (u.withLastText _).seq fun _ => leads_pure _

theorem makeEnd (u : s.Uses I) (kind : TokenKind) :
    Leads (Holding I held) (Holding I held) (s.makeEnd kind) :=
  leads_progress.seq fun _ => (u.withLastText _).seq fun _ => leads_pure _

theorem emit (u : s.Uses I) (l : Lexeme) :
    Leads (Holding I held) (Holding I held) (s.emit l) := by
  have hstore : Leads (Holding I held) (Holding I held) (s.storeValue l.payload) := by
    cases l.payload with
    | absent | fixed text => exact leads_pure _
    | copied text => exact (u.holding_clone text).seq fun _ => leads_pure _
  refine leads_progress.seq fun p => (u.advance _).seq fun _ => ?_
  exact hstore.seq fun value => u.makeToken _ value _

theorem readBootstrap (u : s.Uses I) :
    Leads (Holding I held) (Holding I held) s.readBootstrap := by
  have hgap : Leads (Holding I held) (Holding I held) s.skipGap := u.update _ fun _ => ⟨rfl, rfl, rfl⟩
  refine hgap.seq fun _ => leads_progress.seq fun p => ?_
  dsimp only
  cases Bootstrap.Reading.read (s.source.drop p.pos) with
  | atEnd => exact u.makeEnd _
  | illegal c =>
    refine leads_progress.seq fun p => (u.account _ _).seq fun _ => ?_
    exact (u.report _).seq fun _ => leads_throw _
  | lexeme l =>
    refine (u.emit l).seq fun token => ?_
    exact (u.countLines _).seq fun _ => leads_pure _

theorem collectRun (u : s.Uses I) (b : BufferId) (run : Text) :
    Leads (Holding I (some b)) (Holding I (some b)) (collectRun b run) := by
  unfold Scanner.collectRun
  split
  · exact leads_pure _
  · exact (u.withLastText run).seq fun _ => u.holding_append b run

theorem recordError (u : s.Uses I) (complaint : String) :
    Leads (Holding I held) (Holding I held) (s.recordError complaint) := by
  intro m hm
  obtain ⟨h', hr, hmemory⟩ := recordError_run s complaint m.progress m.host
  rw [leftBy_of_ok hr]
  exact u.holding_same hm ⟨rfl, rfl, rfl, hmemory⟩

end Uses

/-! ## Parts that obtain the buffer and give it back -/

namespace Upkeep

variable {P : Machine → Prop}

theorem readBody (u : Upkeep s I) (start : Nat) (b : BufferId) (body : Doubled.Body) :
    Leads (Holding I (some b)) I (s.readBody start b body) := by
  have hI : ∀ m, Holding I (some b) m → I m := fun _ => And.left
  have hleave : Leads (Holding I (some b)) I s.leaveQuoted := fun m hm => u.leave m hm.1
  induction body with
  | pair run rest ih =>
    refine (u.collectRun b run).bind (fun _ => ?_) hI
    refine (u.withLastText _).bind (fun _ => ?_) hI
    refine (u.holding_append b _).bind (fun _ => ?_) hI
    exact (u.advance _).bind (fun _ => ih) hI
  | closed run =>
    refine (u.collectRun b run).bind (fun _ => ?_) hI
    refine (u.advance _).bind (fun _ => leads_get.bind (fun m => ?_) hI) hI
    refine (u.holding_clone _).bind (fun copy => hleave.seq fun _ => ?_) hI
    -- From here on it does not matter any more which buffer is held.
    refine leads_of_holding fun held => leads_progress.seq fun p => (u.report _).seq fun _ => ?_
    exact (u.makeToken _ _ start).seq fun token => (u.withLastText _).seq fun _ => leads_pure token
  | unclosed run =>
    refine (u.collectRun b run).bind (fun _ => ?_) hI
    refine (u.advance _).bind (fun _ => (u.withLastText _).bind (fun _ => ?_) hI) hI
    refine (u.recordError _).bind (fun _ => hleave.seq fun _ => ?_) hI
    exact leads_of_holding fun held => leads_progress.seq fun p => leads_pure _

end Upkeep

namespace Uses

/-! Before the buffer is obtained, more may be true than after that. -/

variable {P : Machine → Prop}

theorem readStandby (p : s.Uses P) (u : s.Upkeep I) (hPI : ∀ m, P m → I m)
    (henter : Leads (Holding P held) I s.enterQuoted) :
    Leads (Holding P held) I s.readStandby := by
  have hI : ∀ m, Holding P held m → I m := fun m hm => hPI m hm.1
  have hblanks : Leads (Holding P held) (Holding P held) s.skipBlanks :=
    p.update _ fun _ => ⟨rfl, rfl, rfl⟩
  refine hblanks.bind (fun _ => leads_progress.bind (fun q => ?_) hI) hI
  dsimp only
  cases Standby.Reading.read (s.source.drop q.pos) with
  | atEnd => exact (p.makeEnd _).mono hI
  | lexeme l => exact (p.emit l).mono hI
  | quoted body =>
    refine (p.advance 1).bind (fun _ => (p.withLastText _).bind (fun _ => ?_) hI) hI
    intro m hm
    have hentered := henter m hm
    cases hr : s.enterQuoted m with
    | ok b m₁ =>
      rw [leftBy_of_ok hr] at hentered
      rw [leftBy_bind_ok hr]
      have hI' : ∀ m, Holding I (some b) m → I m := fun _ => And.left
      exact (u.report _).bind (fun _ => u.readBody q.pos b body) hI' m₁
        ⟨hentered, held_of_enterQuoted hr⟩
    | error e m₁ =>
      rw [leftBy_of_error hr] at hentered
      rwa [leftBy_bind_error hr]

theorem readToken (p : s.Uses P) (u : s.Upkeep I) (hPI : ∀ m, P m → I m)
    (henter : Leads (Holding P held) I s.enterQuoted) :
    Leads (Holding P held) I s.readToken := by
  have hI : ∀ m, Holding P held m → I m := fun m hm => hPI m hm.1
  unfold Scanner.readToken
  split
  · exact p.readBootstrap.mono hI
  · exact p.readStandby u hPI henter
  · exact (leads_throw _).mono hI

/-- What is left of a pull once a token is read only counts and logs it. -/
theorem pull_of_readToken {Q : Machine → Prop} (u : s.Uses I) (hI : ∀ m, Q m → I m)
    (hread : Leads Q I s.readToken) : Leads Q I s.pull := by
  refine Leads.bind (Q := Q) (fun _ h => h) (fun q => ?_) hI
  dsimp only
  split
  · exact (leads_throw _).mono hI
  · refine hread.seq fun token => leads_of_holding fun held' => ?_
    cases token.kind.isEnd <;> cases s.tracing
    · exact (u.account _ _).seq fun _ => leads_pure token
    · exact (u.account _ _).seq fun _ => (u.report _).seq fun _ => leads_pure token
    · exact leads_pure token
    · exact (u.report _).seq fun _ => leads_pure token

/-- What a scan keeps true, a pull keeps true if entering quoted mode does so with the buffer that is
held before. -/
theorem pull (p : s.Uses P) (u : s.Upkeep I) (hPI : ∀ m, P m → I m)
    (henter : Leads (Holding P held) I s.enterQuoted) : Leads (Holding P held) I s.pull :=
  u.pull_of_readToken (fun m hm => hPI m hm.1) (p.readToken u hPI henter)

end Uses

namespace Upkeep

theorem pull (u : s.Upkeep I) (henter : Leads (Holding I held) I s.enterQuoted) :
    Leads (Holding I held) I s.pull := u.toUses.pull u (fun _ h => h) henter

theorem held_of_outcome {p : Progress} (ha : p.accumulator = none) :
    (s.outcome p).progress.accumulator = none := by
  have hgap : (s.afterGap p).accumulator = none := ha
  have hblanks : (s.afterBlanks p).accumulator = none := ha
  unfold outcome readOutcome bootstrapOutcome standbyOutcome
  split
  · exact ha
  split
  · dsimp only
    split <;> exact hgap
  · dsimp only
    split <;> first | exact hblanks | rfl
  · exact ha

/-- A pull that returns a token holds no buffer then, if it held none before. -/
theorem held_of_pull_ok {token : Token} (ha : m.progress.accumulator = none)
    (hr : s.pull m = .ok token m') : m'.progress.accumulator = none := by
  have hout : s.outcome m.progress = ⟨.ok token, m'.progress⟩ := pull_ok hr
  have hheld := held_of_outcome (s := s) ha
  rwa [hout] at hheld

/-- What is kept true by a pull that finds no buffer held is kept true by pulling all tokens, as no
buffer is held once a token is returned. -/
theorem collectUpTo (u : Upkeep s I) (henter : Leads (Holding I none) I s.enterQuoted) (n : Nat) :
    Leads (Holding I none) I (s.collectUpTo n) := by
  induction n with
  | zero => exact fun m hm => hm.1
  | succ n ih =>
    intro m hm
    have hpulled := u.pull henter m hm
    unfold Scanner.collectUpTo
    cases hr : s.pull m with
    | error e m₁ =>
      rw [leftBy_of_error hr] at hpulled
      rwa [leftBy_bind_error hr]
    | ok token m₁ =>
      rw [leftBy_of_ok hr] at hpulled
      rw [leftBy_bind_ok hr]
      cases token.kind.isEnd with
      | true => exact hpulled
      | false =>
        exact (ih.seq fun rest => leads_pure _) m₁ ⟨hpulled, held_of_pull_ok hm.2 hr⟩

end Upkeep

/-! ## Whatever is done with a scan -/

/-- What a scan keeps true of a machine whatever is done with it. -/
structure Tends (s : Scanner) (I : Machine → Prop) : Prop extends s.Upkeep I where
  enter : Leads I I s.enterQuoted
  /-- Only a scan that is open gives up its context. -/
  shut : ∀ {m}, I m → m.progress.closed = false →
    I ⟨{ m.progress with closed := true }, { m.host with
      memory := leftBy (Memory.releaseContext s.allocator s.id) m.host.memory }⟩

section Untouched

variable {γ : Type} {view : Machine → γ}

/-- What is seen of a machine apart from its memory, mode and buffer is the same when quoted mode is
left. -/
theorem keeps_leaveQuoted (hview : ∀ (m : Machine) acc mode memory,
    view ⟨{ m.progress with accumulator := acc, mode := mode }, { m.host with memory := memory }⟩ =
      view m) : Keeps view s.leaveQuoted := by
  intro m
  rcases s.leaveQuoted_left m with ⟨-, hleft⟩ | ⟨b, -, hleft | hleft⟩ <;> rw [hleft]
  · exact (hview m m.progress.accumulator .normal m.host.memory).symm
  · exact (hview m none .normal _).symm
  · exact (hview m m.progress.accumulator m.progress.mode _).symm

/-- What is seen of a machine apart from its memory and log, and from mode, buffer and whether it is
closed, is the same when it is closed. -/
theorem keeps_release (hview : ∀ (m : Machine) acc mode closed memory log,
    view ⟨{ m.progress with accumulator := acc, mode := mode, closed := closed },
      { m.host with memory := memory, log := log }⟩ = view m) : Keeps view s.release := by
  have hleave : Keeps view s.leaveQuoted := keeps_leaveQuoted fun m acc mode memory =>
    hview m acc mode m.progress.closed memory m.host.log
  refine Keeps.bind (fun _ => rfl) fun p => ?_
  split
  · exact keeps_pure ()
  refine hleave.bind fun _ => Keeps.bind ?_ fun _ => ?_
  · exact fun m => (hview m m.progress.accumulator m.progress.mode true m.host.memory
      m.host.log).symm
  · intro m
    rw [leftBy_onMemory]
    exact (hview m m.progress.accumulator m.progress.mode m.progress.closed _ m.host.log).symm

theorem keeps_close (hview : ∀ (m : Machine) acc mode closed memory log,
    view ⟨{ m.progress with accumulator := acc, mode := mode, closed := closed },
      { m.host with memory := memory, log := log }⟩ = view m) : Keeps view s.close := by
  refine Keeps.bind (fun _ => rfl) fun p => ?_
  split
  · exact keeps_pure ()
  refine (keeps_release hview).bind fun _ => Keeps.bind (fun _ => rfl) fun p m => ?_
  exact (hview m m.progress.accumulator m.progress.mode m.progress.closed m.host.memory _).symm

end Untouched

namespace Tends

variable (t : s.Tends I)

include t

theorem pull : Leads I I s.pull :=
  fun m hm => t.toUpkeep.pull (fun _ h => t.enter _ h.1) m ⟨hm, rfl⟩

theorem collect : Leads I I s.collect := by
  unfold Scanner.collect
  induction s.source.length + 1 with
  | zero => exact leads_pure _
  | succ n ih =>
    refine t.pull.seq fun token => ?_
    split
    · exact leads_pure _
    · exact ih.seq fun rest => leads_pure _

theorem recordError (complaint : String) : Leads I I (s.recordError complaint) :=
  leads_of_holding fun _ => t.toUses.recordError complaint

theorem noteError (complaint : String) : Leads I I (noteError complaint) := by
  intro m hm
  rw [leftBy_of_ok (noteError_run complaint m.progress m.host)]
  have hsame : SameUse m ⟨{ m.progress with
      error := m.progress.error.or (some ⟨complaint, m.progress.lastText⟩) }, m.host⟩ :=
    ⟨rfl, rfl, rfl, rfl⟩
  exact t.same hsame hm

theorem release : Leads I I s.release := by
  intro m hm
  rw [Scanner.release, leftBy_bind_ok (progress_run m)]
  split
  · exact hm
  rename_i hopen
  have hleft := t.leave m hm
  have hclosed : Keeps (fun m => m.progress.closed) s.leaveQuoted :=
    keeps_leaveQuoted fun _ _ _ _ => rfl
  have hsame := hclosed m
  cases hr : s.leaveQuoted m with
  | error e m₁ =>
    rw [leftBy_of_error hr] at hleft
    rwa [leftBy_bind_error hr]
  | ok u m₁ =>
    rw [leftBy_of_ok hr] at hleft hsame
    rw [leftBy_bind_ok hr, leftBy_bind_ok (update_run _ _), leftBy_onMemory]
    exact t.shut hleft (by simpa [← hsame] using hopen)

theorem close : Leads I I s.close := by
  refine leads_progress.seq fun p => ?_
  split
  · exact leads_pure _
  · refine t.release.seq fun _ => leads_of_holding fun held => ?_
    exact leads_progress.seq fun p => t.report _

theorem finish : Leads I I s.finish := by
  have herror : Leads I I (progress >>= fun p => pure p.error) := fun _ h => h
  exact t.close.seq fun _ => herror

end Tends

end Scanner

end MiniLex
