import MiniLex.Proofs.Memory.Calls
import MiniLex.Proofs.Store.BulkRelease
import MiniLex.Proofs.Store.Steps

/-!
# Tearing scans down

A scan is torn down alone, or together with everything else in the care of its
arena (`TearsDown`). Both leave it closed, in normal mode and without a buffer,
and as it was otherwise: `teardown_run`. From then on nothing that is tried with
the scan changes it (`leavesAlone_perform`), so it answers every pull the same and
never asks its allocator for anything again: `teardown_final`.
-/

namespace MiniLex

open Relation (ReflTransGen)

/-! ## Alone -/

/-- A scan gives up its context. -/
def Handling.TearsDown : Handling → Prop
  | .release | .close | .finish => True
  | .pull | .collect | .recordError _ | .noteError _ | .enterQuoted | .leaveQuoted => False

section Alone

variable {s : Scanner} {m : Machine} {h : Handling}

/-- An open scan hands its buffer back and has its context let go, with one call. -/
theorem Scanner.release_of_letsGo (hopen : m.progress.closed = false)
    (hgo : (m.host.memory.allocator s.allocator).LetsGo) :
    ∃ memory, s.release m = .ok () ⟨(Scan.mk s m.progress).shut.progress,
        { m.host with memory := memory }⟩ ∧
      ∀ n, m.host.memory.Asked s.allocator (.releaseContext s.id) n →
        memory.Asked s.allocator (.releaseContext s.id) (n + 1) := by
  cases hacc : m.progress.accumulator with
  | none =>
    obtain ⟨memory, hr, hasked⟩ := Memory.releaseContext_of_letsGo s.id hgo
    have hshut : (Scan.mk s m.progress).shut.progress =
        { m.progress with mode := .normal, closed := true } := by
      simp [Scan.shut, hacc]
    rw [hshut]
    exact ⟨memory, release_of_left hopen (leaveQuoted_of_none hacc) hr, hasked⟩
  | some b =>
    obtain ⟨m₁, hr₁, hgo₁, hasked₁⟩ := Memory.release_of_letsGo b s.id hgo
    obtain ⟨memory, hr, hasked⟩ := Memory.releaseContext_of_letsGo s.id hgo₁
    exact ⟨memory, release_of_left hopen (leaveQuoted_of_held hacc hr₁) hr,
      fun n hn => hasked n (hasked₁ n hn)⟩

theorem Handling.act_of_tearsDown (hh : h.TearsDown) (hopen : m.progress.closed = false)
    (hgo : (m.host.memory.allocator s.allocator).LetsGo) :
    ∃ host, h.act s m = .ok () ⟨(Scan.mk s m.progress).shut.progress, host⟩ ∧
      host.ledgers = m.host.ledgers ∧
      ∀ n, m.host.memory.Asked s.allocator (.releaseContext s.id) n →
        host.memory.Asked s.allocator (.releaseContext s.id) (n + 1) := by
  obtain ⟨memory, hr, hasked⟩ := Scanner.release_of_letsGo hopen hgo
  have hclose : ∃ event, s.close m = .ok () ⟨(Scan.mk s m.progress).shut.progress,
      Host.report event { m.host with memory := memory }⟩ := by
    rw [Scanner.close, run_bind_ok (ScanM.progress_run m), if_neg (by simp [hopen]),
      run_bind_ok hr]
    exact ⟨_, rfl⟩
  obtain ⟨event, hclose⟩ := hclose
  cases h with
  | release => exact ⟨_, hr, rfl, hasked⟩
  | close => exact ⟨_, hclose, rfl, hasked⟩
  | finish =>
    have hfinish : ∃ error, s.finish m = .ok error ⟨(Scan.mk s m.progress).shut.progress,
        Host.report event { m.host with memory := memory }⟩ := by
      rw [Scanner.finish, run_bind_ok hclose]
      exact ⟨_, rfl⟩
    obtain ⟨error, hfinish⟩ := hfinish
    exact ⟨_, run_bind_ok hfinish, rfl, hasked⟩
  | pull | collect | recordError | noteError | enterQuoted | leaveQuoted => exact hh.elim

end Alone

namespace Store

variable {st st' : Store} {i j : ScanId} {op : Operation} {ops : List Operation}
  {a : AllocatorId} {x : Arena} {y : Scan} {t : StreamId}

/-! ## In bulk -/

/-- A closed scan stays as it is. -/
theorem persists_closed (hy : y.progress.closed = true) : Persists fun st => st.scan i = y where
  release j st (h : st.scan i = y) := by
    show (leftBy (onScan j Handling.release.act) st).scan i = y
    by_cases hj : j = i
    · subst hj
      rw [leftBy_onScan_of_closed (h := .release) trivial (by rw [h, hy])]
      exact h
    · rw [leftBy_onScan, scan_putMachine_of_ne _ (Ne.symm hj)]
      exact h
  setArena _ _ h := h
  markReleased _ h := h
  report _ _ h := h

/-- An arena in whose care no context was put by hand has the scans in its care torn down. -/
theorem scan_of_releaseAll (hops : Along (LeavesContexts a) initial ops)
    (ha : (initial.after ops).host.memory.allocator a = .arena x) (hi : i ∈ x.contexts) :
    ((initial.after ops).scan i).scanner.allocator = a ∧
    (∃ n st', releaseAll a (initial.after ops) = .ok n st' ∧
      st'.scan i = ((initial.after ops).scan i).shut) ∧
    ∃ st', closeArena a (initial.after ops) = .ok () st' ∧
      st'.scan i = ((initial.after ops).scan i).shut := by
  have hattributed : (initial.after ops).estate.Attributed a :=
    attributed_after hops attributed_initial
  have hopened := fun i (hi : i ∈ x.contexts) => opened_of_attributed hattributed ha hi
  have honce : x.contexts.Nodup := contexts_estate ha ▸ hattributed.once
  generalize initial.after ops = st at *
  obtain ⟨st', hr, hsurrendered⟩ := releaseAll_run ha honce hopened
  have hshut := hsurrendered.scan_of_mem hi (hopened i hi).1
  have ha' := hsurrendered.allocator (Memory.lt_of_arena ha)
  exact ⟨(hopened i hi).2.1, ⟨_, st', hr, hshut⟩, _, closeArena_of_releaseAll hr ha', hshut⟩

/-- What tears down a scan of a program that has come this far. -/
inductive TearsDown (ops : List Operation) (i : ScanId) : Operation → Prop
  | alone {h : Handling} : h.TearsDown → TearsDown ops i (.handle i h)
  /-- The scan is still in the care of its arena, in whose care no context was put by hand. -/
  | inBulk {a : AllocatorId} {x : Arena} {op : Operation} :
    op = .releaseAll a ∨ op = .closeArena a → Along (LeavesContexts a) initial ops →
    (initial.after ops).host.memory.allocator a = .arena x → i ∈ x.contexts → TearsDown ops i op

/-- However it is torn down, an open scan is left in the same state. -/
theorem teardown_run (hopen : ((initial.after ops).scan i).progress.closed = false)
    (hgo : ((initial.after ops).host.memory.allocator
      ((initial.after ops).scan i).scanner.allocator).LetsGo) (hop : TearsDown ops i op) :
    let st := initial.after ops
    let s := (st.scan i).scanner
    ∃ st', op.perform st = .ok () st' ∧ st'.scan i = (st.scan i).shut ∧
      st'.host.ledgers = st.host.ledgers ∧
      ∀ n, st.host.memory.Asked s.allocator (.releaseContext s.id) n →
        st'.host.memory.Asked s.allocator (.releaseContext s.id) (n + 1) := by
  intro st s
  cases hop with
  | alone hh =>
    have hi : i < st.scans.length := lt_of_open hopen
    obtain ⟨host, hr, hledgers, hasked⟩ :=
      Handling.act_of_tearsDown (s := s) (m := ⟨(st.scan i).progress, st.host⟩) hh hopen hgo
    exact ⟨_, onScan_run hr, scan_putMachine_self _ hi, hledgers, hasked⟩
  | @inBulk a x op hwhich hops ha hi =>
    obtain ⟨hallocator, ⟨n, st₁, hr₁, hshut₁⟩, st₂, hr₂, hshut₂⟩ := scan_of_releaseAll hops ha hi
    have hnever : ∀ n, ¬st.host.memory.Asked s.allocator (.releaseContext s.id) n := by
      rintro n ⟨r, hr, -⟩
      rw [hallocator, ha] at hr
      cases hr
    rcases hwhich with rfl | rfl
    · have hledgers := persists_ledgers.releaseAll a st rfl
      rw [leftBy_of_ok hr₁] at hledgers
      exact ⟨st₁, run_bind_ok hr₁, hshut₁, hledgers, fun n hn => (hnever n hn).elim⟩
    · have hledgers := persists_ledgers.closeArena a st rfl
      rw [leftBy_of_ok hr₂] at hledgers
      exact ⟨st₂, hr₂, hshut₂, hledgers, fun n hn => (hnever n hn).elim⟩

/-! ## Afterwards -/

/-- The scan is pulled, directly or through a stream, or torn down. -/
def Revisits (i : ScanId) (st : Store) : Operation → Prop
  | .handle j h => j = i ∧ h.NeedsOpen
  | .openStream j => j = i
  | .pullStream t => (st.stream t).scan = i
  | .releaseAll a | .closeArena a => a = (st.scan i).scanner.allocator
  | _ => False

/-- A stream over a closed scan fails once, and then is finished. -/
theorem pullStream_of_closed (hclosed : (st.scan (st.stream t).scan).progress.closed = true)
    (hunfinished : (st.stream t).finished = false) :
    ∃ st', pullStream t st =
        .error (.scannerClosed (st.scan (st.stream t).scan).scanner.name) st' ∧
      st'.scans = st.scans ∧ st'.host = st.host := by
  refine ⟨{ st with streams := st.streams.modify t fun x => { x with finished := true } }, ?_,
    rfl, rfl⟩
  rw [pullStream, run_bind_get]
  dsimp only
  rw [if_neg (by simp [hunfinished])]
  refine run_bind_error ?_
  rw [run_tryCatch, run_bind_error (onScan_pull_of_closed hclosed)]
  rfl

/-- Only an arena has anything to give up. -/
theorem releaseAll_of_ne_arena (ha : ∀ x, st.host.memory.allocator a ≠ .arena x) :
    releaseAll a st = .ok 0 st := by
  rw [releaseAll, run_bind_get]
  cases hz : st.host.memory.allocator a with
  | heap | recorder r => rfl
  | arena x => exact absurd hz (ha x)

theorem closeArena_of_ne_arena (ha : ∀ x, st.host.memory.allocator a ≠ .arena x) :
    closeArena a st = .ok () st := by
  rw [closeArena, run_bind_ok (releaseAll_of_ne_arena ha), markClosed, run_bind_get]
  cases hz : st.host.memory.allocator a with
  | heap | recorder r => rfl
  | arena x => exact absurd hz (ha x)

/-- A scan and all ledgers are as they were, and the host is too, unless an arena is the scan's
allocator: it may have given up what else was in its care. -/
structure LeavesAlone (i : ScanId) (st st' : Store) : Prop where
  scan : st'.scan i = st.scan i
  ledgers : st'.host.ledgers = st.host.ledgers
  host : (∀ x, st.host.memory.allocator (st.scan i).scanner.allocator ≠ .arena x) →
    st'.host = st.host

theorem LeavesAlone.of_same (hscans : st'.scans = st.scans) (hhost : st'.host = st.host) :
    LeavesAlone i st st' where
  scan := by rw [Store.scan, hscans, Store.scan]
  ledgers := by rw [hhost]
  host _ := hhost

theorem LeavesAlone.trans {st₁ st₂ : Store} (h : LeavesAlone i st st₁)
    (h' : LeavesAlone i st₁ st₂) : LeavesAlone i st st₂ where
  scan := h'.scan.trans h.scan
  ledgers := h'.ledgers.trans h.ledgers
  host ha := by
    have hhost := h.host ha
    rw [← hhost]
    refine h'.host ?_
    rwa [hhost, h.scan]

/-- Revisiting a closed scan leaves it alone. -/
theorem leavesAlone_perform (hclosed : (st.scan i).progress.closed = true)
    (hop : Revisits i st op) : LeavesAlone i st (leftBy op.perform st) := by
  cases op with
  | handle j h =>
    obtain ⟨rfl, hh⟩ := hop
    rw [Operation.perform, leftBy_onScan_of_closed hh hclosed]
    exact .of_same rfl rfl
  | openStream j => exact .of_same rfl rfl
  | pullStream t =>
    rw [Operation.perform, leftBy_bind_return]
    cases hfinished : (st.stream t).finished with
    | true =>
      have hr : pullStream t st = .ok none st := by
        rw [pullStream, run_bind_get]
        dsimp only
        rw [if_pos hfinished]
        rfl
      rw [leftBy_of_ok hr]
      exact .of_same rfl rfl
    | false =>
      obtain rfl : (st.stream t).scan = i := hop
      obtain ⟨st', hr, hscans, hhost⟩ := pullStream_of_closed hclosed hfinished
      rw [leftBy_of_error hr]
      exact .of_same hscans hhost
  | releaseAll a =>
    obtain rfl : a = (st.scan i).scanner.allocator := hop
    rw [Operation.perform, leftBy_bind_return]
    exact ⟨(persists_closed hclosed).releaseAll _ st rfl, persists_ledgers.releaseAll _ st rfl,
      fun ha => by rw [leftBy_of_ok (releaseAll_of_ne_arena ha)]⟩
  | closeArena a =>
    obtain rfl : a = (st.scan i).scanner.allocator := hop
    exact ⟨(persists_closed hclosed).closeArena _ st rfl, persists_ledgers.closeArena _ st rfl,
      fun ha => by rw [Operation.perform, leftBy_of_ok (closeArena_of_ne_arena ha)]⟩
  | _ => exact hop.elim

theorem leavesAlone_after {later : List Operation} (hclosed : (st.scan i).progress.closed = true)
    (hlater : Along (Revisits i) st later) : LeavesAlone i st (st.after later) := by
  refine after_induction (I := LeavesAlone i st) (fun st₁ op hop h => ?_) hlater (.of_same rfl rfl)
  exact h.trans (leavesAlone_perform (by rw [h.scan, hclosed]) hop)

/-! ## Letting the context go -/

/-- Nobody but the scan itself has its allocator let its context go. -/
def LetsGoItself (a : AllocatorId) (i : ScanId) (st : Store) (op : Operation) : Prop :=
  op.Known st ∧ op ≠ .releaseContext a i

/-- As long as a scan is open, its context is not let go. -/
theorem invariant_neverAsked (a : AllocatorId) (i : ScanId) :
    Invariant (fun a' call => ¬(a' = a ∧ call = .releaseContext i)) (fun _ => True)
      fun f m => f i = false → m.NeverAsked a (.releaseContext i) where
  permits a' call hmethod h := hmethod (h.2 ▸ rfl)
  step hstep h hi := (h hi).step (fun hnot => hnot ⟨rfl, rfl⟩) hstep
  shut {f m j} a' hj h hi := by
    have hne : j ≠ i := by
      rintro rfl
      rw [Function.update_self] at hi
      cases hi
    rw [Function.update_of_ne hne.symm] at hi
    have hsteps : ReflTransGen
        (Memory.Step (fun a' call => ¬(a' = a ∧ call = .releaseContext i)) fun _ => True) m
        (leftBy (Memory.releaseContext a' j) m) := by
      refine Memory.steps_releaseContext (fun h => hne ?_) m
      exact Call.releaseContext.inj h.2
    exact Memory.of_steps (K := fun m => m.NeverAsked a (.releaseContext i))
      (fun hstep h => h.step (fun hnot => hnot ⟨rfl, rfl⟩) hstep) hsteps (h hi)

theorem neverAsked_after (hops : Along (LetsGoItself a i) initial ops)
    (hopen : ((initial.after ops).scan i).progress.closed = false) :
    ((initial.after ops).scan i).scanner.id = i ∧
      (initial.after ops).host.memory.NeverAsked a (.releaseContext i) := by
  have hallowed := hops.mono (Q := Operation.Allowed
    (fun a' call => ¬(a' = a ∧ call = .releaseContext i)) fun _ => True) fun st op hop => {
      known := hop.1
      letsGo := fun a' j hj h => hop.2 (by rw [hj, h.1, Call.releaseContext.inj h.2])
      grows := fun _ _ _ _ => trivial
      adds := fun _ _ _ => trivial }
  have hholds := (invariant_neverAsked a i).after (fun _ r hr => by cases a <;> cases hr) hallowed
  exact ⟨hholds.1.numbered i (lt_of_open hopen), hholds.2 (by simp [gone, hopen])⟩

/-- An open scan whose allocator takes back what it handed out can be torn down in any way, alone or
with all else in the care of its arena. It is left closed, in normal mode and without a buffer, and
as it was otherwise; nothing is counted. Whatever is tried with it afterwards, in any order, it stays
so, and nothing is counted. Every pull fails, directly or through a stream that is not finished yet.
It changes nothing on any host, so it asks no allocator for anything any more, and an allocator other
than an arena is left as it was. A recorder that nobody else had let the context go was asked to do so
exactly once. -/
theorem teardown_final (hopen : ((initial.after ops).scan i).progress.closed = false)
    (hgo : ((initial.after ops).host.memory.allocator
      ((initial.after ops).scan i).scanner.allocator).LetsGo) (hop : TearsDown ops i op) :
    let st := initial.after ops
    let s := (st.scan i).scanner
    let p := (st.scan i).shut.progress
    ∃ st', op.perform st = .ok () st' ∧
      (∀ h : Handling, h.NeedsOpen → ∀ host, leftBy (h.act s) ⟨p, host⟩ = ⟨p, host⟩) ∧
      ∀ later, Along (Revisits i) st' later → let st'' := st'.after later
        st''.scan i = (st.scan i).shut ∧ st''.host.ledgers = st.host.ledgers ∧
        onScan i Scanner.pull st'' = .error (.scannerClosed s.name) st'' ∧
        (∀ t, (st''.stream t).scan = i → (st''.stream t).finished = false →
          ∃ st₃, pullStream t st'' = .error (.scannerClosed s.name) st₃ ∧
            st₃.scans = st''.scans ∧ st₃.host = st''.host) ∧
        ((∀ x, st'.host.memory.allocator s.allocator ≠ .arena x) → st''.host = st'.host) ∧
        ∀ r, st.host.memory.allocator s.allocator = .recorder r →
          Along (LetsGoItself s.allocator i) initial ops →
          st''.host.memory.Asked s.allocator (.releaseContext i) 1 := by
  intro st s p
  obtain ⟨st', hr, hscan, hledgers, hasked⟩ := teardown_run hopen hgo hop
  refine ⟨st', hr, fun h hh host => Handling.leftBy_act_of_closed hh rfl, fun later hlater => ?_⟩
  intro st''
  have hclosed : (st'.scan i).progress.closed = true := by rw [hscan]; rfl
  have halone : LeavesAlone i st' st'' := leavesAlone_after hclosed hlater
  have hscan' : st''.scan i = (st.scan i).shut := halone.scan.trans hscan
  have hclosed' : (st''.scan i).progress.closed = true := by rw [hscan']; rfl
  have hname : (st''.scan i).scanner.name = s.name := by rw [hscan']; rfl
  have hallocator : (st'.scan i).scanner.allocator = s.allocator := by rw [hscan]; rfl
  refine ⟨hscan', halone.ledgers.trans hledgers, ?_, fun t ht hunfinished => ?_, fun ha => ?_,
    fun r hrecorder hops => ?_⟩
  · rw [onScan_pull_of_closed hclosed', hname]
  · rw [← hname]
    subst ht
    exact pullStream_of_closed hclosed' hunfinished
  · exact halone.host (by rwa [hallocator])
  · obtain ⟨hid, hnever⟩ := neverAsked_after hops hopen
    have hid' : s.id = i := hid
    rw [hid'] at hasked
    obtain ⟨r', hr', htimes⟩ := hasked 0 ⟨r, hrecorder, hnever r hrecorder⟩
    have hhost : st''.host = st'.host := halone.host (by rw [hallocator, hr']; nofun)
    rw [hhost]
    exact ⟨r', hr', htimes⟩

/-- The copy of a quoted name is refused, and the scan is closed while it holds a buffer. Another one
is torn down together with its arena. -/
theorem teardown_final_held_buffer :
    let ops : List Operation := [.newRecorder (Recorder.refuseNth [("clone", 1)]), .newArena "scope",
      .start .initial (some .standby) ⟨['"', 'a', '"'], some 1, .nothing⟩,
      .start .initial (some .standby) ⟨['"'], some 2, .nothing⟩,
      .openStream 0, .handle 0 .pull, .handle 1 .enterQuoted]
    let later : List Operation := [.pullStream 0, .openStream 0, .handle 0 .close]
    let st := initial.after ops
    (st.scan 0).progress = ⟨3, 0, .quoted, some 0, none, ['a'], false⟩ ∧
    (∃ st', Operation.perform (.handle 0 .finish) st = .ok () st' ∧ Along (Revisits 0) st' later ∧
      ((st'.after later).scan 0).progress = ⟨3, 0, .normal, none, none, ['a'], true⟩ ∧
      (∃ st₃, pullStream 1 (st'.after later) = .error (.scannerClosed "standby") st₃) ∧
      (st'.after later).host.memory.Asked 1 (.releaseContext 0) 1) ∧
    ∃ st', Operation.perform (.closeArena 2) st = .ok () st' ∧
      (st'.scan 1).progress = ⟨0, 0, .normal, none, none, [], true⟩ := by
  intro ops later st
  have hheld : (st.scan 0).progress = ⟨3, 0, .quoted, some 0, none, ['a'], false⟩ := by
    decide +kernel
  refine ⟨hheld, ?_, ?_⟩
  · have hrecorder : ∃ calls, st.host.memory.allocator 1 =
        .recorder ⟨calls, Recorder.refuseNth [("clone", 1)]⟩ := ⟨_, rfl⟩
    obtain ⟨calls, hrecorder⟩ := hrecorder
    have hgo : (st.host.memory.allocator (st.scan 0).scanner.allocator).LetsGo := by
      have hallocator : (st.scan 0).scanner.allocator = 1 := by decide +kernel
      rw [hallocator, hrecorder]
      rintro before call - hmethod
      rcases hmethod with hmethod | hmethod <;> simp [Recorder.refuseNth, hmethod, Method.label]
    have hops : Along (LetsGoItself 1 0) initial ops := by
      refine ⟨⟨?_, nofun⟩, ⟨?_, nofun⟩, ⟨?_, nofun⟩, ⟨?_, nofun⟩, ⟨?_, nofun⟩, ⟨?_, nofun⟩,
        ⟨?_, nofun⟩, trivial⟩ <;> decide +kernel
    have hopen : ((initial.after ops).scan 0).progress.closed = false := congrArg _ hheld
    obtain ⟨st', hr, -, hfinal⟩ := teardown_final hopen hgo (.alone (h := .finish) trivial)
    have hst' : initial.after (ops ++ [.handle 0 .finish]) = st' := by
      rw [after, List.foldl_append]
      exact leftBy_of_ok hr
    have hlater : Along (Revisits 0) st' later := by
      subst hst'
      refine ⟨?_, rfl, ⟨rfl, trivial⟩, trivial⟩
      show (stream _ 0).scan = 0
      decide +kernel
    obtain ⟨hscan, -, -, hstreams, -, hasked⟩ := hfinal later hlater
    refine ⟨st', hr, hlater, ?_, ?_, hasked _ hrecorder hops⟩
    · rw [hscan, Scan.shut, hheld]
    · have hstream : (st'.after later).stream 1 = ⟨0, false⟩ := by
        subst hst'
        decide +kernel
      obtain ⟨st₃, hpull, -⟩ := hstreams 1 (by rw [hstream]) (by rw [hstream])
      exact ⟨st₃, hpull⟩
  · let x : Arena := ⟨"scope", false, [1], [1], 64, 0, 0⟩
    have ha : st.host.memory.allocator 2 = .arena x := rfl
    have hops : Along (LeavesContexts 2) initial ops := by
      refine ⟨⟨?_, nofun⟩, ⟨?_, nofun⟩, ⟨?_, nofun⟩, ⟨?_, nofun⟩, ⟨?_, nofun⟩, ⟨?_, nofun⟩,
        ⟨?_, nofun⟩, trivial⟩ <;> decide +kernel
    have hprogress : (st.scan 1).progress = ⟨0, 0, .quoted, some 1, none, [], false⟩ := by
      decide +kernel
    have hgo : (st.host.memory.allocator (st.scan 1).scanner.allocator).LetsGo := by
      have hallocator : (st.scan 1).scanner.allocator = 2 := by decide +kernel
      rw [hallocator, ha]
      trivial
    have hopen : ((initial.after ops).scan 1).progress.closed = false := congrArg _ hprogress
    obtain ⟨st', hr, -, hfinal⟩ :=
      teardown_final hopen hgo (.inBulk (.inr rfl) hops ha (by decide))
    obtain ⟨hscan, -⟩ := hfinal [] trivial
    refine ⟨st', hr, ?_⟩
    have hscan' : st'.scan 1 = (st.scan 1).shut := hscan
    rw [hscan', Scan.shut, hprogress]

end Store

end MiniLex
