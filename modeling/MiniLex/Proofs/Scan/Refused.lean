import MiniLex.Proofs.Memory.Refused
import MiniLex.Proofs.Scan.Outcome

/-!
# Pulls that are refused memory

Where a pull leaves its scan that fails because an allocator refuses it
something. The cursor moves before the value of a token is stored, so if its
copy is refused, the cursor is already behind the token:

* `pull_bootstrap_error`: a bootstrap pull asks for nothing but a copy;
* `pull_standby_error`: so does a standby pull, unless it reads a quoted name.
  Of that more may be refused than the copy, and the cursor is inside it then.
-/

namespace MiniLex.Scanner

open ScanM

variable {s : Scanner} {p : Progress} {h : Host} {m : Machine} {e : Failure}

/-! ## Parts of a pull -/

theorem onMemory_error {α : Type} {act : MemoryM α} (hr : onMemory act ⟨p, h⟩ = .error e m) :
    ∃ fault memory, act h.memory = .error fault memory ∧ e = .allocation fault ∧
      m = ⟨p, { h with memory := memory }⟩ := by
  unfold onMemory at hr
  cases hact : act h.memory with
  | ok a memory =>
    simp only [hact] at hr
    cases hr
  | error fault memory =>
    simp only [hact] at hr
    cases hr
    exact ⟨fault, memory, rfl, rfl, rfl⟩

theorem onMemory_fails {α : Type} {act : MemoryM α} (ha : FailsOnly Memory.NoCopy act)
    (hr : onMemory act ⟨p, h⟩ = .error e m) :
    e ≠ .allocation (.refused .clone) ∧ m.progress = p := by
  obtain ⟨fault, memory, hfault, rfl, rfl⟩ := onMemory_error hr
  exact ⟨fun he => ha _ _ _ hfault (Failure.allocation.inj he), rfl⟩

/-- A lexeme whose value cannot be stored is lost, with the cursor behind it. -/
theorem emit_error {l : Lexeme} (hr : s.emit l ⟨p, h⟩ = .error e m) :
    (∃ fault, e = .allocation fault) ∧ m.progress = p.advance l.width := by
  rw [emit, run_bind_ok (progress_run _), run_bind_ok (update_run _ _)] at hr
  rcases of_bind_error hr with hstore | ⟨value, m₁, _, hr⟩
  · cases hl : l.payload with
    | absent | fixed text =>
      rw [hl] at hstore
      cases hstore
    | copied text =>
      rw [hl] at hstore
      rcases of_bind_error hstore with hclone | ⟨copy, m₁, _, hpure⟩
      · obtain ⟨fault, memory, _, he, rfl⟩ := onMemory_error hclone
        exact ⟨⟨fault, he⟩, rfl⟩
      · cases hpure
  · cases hr

/-- Leaving quoted mode asks for no copy, and does not happen if it fails. -/
theorem leaveQuoted_error (hr : s.leaveQuoted ⟨p, h⟩ = .error e m) :
    e ≠ .allocation (.refused .clone) ∧ m.progress = p := by
  rw [leaveQuoted, run_bind_ok (progress_run _)] at hr
  cases ha : p.accumulator with
  | none =>
    simp only [ha] at hr
    cases hr
  | some b =>
    simp only [ha] at hr
    rcases of_bind_error hr with hrelease | ⟨_, m₁, _, hr⟩
    · exact onMemory_fails (Memory.release_fails _ b) hrelease
    · cases hr

theorem enterQuoted_error (hr : s.enterQuoted ⟨p, h⟩ = .error e m) :
    e ≠ .allocation (.refused .clone) ∧ m.progress = p := by
  rcases of_bind_error hr with hallocate | ⟨b, m₁, _, hr⟩
  · exact onMemory_fails (Memory.allocate_fails _ _) hallocate
  · cases hr

theorem collectRun_error {b : BufferId} {run : Text} (hr : collectRun b run ⟨p, h⟩ = .error e m) :
    e ≠ .allocation (.refused .clone) ∧ m.progress = p.withLastText run := by
  unfold collectRun at hr
  split at hr
  · cases hr
  · rw [run_bind_ok (update_run _ _)] at hr
    exact onMemory_fails (Memory.append_fails b run) hr

/-- Collecting a run leaves everything but the text matched last. -/
theorem collectRun_progress {b : BufferId} {run : Text} (hr : collectRun b run ⟨p, h⟩ = .ok () m) :
    ∃ t, m.progress = p.withLastText t := by
  unfold collectRun at hr
  split at hr
  · cases hr
    exact ⟨p.lastText, rfl⟩
  · rw [run_bind_ok (update_run _ _)] at hr
    obtain ⟨memory, _, rfl⟩ := onMemory_ok hr
    exact ⟨run, rfl⟩

/-- A failure leaves the cursor on the way to an offset, and there already if it is a copy that was
refused. -/
structure Interrupted (p : Progress) (stop : Nat) (e : Failure) (q : Progress) : Prop where
  le : p.pos ≤ q.pos
  le_stop : q.pos ≤ stop
  behind : e = .allocation (.refused .clone) → q.pos = stop
  closed : q.closed = p.closed

/-- What fails without asking for a copy may leave the cursor anywhere before the offset. -/
theorem interrupted_of_ne {q : Progress} {stop : Nat} (he : e ≠ .allocation (.refused .clone))
    (hq : q.pos = p.pos ∧ q.closed = p.closed) (hstop : p.pos ≤ stop) :
    Interrupted p stop e q :=
  ⟨Nat.le_of_eq hq.1.symm, hq.1 ▸ hstop, fun h => absurd h he, hq.2⟩

/-- What fails once the cursor is at the offset leaves it there. -/
theorem interrupted_of_behind {q : Progress} {stop : Nat} (hq : q.pos = stop ∧ q.closed = p.closed)
    (hstop : p.pos ≤ stop) : Interrupted p stop e q :=
  ⟨hq.1 ▸ hstop, Nat.le_of_eq hq.1, fun _ => hq.1, hq.2⟩

theorem interrupted_of_collectRun {b : BufferId} {run : Text} {stop : Nat}
    (hr : collectRun b run ⟨p, h⟩ = .error e m) (hstop : p.pos ≤ stop) :
    Interrupted p stop e m.progress := by
  obtain ⟨he, hm⟩ := collectRun_error hr
  rw [hm]
  exact interrupted_of_ne he ⟨rfl, rfl⟩ hstop

/-- The copy of a quoted name is asked for when the cursor is behind its body. Before that the
cursor moves on from one run to the next, so what is refused then leaves it inside the body. -/
theorem readBody_error (body : Doubled.Body) (start : Nat) {b : BufferId}
    (hr : s.readBody start b body ⟨p, h⟩ = .error e m) :
    Interrupted p (p.pos + body.width) e m.progress := by
  induction body generalizing p h with
  | pair run rest ih =>
    unfold readBody at hr
    rcases of_bind_error hr with hrun | ⟨_, ⟨q, h₁⟩, hrun, hr⟩
    · exact interrupted_of_collectRun hrun (Nat.le_add_right _ _)
    obtain ⟨t, hq⟩ := collectRun_progress hrun
    obtain rfl : q = p.withLastText t := hq
    rw [run_bind_ok (update_run _ _)] at hr
    rcases of_bind_error hr with hquote | ⟨_, m₁, hquote, hr⟩
    · obtain ⟨he, hm⟩ := onMemory_fails (Memory.append_fails b _) hquote
      exact interrupted_of_ne he (by rw [hm]; exact ⟨rfl, rfl⟩) (Nat.le_add_right _ _)
    obtain ⟨memory, _, rfl⟩ := onMemory_ok hquote
    rw [run_bind_ok (update_run _ _)] at hr
    have hrest := ih hr
    have hpos : p.pos + (run.length + 2) + rest.width =
        p.pos + (Doubled.Body.pair run rest).width := by
      simp only [Doubled.Body.width]
      omega
    exact ⟨Nat.le_trans (Nat.le_add_right _ _) hrest.le, hpos ▸ hrest.le_stop,
      fun he => hpos ▸ hrest.behind he, hrest.closed⟩
  | closed run =>
    unfold readBody at hr
    rcases of_bind_error hr with hrun | ⟨_, ⟨q, h₁⟩, hrun, hr⟩
    · exact interrupted_of_collectRun hrun (Nat.le_add_right _ _)
    obtain ⟨t, hq⟩ := collectRun_progress hrun
    obtain rfl : q = p.withLastText t := hq
    rw [run_bind_ok (update_run _ _), run_bind_get] at hr
    have hbehind : m.progress = (p.withLastText t).advance (run.length + 1) := by
      rcases of_bind_error hr with hclone | ⟨copy, m₂, hclone, hr⟩
      · obtain ⟨fault, memory, _, _, rfl⟩ := onMemory_error hclone
        rfl
      obtain ⟨memory, _, rfl⟩ := onMemory_ok hclone
      rcases of_bind_error hr with hleave | ⟨_, m₃, _, hr⟩
      · exact (leaveQuoted_error hleave).2
      · cases hr
    exact interrupted_of_behind (by rw [hbehind]; exact ⟨rfl, rfl⟩) (Nat.le_add_right _ _)
  | unclosed run =>
    unfold readBody at hr
    rcases of_bind_error hr with hrun | ⟨_, ⟨q, h₁⟩, hrun, hr⟩
    · exact interrupted_of_collectRun hrun (Nat.le_add_right _ _)
    obtain ⟨t, hq⟩ := collectRun_progress hrun
    obtain rfl : q = p.withLastText t := hq
    rw [run_bind_ok (update_run _ _), run_bind_ok (update_run _ _)] at hr
    obtain ⟨h₂, hrecord, -⟩ := recordError_run s unterminated
      (((p.withLastText t).advance run.length).withLastText []) h₁
    rw [run_bind_ok hrecord] at hr
    rcases of_bind_error hr with hleave | ⟨_, m₃, _, hr⟩
    · obtain ⟨-, hm⟩ := leaveQuoted_error hleave
      exact interrupted_of_behind (by rw [hm]; exact ⟨rfl, rfl⟩) (Nat.le_add_right _ _)
    · cases hr

/-! ## Pulls -/

/-- Nothing fails once a token is read. -/
theorem readToken_of_pull_error (ho : p.closed = false) (hr : s.pull ⟨p, h⟩ = .error e m) :
    s.readToken ⟨p, h⟩ = .error e m := by
  rw [pull, run_bind_ok (progress_run _), if_neg (by simp [ho])] at hr
  rcases of_bind_error hr with hread | ⟨token, m₁, _, hr⟩
  · exact hread
  · cases he : token.kind.isEnd <;> cases ht : s.tracing <;> simp only [he, ht] at hr <;> cases hr

/-- A bootstrap pull fails because its outcome is that a character is refused, or because the copy
of a value is. In the latter case the cursor is behind the lexeme, and only the line ends of the gap
before it are counted. -/
theorem pull_bootstrap_error (hl : s.rules = some .bootstrap) (ho : p.closed = false)
    (hr : s.pull ⟨p, h⟩ = .error e m) :
    s.outcome p = ⟨.error e, m.progress⟩ ∨
      ∃ fault l, e = .allocation fault ∧
        Bootstrap.Reading.read (s.source.drop (s.afterGap p).pos) = .lexeme l ∧
        m.progress = (s.afterGap p).advance l.width := by
  have hread := readToken_of_pull_error ho hr
  have hgap : s.skipGap ⟨p, h⟩ = .ok () ⟨s.afterGap p, h⟩ := rfl
  have hout : s.outcome p = s.bootstrapOutcome p := by
    simp [outcome, ho, readOutcome, hl]
  simp only [readToken, hl] at hread
  rw [readBootstrap, run_bind_ok hgap, run_bind_ok (progress_run _)] at hread
  rw [hout, bootstrapOutcome]
  cases hfound : Bootstrap.Reading.read (s.source.drop (s.afterGap p).pos) with
  | atEnd =>
    simp only [hfound] at hread
    cases hread
  | illegal c =>
    simp only [hfound] at hread ⊢
    cases hread
    exact .inl rfl
  | lexeme l =>
    simp only [hfound] at hread
    rcases of_bind_error hread with hemit | ⟨token, m₁, _, hr⟩
    · obtain ⟨⟨fault, rfl⟩, hp⟩ := emit_error hemit
      exact .inr ⟨fault, l, rfl, rfl, hp⟩
    · cases hr

/-- A standby pull that fails leaves the cursor no further than the end of the token that it would
have returned, and there if it was refused a copy. -/
theorem pull_standby_error (hl : s.rules = some .standby) (ho : p.closed = false)
    (hr : s.pull ⟨p, h⟩ = .error e m) :
    ∃ token q, s.outcome p = ⟨.ok token, q⟩ ∧ Interrupted p token.stop e m.progress := by
  have hread := readToken_of_pull_error ho hr
  have hblanks : s.skipBlanks ⟨p, h⟩ = .ok () ⟨s.afterBlanks p, h⟩ := rfl
  have hle : p.pos ≤ (s.afterBlanks p).pos := Nat.le_add_right _ _
  have hout : s.outcome p = s.standbyOutcome p := by
    simp [outcome, ho, readOutcome, hl]
  simp only [readToken, hl] at hread
  rw [readStandby, run_bind_ok hblanks, run_bind_ok (progress_run _)] at hread
  rw [hout, standbyOutcome]
  cases hfound : Standby.Reading.read (s.source.drop (s.afterBlanks p).pos) with
  | atEnd =>
    simp only [hfound] at hread
    cases hread
  | lexeme l =>
    simp only [hfound] at hread ⊢
    obtain ⟨-, hm⟩ := emit_error hread
    refine ⟨_, _, rfl, interrupted_of_behind ?_ (Nat.le_trans hle (Nat.le_add_right _ _))⟩
    rw [hm]
    exact ⟨rfl, rfl⟩
  | quoted body =>
    simp only [hfound] at hread ⊢
    refine ⟨_, _, rfl, ?_⟩
    have hstop : (bodyToken body.isClosed (body.text Standby.doubleQuote) (s.afterBlanks p).pos
        ((s.afterBlanks p).pos + 1 + body.width)).stop =
          (s.afterBlanks p).pos + 1 + body.width := by
      cases body.isClosed <;> rfl
    rw [hstop]
    -- The scan is behind the opening quote when it asks for a buffer.
    have hbody : Interrupted ((s.afterBlanks p).advance 1)
        ((s.afterBlanks p).pos + 1 + body.width) e m.progress := by
      rw [run_bind_ok (update_run _ _), run_bind_ok (update_run _ _)] at hread
      rcases of_bind_error hread with henter | ⟨b, m₁, henter, hread⟩
      · obtain ⟨he, hm⟩ := enterQuoted_error henter
        exact interrupted_of_ne he (by rw [hm]; exact ⟨rfl, rfl⟩) (Nat.le_add_right _ _)
      obtain ⟨b', m₂, hallocate, henter⟩ := of_bind_ok henter
      obtain ⟨memory, _, rfl⟩ := onMemory_ok hallocate
      cases henter
      rw [run_bind_ok (report_run _ _)] at hread
      have hrest := readBody_error body _ hread
      exact ⟨hrest.le, hrest.le_stop, hrest.behind, hrest.closed⟩
    have hstart : p.pos ≤ ((s.afterBlanks p).advance 1).pos := Nat.le_trans hle (Nat.le_succ _)
    exact ⟨Nat.le_trans hstart hbody.le, hbody.le_stop, hbody.behind, hbody.closed⟩

end MiniLex.Scanner
