import MiniLex.Proofs.Memory.Service
import MiniLex.Proofs.Scan.Outcome

/-!
# Pulls where the allocator never fails

A pull fails for no other reason than its outcome gives if the allocator never
fails, and it leaves an allocator that never fails (`pull_run`). What has to be
shown for it is that the parts of a pull succeed: their results are known from
`Scan.Outcome` then.
-/

namespace MiniLex.Scanner

open ScanM

variable {s : Scanner} {p : Progress} {h : Host}

theorem onMemory_run {α : Type} {act : MemoryM α} {a : α} {m : Memory}
    (hr : act h.memory = .ok a m) :
    onMemory act ⟨p, h⟩ = .ok a ⟨p, { h with memory := m }⟩ := by
  simp only [onMemory, hr]

/-! ## Parts of a pull -/

/-- A lexeme is made a token. -/
theorem emit_run (hs : h.memory.Serves s.allocator) (l : Lexeme) (p : Progress) :
    ∃ token m, s.emit l ⟨p, h⟩ = .ok token m ∧ m.host.memory.Serves s.allocator := by
  have hstore : ∃ value m, s.storeValue l.payload ⟨p.advance l.width, h⟩ = .ok value m ∧
      m.host.memory.Serves s.allocator := by
    cases l.payload with
    | absent => exact ⟨_, _, rfl, hs⟩
    | fixed text => exact ⟨_, _, rfl, hs⟩
    | copied text =>
      obtain ⟨memory, hr, hs'⟩ := hs.clone text
      exact ⟨_, _, run_bind_ok (onMemory_run hr), hs'⟩
  obtain ⟨value, m, hr, hs'⟩ := hstore
  rw [emit, run_bind_ok (progress_run _), run_bind_ok (update_run _ _), run_bind_ok hr]
  exact ⟨_, _, rfl, hs'⟩

theorem leaveQuoted_run (hs : h.memory.Serves s.allocator) (p : Progress) :
    ∃ m, s.leaveQuoted ⟨p, h⟩ = .ok () m ∧ m.host.memory.Serves s.allocator := by
  rw [leaveQuoted, run_bind_ok (progress_run _)]
  cases p.accumulator with
  | none => exact ⟨_, rfl, hs⟩
  | some b =>
    obtain ⟨memory, hr, hs'⟩ := hs.release b
    exact ⟨_, run_bind_ok (onMemory_run hr), hs'⟩

theorem collectRun_run {b : BufferId} (hc : h.memory.Collects s.allocator b) (run : Text)
    (p : Progress) :
    ∃ m, collectRun b run ⟨p, h⟩ = .ok () m ∧ m.host.memory.Collects s.allocator b := by
  unfold collectRun
  by_cases hrun : run = []
  · rw [if_pos hrun]
    exact ⟨_, rfl, hc⟩
  · obtain ⟨memory, hr, hc'⟩ := hc.append run
    rw [if_neg hrun, run_bind_ok (update_run _ _)]
    exact ⟨_, onMemory_run hr, hc'⟩

/-- A body is read while its buffer takes text. -/
theorem readBody_run (body : Doubled.Body) (start : Nat) {b : BufferId}
    (hc : h.memory.Collects s.allocator b) (p : Progress) :
    ∃ token m, s.readBody start b body ⟨p, h⟩ = .ok token m ∧
      m.host.memory.Serves s.allocator := by
  induction body generalizing p h with
  | pair run rest ih =>
    obtain ⟨⟨q, h₁⟩, hr₁, hc₁⟩ := collectRun_run hc run p
    obtain ⟨memory, hr₂, hc₂⟩ := hc₁.append [Standby.doubleQuote]
    rw [readBody, run_bind_ok hr₁, run_bind_ok (update_run _ _), run_bind_ok (onMemory_run hr₂),
      run_bind_ok (update_run _ _)]
    exact ih hc₂ _
  | closed run =>
    obtain ⟨⟨q, h₁⟩, hr₁, hc₁⟩ := collectRun_run hc run p
    obtain ⟨memory, hr₂, hs₂⟩ := hc₁.serves.clone (h₁.memory.buffer b).text
    rw [readBody, run_bind_ok hr₁, run_bind_ok (update_run _ _), run_bind_get,
      run_bind_ok (onMemory_run hr₂)]
    obtain ⟨⟨q₃, h₃⟩, hr₃, hs₃⟩ := leaveQuoted_run (h := { h₁ with memory := memory }) hs₂
      (q.advance (run.length + 1))
    rw [run_bind_ok hr₃]
    exact ⟨_, _, rfl, hs₃⟩
  | unclosed run =>
    obtain ⟨⟨q, h₁⟩, hr₁, hc₁⟩ := collectRun_run hc run p
    obtain ⟨h₂, hr₂, hm₂⟩ := recordError_run s unterminated
      ((q.advance run.length).withLastText []) h₁
    rw [readBody, run_bind_ok hr₁, run_bind_ok (update_run _ _), run_bind_ok (update_run _ _),
      run_bind_ok hr₂]
    obtain ⟨m₃, hr₃, hs₃⟩ := leaveQuoted_run (h := h₂) (hm₂ ▸ hc₁.serves) _
    rw [run_bind_ok hr₃]
    exact ⟨_, _, rfl, hs₃⟩

theorem readStandby_run (hs : h.memory.Serves s.allocator) (p : Progress) :
    ∃ token m, s.readStandby ⟨p, h⟩ = .ok token m ∧ m.host.memory.Serves s.allocator := by
  have hblanks : s.skipBlanks ⟨p, h⟩ = .ok () ⟨s.afterBlanks p, h⟩ := rfl
  rw [readStandby, run_bind_ok hblanks, run_bind_ok (progress_run _)]
  cases Standby.Reading.read (s.source.drop (s.afterBlanks p).pos) with
  | atEnd => exact ⟨_, _, rfl, hs⟩
  | lexeme l => exact emit_run hs l (s.afterBlanks p)
  | quoted body =>
    obtain ⟨b, memory, hr, hc⟩ := hs.allocate Buffer.initialCapacity
    let q := ((s.afterBlanks p).advance 1).withLastText [Standby.doubleQuote]
    have henter : s.enterQuoted ⟨q, h⟩ =
        .ok b ⟨{ q with accumulator := some b, mode := .quoted }, { h with memory := memory }⟩ := by
      rw [enterQuoted, run_bind_ok (onMemory_run hr)]
      rfl
    dsimp only
    rw [run_bind_ok (update_run _ _), run_bind_ok (update_run _ _), run_bind_ok henter,
      run_bind_ok (report_run _ _)]
    exact readBody_run body _ hc _

/-! ## Pulls -/

theorem readBootstrap_run (hs : h.memory.Serves s.allocator) (p : Progress) :
    ∃ h', s.readBootstrap ⟨p, h⟩ = (s.bootstrapOutcome p).on h' ∧ h'.memory.Serves s.allocator := by
  have hgap : s.skipGap ⟨p, h⟩ = .ok () ⟨s.afterGap p, h⟩ := rfl
  rw [readBootstrap, run_bind_ok hgap, run_bind_ok (progress_run _), bootstrapOutcome]
  cases Bootstrap.Reading.read (s.source.drop (s.afterGap p).pos) with
  | atEnd => exact ⟨h, rfl, hs⟩
  | illegal c =>
    refine ⟨_, rfl, ?_⟩
    rw [Memory.Serves, Host.report, account_memory]
    exact hs
  | lexeme l =>
    obtain ⟨token, ⟨q, h'⟩, hr, hs'⟩ := emit_run hs l (s.afterGap p)
    obtain ⟨htoken, hq⟩ := emit_ok hr
    refine ⟨h', ?_, hs'⟩
    dsimp only at hq ⊢
    rw [run_bind_ok hr, htoken, hq]
    rfl

theorem readToken_run (hs : h.memory.Serves s.allocator) (p : Progress) :
    ∃ h', s.readToken ⟨p, h⟩ = (s.readOutcome p).on h' ∧ h'.memory.Serves s.allocator := by
  cases hl : s.rules with
  | none => exact ⟨h, by simp only [readToken, readOutcome, hl]; rfl, hs⟩
  | some l =>
    cases l with
    | bootstrap =>
      simp only [readToken, readOutcome, hl]
      exact readBootstrap_run hs p
    | standby =>
      simp only [readToken, readOutcome, hl]
      obtain ⟨token, m, hr, hs'⟩ := readStandby_run hs p
      rw [readStandby_ok hl hr]
      exact ⟨m.host, hr, hs'⟩

/-- Where the allocator never fails, a pull has the outcome that its scan determines, and leaves an
allocator that never fails. -/
theorem pull_run (hs : h.memory.Serves s.allocator) (p : Progress) :
    ∃ h', s.pull ⟨p, h⟩ = (s.outcome p).on h' ∧ h'.memory.Serves s.allocator := by
  rw [pull, run_bind_ok (progress_run _), outcome]
  by_cases hc : p.closed
  · rw [if_pos hc, if_pos hc]
    exact ⟨h, rfl, hs⟩
  · rw [if_neg hc, if_neg hc]
    obtain ⟨h₁, hr, hs₁⟩ := readToken_run hs p
    generalize s.readOutcome p = o at hr ⊢
    obtain ⟨answer, q⟩ := o
    cases answer with
    | error failure => exact ⟨h₁, run_bind_error hr, hs₁⟩
    | ok token =>
      -- What is left only counts and logs the token.
      have hcount : (h₁.account s.ledger Ledger.countToken).memory.Serves s.allocator := by
        rwa [account_memory]
      cases he : token.kind.isEnd <;> cases ht : s.tracing
      · exact ⟨_, (run_bind_ok hr).trans (by simp only [he]; rfl), hcount⟩
      · exact ⟨(h₁.account s.ledger Ledger.countToken).report (.tokenRead s.name token),
          (run_bind_ok hr).trans (by simp only [he]; rfl), hcount⟩
      · exact ⟨h₁, (run_bind_ok hr).trans (by simp only [he]; rfl), hs₁⟩
      · exact ⟨h₁.report (.tokenRead s.name token),
          (run_bind_ok hr).trans (by simp only [he]; rfl), hs₁⟩

end MiniLex.Scanner
