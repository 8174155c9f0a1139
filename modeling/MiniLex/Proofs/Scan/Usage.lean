import MiniLex.Proofs.Memory.Usage
import MiniLex.Proofs.Scan.Totality

/-!
# What scans have counted

What a pull adds to the counters of an arena is determined by the scan alone
(`Scanner.usage`), as its token is: a value that is copied is counted once, with
its length, and a quoted name reserves the capacity that its decoded text needs.
`pull_counts` says so of pulls that return a token, whatever the allocator, and
`pull_counted` of all pulls where the allocator never fails.
-/

namespace MiniLex

open Memory (Counts reserved)

/-- What storing a value counts. -/
def Payload.usage : Payload → Usage
  | absent | fixed _ => 0
  | copied text => .copy text

namespace Scanner

open ScanM

variable {s : Scanner} {p : Progress} {h : Host} {m : Machine} {token : Token}

/-- What reading a quoted name counts. A copy is made of a name that closes. -/
def quotedUsage (body : Doubled.Body) : Usage :=
  let name := body.text Standby.doubleQuote
  reserved name + if body.isClosed then .copy name else 0

/-- What a pull counts. -/
def usage (s : Scanner) (p : Progress) : Usage :=
  if p.closed then 0
  else match s.rules with
    | some .bootstrap =>
      match Bootstrap.Reading.read (s.source.drop (s.afterGap p).pos) with
      | .lexeme l => l.payload.usage
      | .atEnd | .illegal _ => 0
    | some .standby =>
      match Standby.Reading.read (s.source.drop (s.afterBlanks p).pos) with
      | .lexeme l => l.payload.usage
      | .quoted body => quotedUsage body
      | .atEnd => 0
    | none => 0

/-! ## Parts of a pull -/

theorem storeValue_counts {x : Payload} {value : Option Text}
    (hr : s.storeValue x ⟨p, h⟩ = .ok value m) :
    Counts s.allocator x.usage h.memory m.host.memory := by
  cases x with
  | absent | fixed text =>
    cases hr
    exact Memory.counts_of_same rfl
  | copied text =>
    obtain ⟨copy, m₁, hclone, hpure⟩ := of_bind_ok hr
    obtain ⟨memory, hcopy, rfl⟩ := onMemory_ok hclone
    cases hpure
    exact Memory.clone_counts hcopy

theorem emit_counts {l : Lexeme} (hr : s.emit l ⟨p, h⟩ = .ok token m) :
    Counts s.allocator l.payload.usage h.memory m.host.memory := by
  unfold emit at hr
  rw [run_bind_ok (progress_run _), run_bind_ok (update_run _ _)] at hr
  obtain ⟨value, ⟨q, h₁⟩, hstore, hr⟩ := of_bind_ok hr
  have hcounts := storeValue_counts hstore
  cases hr
  exact hcounts

theorem leaveQuoted_counts (hr : s.leaveQuoted ⟨p, h⟩ = .ok () m) :
    Counts s.allocator 0 h.memory m.host.memory := by
  unfold leaveQuoted at hr
  rw [run_bind_ok (progress_run _)] at hr
  cases ha : p.accumulator with
  | none =>
    simp only [ha] at hr
    cases hr
    exact Memory.counts_of_same rfl
  | some b =>
    simp only [ha] at hr
    obtain ⟨_, m₁, hrelease, hr⟩ := of_bind_ok hr
    obtain ⟨memory, hback, rfl⟩ := onMemory_ok hrelease
    cases hr
    exact Memory.release_counts hback

theorem collectRun_counts {b : BufferId} {t run : Text} (hf : h.memory.Fits s.allocator b t)
    (hr : collectRun b run ⟨p, h⟩ = .ok () m) :
    m.host.memory.Fits s.allocator b (t ++ run) ∧
      ∃ v, reserved t + v = reserved (t ++ run) ∧
        Counts s.allocator v h.memory m.host.memory := by
  unfold collectRun at hr
  split at hr
  · rename_i hrun
    cases hr
    rw [hrun, List.append_nil]
    exact ⟨hf, 0, add_zero _, Memory.counts_of_same rfl⟩
  · rw [run_bind_ok (update_run _ _)] at hr
    obtain ⟨memory, happend, rfl⟩ := onMemory_ok hr
    exact Memory.append_counts hf happend

/-- From the capacity that the text before it needs, the buffer grows to the one that is needed for
the body too. -/
theorem readBody_counts (body : Doubled.Body) (start : Nat) {b : BufferId} {t : Text}
    (hf : h.memory.Fits s.allocator b t)
    (hr : s.readBody start b body ⟨p, h⟩ = .ok token m) :
    let name := t ++ body.text Standby.doubleQuote
    ∃ v, reserved t + v = reserved name + (if body.isClosed then .copy name else 0) ∧
      Counts s.allocator v h.memory m.host.memory := by
  induction body generalizing p h t with
  | pair run rest ih =>
    unfold readBody at hr
    obtain ⟨_, ⟨q, h₁⟩, hrun, hr⟩ := of_bind_ok hr
    obtain ⟨hf₁, v₁, hv₁, hcounts₁⟩ := collectRun_counts hf hrun
    rw [run_bind_ok (update_run _ _)] at hr
    obtain ⟨_, m₂, hquote, hr⟩ := of_bind_ok hr
    obtain ⟨memory, happend, rfl⟩ := onMemory_ok hquote
    obtain ⟨hf₂, v₂, hv₂, hcounts₂⟩ := Memory.append_counts hf₁ happend
    rw [run_bind_ok (update_run _ _)] at hr
    obtain ⟨v₃, hv₃, hcounts₃⟩ := ih hf₂ hr
    have htext : t ++ run ++ [Standby.doubleQuote] ++ rest.text Standby.doubleQuote =
        t ++ (Doubled.Body.pair run rest).text Standby.doubleQuote := by
      simp [Doubled.Body.text]
    rw [htext] at hv₃
    refine ⟨v₁ + v₂ + v₃, ?_, (hcounts₁.trans hcounts₂).trans hcounts₃⟩
    rw [← add_assoc, ← add_assoc, hv₁, hv₂]
    exact hv₃
  | closed run =>
    unfold readBody at hr
    obtain ⟨_, ⟨q, h₁⟩, hrun, hr⟩ := of_bind_ok hr
    obtain ⟨hf₁, v₁, hv₁, hcounts₁⟩ := collectRun_counts hf hrun
    rw [run_bind_ok (update_run _ _), run_bind_get] at hr
    obtain ⟨copy, m₂, hclone, hr⟩ := of_bind_ok hr
    obtain ⟨memory, hcopy, rfl⟩ := onMemory_ok hclone
    obtain ⟨_, ⟨q₃, h₃⟩, hleave, hr⟩ := of_bind_ok hr
    have hcounts₂ := Memory.clone_counts hcopy
    have hcounts₃ := leaveQuoted_counts hleave
    dsimp only at hcounts₂ hf₁
    rw [hf₁.text] at hcounts₂
    rw [run_bind_ok (progress_run _), run_bind_ok (report_run _ _)] at hr
    cases hr
    refine ⟨v₁ + .copy (t ++ run) + 0, ?_, (hcounts₁.trans hcounts₂).trans hcounts₃⟩
    rw [add_zero, ← add_assoc, hv₁]
    rfl
  | unclosed run =>
    unfold readBody at hr
    obtain ⟨_, ⟨q, h₁⟩, hrun, hr⟩ := of_bind_ok hr
    obtain ⟨-, v₁, hv₁, hcounts₁⟩ := collectRun_counts hf hrun
    rw [run_bind_ok (update_run _ _), run_bind_ok (update_run _ _)] at hr
    obtain ⟨_, ⟨q₂, h₂⟩, hrecord, hr⟩ := of_bind_ok hr
    obtain ⟨h', hrecord', hmemory⟩ := recordError_run s unterminated
      ((q.advance run.length).withLastText []) h₁
    obtain ⟨-, hm⟩ := EStateM.Result.ok.inj (hrecord.symm.trans hrecord')
    obtain rfl : h₂ = h' := congrArg Machine.host hm
    obtain ⟨_, m₃, hleave, hr⟩ := of_bind_ok hr
    have hcounts₂ := leaveQuoted_counts hleave
    rw [hmemory] at hcounts₂
    cases hr
    refine ⟨v₁ + 0, ?_, hcounts₁.trans hcounts₂⟩
    rw [add_zero, hv₁]
    exact (add_zero _).symm

/-! ## Pulls -/

theorem readToken_counts (ho : p.closed = false) (hr : s.readToken ⟨p, h⟩ = .ok token m) :
    Counts s.allocator (s.usage p) h.memory m.host.memory := by
  rw [usage, if_neg (by simp [ho])]
  cases hl : s.rules with
  | none =>
    simp only [readToken, hl] at hr
    cases hr
  | some l =>
    cases l with
    | bootstrap =>
      have hgap : s.skipGap ⟨p, h⟩ = .ok () ⟨s.afterGap p, h⟩ := rfl
      simp only [readToken, hl] at hr ⊢
      rw [readBootstrap, run_bind_ok hgap, run_bind_ok (progress_run _)] at hr
      cases hread : Bootstrap.Reading.read (s.source.drop (s.afterGap p).pos) with
      | atEnd =>
        simp only [hread] at hr ⊢
        cases hr
        exact Memory.counts_of_same rfl
      | illegal c =>
        simp only [hread] at hr
        cases hr
      | lexeme l =>
        simp only [hread] at hr ⊢
        obtain ⟨t, ⟨q, h₁⟩, hemit, hr⟩ := of_bind_ok hr
        have hcounts := emit_counts hemit
        cases hr
        exact hcounts
    | standby =>
      have hblanks : s.skipBlanks ⟨p, h⟩ = .ok () ⟨s.afterBlanks p, h⟩ := rfl
      simp only [readToken, hl] at hr ⊢
      rw [readStandby, run_bind_ok hblanks, run_bind_ok (progress_run _)] at hr
      cases hread : Standby.Reading.read (s.source.drop (s.afterBlanks p).pos) with
      | atEnd =>
        simp only [hread] at hr ⊢
        cases hr
        exact Memory.counts_of_same rfl
      | lexeme l =>
        simp only [hread] at hr ⊢
        exact emit_counts hr
      | quoted body =>
        simp only [hread] at hr ⊢
        rw [run_bind_ok (update_run _ _), run_bind_ok (update_run _ _), enterQuoted] at hr
        obtain ⟨b, m₁, henter, hr⟩ := of_bind_ok hr
        obtain ⟨b', m₂, hallocate, henter⟩ := of_bind_ok henter
        obtain ⟨memory, hb, rfl⟩ := onMemory_ok hallocate
        cases henter
        rw [run_bind_ok (report_run _ _)] at hr
        obtain ⟨hf, hcounts⟩ := Memory.allocate_counts hb
        obtain ⟨v, hv, hcounts'⟩ := readBody_counts body _ hf hr
        have htotal := hcounts.trans hcounts'
        rwa [hv] at htotal

/-- What a pull has counted that returns a token, whatever the allocator. -/
theorem pull_counts (hr : s.pull ⟨p, h⟩ = .ok token m) :
    Counts s.allocator (s.usage p) h.memory m.host.memory := by
  rw [pull, run_bind_ok (progress_run _)] at hr
  by_cases hc : p.closed
  · rw [if_pos hc] at hr
    cases hr
  · rw [if_neg hc] at hr
    obtain ⟨t, ⟨q, h₁⟩, hread, hr⟩ := of_bind_ok hr
    have hcounts := readToken_counts (Bool.not_eq_true _ ▸ hc) hread
    -- What is left only counts the token on a ledger and logs it.
    have hsame : m.host.memory = h₁.memory := by
      cases he : t.kind.isEnd <;> cases ht : s.tracing <;>
        simp only [he, ht] at hr <;> cases hr <;> simp [Host.report, account_memory]
    rw [hsame]
    exact hcounts

/-- A pull comes to a failure for one of three reasons. -/
theorem of_outcome_error {failure : Failure} (ho : (s.outcome p).answer = .error failure) :
    p.closed = true ∨ p.closed = false ∧ (s.rules = none ∨ s.rules = some .bootstrap ∧
      ∃ c, Bootstrap.Reading.read (s.source.drop (s.afterGap p).pos) = .illegal c) := by
  rw [outcome] at ho
  by_cases hc : p.closed
  · exact .inl hc
  refine .inr ⟨Bool.eq_false_iff.mpr hc, ?_⟩
  rw [if_neg hc, readOutcome] at ho
  split at ho
  · rename_i hl
    rw [bootstrapOutcome] at ho
    cases hread : Bootstrap.Reading.read (s.source.drop (s.afterGap p).pos) with
    | illegal c => exact .inr ⟨hl, c, rfl⟩
    | atEnd | lexeme l =>
      simp only [hread] at ho
      cases ho
  · rw [standbyOutcome] at ho
    cases hread : Standby.Reading.read (s.source.drop (s.afterBlanks p).pos) with
    | atEnd | lexeme l | quoted body =>
      simp only [hread] at ho
      cases ho
  · exact .inl ‹_›

theorem usage_of_failure {failure : Failure} (ho : (s.outcome p).answer = .error failure) :
    s.usage p = 0 := by
  rw [usage]
  rcases of_outcome_error ho with hc | ⟨hc, hl | ⟨hl, c, hread⟩⟩
  · rw [if_pos hc]
  · simp only [hc, hl]
    rfl
  · simp only [hc, hl, hread]
    rfl

/-- A pull whose outcome is a failure asks for no memory. -/
theorem pull_of_failure {failure : Failure} (ho : (s.outcome p).answer = .error failure)
    (h : Host) : ∃ h', s.pull ⟨p, h⟩ = (s.outcome p).on h' ∧ h'.memory = h.memory := by
  rw [pull, run_bind_ok (progress_run _), outcome]
  rcases of_outcome_error ho with hc | ⟨hc, hl | ⟨hl, c, hread⟩⟩
  · rw [if_pos hc, if_pos hc]
    exact ⟨h, rfl, rfl⟩
  · simp only [hc, readOutcome, readToken, hl]
    exact ⟨h, rfl, rfl⟩
  · have hgap : s.skipGap ⟨p, h⟩ = .ok () ⟨s.afterGap p, h⟩ := rfl
    have hread' : s.readBootstrap ⟨p, h⟩ = .error
        (.illegalCharacter (s.afterGap p).line c s.sourceName)
        ⟨s.afterGap p, (h.account s.ledger Ledger.countError).report
          (.characterRefused c (s.afterGap p).line (s.afterGap p).pos)⟩ := by
      rw [readBootstrap, run_bind_ok hgap, run_bind_ok (progress_run _)]
      simp only [hread]
      rfl
    simp only [hc, readOutcome, readToken, hl, bootstrapOutcome, hread]
    refine ⟨_, run_bind_error hread', ?_⟩
    rw [Host.report, account_memory]

/-- Where the allocator never fails, a pull counts what its scan determines. -/
theorem pull_counted (hs : h.memory.Serves s.allocator) (p : Progress) :
    ∃ h', s.pull ⟨p, h⟩ = (s.outcome p).on h' ∧ h'.memory.Serves s.allocator ∧
      Counts s.allocator (s.usage p) h.memory h'.memory := by
  cases ho : (s.outcome p).answer with
  | ok token =>
    obtain ⟨h', hr, hs'⟩ := pull_run hs p
    refine ⟨h', hr, hs', ?_⟩
    rw [Outcome.on, ho] at hr
    exact pull_counts hr
  | error failure =>
    obtain ⟨h', hr, hmemory⟩ := pull_of_failure ho h
    refine ⟨h', hr, by rwa [hmemory], ?_⟩
    rw [usage_of_failure ho, hmemory]
    exact Memory.counts_of_same rfl

end Scanner

end MiniLex
