import MiniLex.Proofs.Memory.Granted
import MiniLex.Proofs.Text.Doubled
import MiniLex.Scan.Pull

/-!
# The outcome of a pull

What a pull answers, and what progress it leaves, as a function of the progress
before it (`Scanner.outcome`). An allocator may refuse what a pull asks of it,
and the pull then fails. But it cannot change a token: a pull that returns one
has this outcome (`pull_ok`). The same is shown for the parts of a pull first:

* `emit_ok`: the token of a lexeme (`lexemeToken`, `afterLexeme`);
* `readBody_ok`: the token of a quoted name (`bodyToken`, `afterBody`);
* `readBootstrap_ok`, `readStandby_ok`: one token of either language.
-/

namespace MiniLex

/-- What a pull comes to for the scan alone: its answer, and the progress that it leaves. -/
structure Outcome where
  answer : Except Failure Token
  progress : Progress

/-- The result of a pull that has this outcome and leaves this host. -/
def Outcome.on (o : Outcome) (h : Host) : EStateM.Result Failure Machine Token :=
  match o.answer with
  | .ok token => .ok token ⟨o.progress, h⟩
  | .error failure => .error failure ⟨o.progress, h⟩

namespace Scanner

open ScanM

variable {s : Scanner} {p : Progress} {h : Host} {m : Machine} {token : Token}

/-! ## The outcome as a function -/

/-- The token of a lexeme that stands at the cursor. -/
def lexemeToken (s : Scanner) (l : Lexeme) (p : Progress) : Token :=
  ⟨l.kind, l.payload.value, p.pos, p.pos + l.width, s.lineOf p⟩

/-- The progress once a lexeme is made a token. -/
def afterLexeme (s : Scanner) (l : Lexeme) (p : Progress) : Progress :=
  (p.advance l.width).withLastText (s.source.slice p.pos (p.pos + l.width))

/-- The end token at the cursor. -/
def endToken (s : Scanner) (kind : TokenKind) (p : Progress) : Token :=
  ⟨kind, none, p.pos, p.pos, s.lineOf p⟩

/-- The progress once the gap before the next bootstrap token is skipped. -/
def afterGap (s : Scanner) (p : Progress) : Progress :=
  let skipped := Bootstrap.gap (.at s.source p.pos) (s.source.drop p.pos)
  (p.countLines skipped).advance skipped.length

/-- The outcome of a bootstrap pull. -/
def bootstrapOutcome (s : Scanner) (p : Progress) : Outcome :=
  let q := s.afterGap p
  match Bootstrap.Reading.read (s.source.drop q.pos) with
  | .atEnd => ⟨.ok (s.endToken (.bootstrap .endOfInput) q), q.withLastText []⟩
  | .illegal c => ⟨.error (.illegalCharacter q.line c s.sourceName), q⟩
  | .lexeme l =>
    ⟨.ok (s.lexemeToken l q),
      (s.afterLexeme l q).countLines (s.source.slice q.pos (q.pos + l.width))⟩

/-- The progress once the blanks before the next standby token are skipped. -/
def afterBlanks (s : Scanner) (p : Progress) : Progress :=
  p.advance ((s.source.drop p.pos).takeWhile Standby.isBlank).length

/-- The token of a quoted name between two offsets: junk if it does not close. -/
def bodyToken (closed : Bool) (name : Text) (start stop : Nat) : Token :=
  if closed then ⟨.standby .name, some name, start, stop, none⟩
  else ⟨.standby .junk, none, start, stop, none⟩

/-- The progress once a quoted name that ends at an offset is made a token. One that does not close
is an error, which is kept unless an earlier one is. -/
def afterBody (closed : Bool) (stop : Nat) (p : Progress) : Progress :=
  { p with
    pos := stop
    mode := .normal
    accumulator := none
    error := if closed then p.error else p.error.or (some ⟨unterminated, []⟩)
    lastText := if closed then [Standby.doubleQuote] else [] }

/-- The outcome of a standby pull. -/
def standbyOutcome (s : Scanner) (p : Progress) : Outcome :=
  let q := s.afterBlanks p
  match Standby.Reading.read (s.source.drop q.pos) with
  | .atEnd => ⟨.ok (s.endToken (.standby .endOfInput) q), q.withLastText []⟩
  | .lexeme l => ⟨.ok (s.lexemeToken l q), s.afterLexeme l q⟩
  | .quoted body =>
    let stop := q.pos + 1 + body.width
    ⟨.ok (bodyToken body.isClosed (body.text Standby.doubleQuote) q.pos stop),
      afterBody body.isClosed stop q⟩

/-- The outcome of reading a token by the rules of the scanner's language. -/
def readOutcome (s : Scanner) (p : Progress) : Outcome :=
  match s.rules with
  | some .bootstrap => s.bootstrapOutcome p
  | some .standby => s.standbyOutcome p
  | none => ⟨.error .noRules, p⟩

/-- The outcome of a pull. -/
def outcome (s : Scanner) (p : Progress) : Outcome :=
  if p.closed then ⟨.error (.scannerClosed s.name), p⟩ else s.readOutcome p

/-! ## Actions that succeed -/

theorem onMemory_ok {α : Type} {act : MemoryM α} {a : α} (hr : onMemory act ⟨p, h⟩ = .ok a m) :
    ∃ memory, act h.memory = .ok a memory ∧ m = ⟨p, { h with memory := memory }⟩ := by
  unfold onMemory at hr
  cases hact : act h.memory with
  | ok b memory =>
    simp only [hact] at hr
    cases hr
    exact ⟨memory, rfl, rfl⟩
  | error fault memory =>
    simp only [hact] at hr
    cases hr

theorem storeValue_ok {x : Payload} {value : Option Text}
    (hr : s.storeValue x ⟨p, h⟩ = .ok value m) : value = x.value ∧ m.progress = p := by
  cases x with
  | absent => cases hr; exact ⟨rfl, rfl⟩
  | fixed text => cases hr; exact ⟨rfl, rfl⟩
  | copied text =>
    obtain ⟨copy, m₁, hclone, hpure⟩ := of_bind_ok hr
    obtain ⟨memory, hcopy, rfl⟩ := onMemory_ok hclone
    cases hpure
    rw [Memory.clone_ok hcopy]
    exact ⟨rfl, rfl⟩

theorem emit_ok {l : Lexeme} (hr : s.emit l ⟨p, h⟩ = .ok token m) :
    token = s.lexemeToken l p ∧ m.progress = s.afterLexeme l p := by
  unfold emit at hr
  rw [run_bind_ok (progress_run _), run_bind_ok (update_run _ _)] at hr
  obtain ⟨value, ⟨q, h₁⟩, hstore, hr⟩ := of_bind_ok hr
  obtain ⟨rfl, hq⟩ := storeValue_ok hstore
  obtain rfl : q = p.advance l.width := hq
  cases hr
  exact ⟨rfl, rfl⟩

theorem readBootstrap_ok (hr : s.readBootstrap ⟨p, h⟩ = .ok token m) :
    s.bootstrapOutcome p = ⟨.ok token, m.progress⟩ := by
  have hgap : s.skipGap ⟨p, h⟩ = .ok () ⟨s.afterGap p, h⟩ := rfl
  rw [readBootstrap, run_bind_ok hgap, run_bind_ok (progress_run _)] at hr
  unfold bootstrapOutcome
  cases hread : Bootstrap.Reading.read (s.source.drop (s.afterGap p).pos) with
  | atEnd =>
    simp only [hread] at hr ⊢
    cases hr
    rfl
  | illegal c =>
    simp only [hread] at hr
    cases hr
  | lexeme l =>
    simp only [hread] at hr ⊢
    obtain ⟨t, ⟨q, h₁⟩, hemit, hr⟩ := of_bind_ok hr
    obtain ⟨rfl, hq⟩ := emit_ok hemit
    obtain rfl : q = s.afterLexeme l (s.afterGap p) := hq
    cases hr
    rfl

theorem collectRun_ok {b : BufferId} {t run : Text} (hh : h.memory.Holds b t)
    (hr : collectRun b run ⟨p, h⟩ = .ok () m) :
    (∃ t', m.progress = p.withLastText t') ∧ m.host.memory.Holds b (t ++ run) := by
  unfold collectRun at hr
  split at hr
  · rename_i hrun
    cases hr
    exact ⟨⟨p.lastText, rfl⟩, by rwa [hrun, List.append_nil]⟩
  · rw [run_bind_ok (update_run _ _)] at hr
    obtain ⟨memory, happend, rfl⟩ := onMemory_ok hr
    exact ⟨⟨run, rfl⟩, hh.append_ok happend⟩

theorem leaveQuoted_ok (hr : s.leaveQuoted ⟨p, h⟩ = .ok () m) :
    m.progress = { p with accumulator := none, mode := .normal } := by
  unfold leaveQuoted at hr
  rw [run_bind_ok (progress_run _)] at hr
  cases ha : p.accumulator with
  | none =>
    simp only [ha] at hr
    cases hr
    simp [← ha]
  | some b =>
    simp only [ha] at hr
    obtain ⟨_, m₁, hrelease, hr⟩ := of_bind_ok hr
    obtain ⟨memory, _, rfl⟩ := onMemory_ok hrelease
    cases hr
    rfl

/-- Tokens of a standby list have no lines. -/
theorem lineOf_standby (hl : s.rules = some .standby) (p : Progress) : s.lineOf p = none := by
  simp [lineOf, tracksLines, hl, Language.tracksLines]

theorem account_memory (l : Option LedgerId) (f : Ledger → Ledger) (h : Host) :
    (h.account l f).memory = h.memory := by
  cases l <;> rfl

/-- An error is kept unless an earlier one is. -/
theorem noteError_run (complaint : String) (p : Progress) (h : Host) :
    noteError complaint ⟨p, h⟩ = .ok p.error.isNone
      ⟨{ p with error := p.error.or (some ⟨complaint, p.lastText⟩) }, h⟩ := by
  obtain ⟨pos, lineCount, mode, accumulator, error, lastText, closed⟩ := p
  cases error <;> rfl

theorem recordError_run (s : Scanner) (complaint : String) (p : Progress) (h : Host) :
    ∃ h', s.recordError complaint ⟨p, h⟩ = .ok p.error.isNone
        ⟨{ p with error := p.error.or (some ⟨complaint, p.lastText⟩) }, h'⟩ ∧
      h'.memory = h.memory := by
  rw [recordError, run_bind_ok (noteError_run _ _ _)]
  cases p.error with
  | some d => exact ⟨h, rfl, rfl⟩
  | none =>
    refine ⟨_, rfl, ?_⟩
    rw [Host.report, account_memory]

/-- A body that is read to its end gives the token of what the buffer held before and the text of
the body. -/
theorem readBody_ok (hl : s.rules = some .standby) (body : Doubled.Body) (start : Nat)
    {b : BufferId} {t : Text} (hh : h.memory.Holds b t)
    (hr : s.readBody start b body ⟨p, h⟩ = .ok token m) :
    token = bodyToken body.isClosed (t ++ body.text Standby.doubleQuote) start
        (p.pos + body.width) ∧
      m.progress = afterBody body.isClosed (p.pos + body.width) p := by
  induction body generalizing p h t with
  | pair run rest ih =>
    unfold readBody at hr
    obtain ⟨_, ⟨q, h₁⟩, hrun, hr⟩ := of_bind_ok hr
    obtain ⟨⟨t₁, hq⟩, hh₁⟩ := collectRun_ok hh hrun
    obtain rfl : q = p.withLastText t₁ := hq
    rw [run_bind_ok (update_run _ _)] at hr
    obtain ⟨_, m₂, hquote, hr⟩ := of_bind_ok hr
    obtain ⟨memory, happend, rfl⟩ := onMemory_ok hquote
    rw [run_bind_ok (update_run _ _)] at hr
    obtain ⟨htoken, hprogress⟩ := ih (hh₁.append_ok happend) hr
    have hpos : p.pos + (run.length + 2) + rest.width =
        p.pos + (Doubled.Body.pair run rest).width := by
      simp only [Doubled.Body.width]
      omega
    have htext : t ++ run ++ [Standby.doubleQuote] ++ rest.text Standby.doubleQuote =
        t ++ (Doubled.Body.pair run rest).text Standby.doubleQuote := by
      simp [Doubled.Body.text]
    rw [← hpos, ← htext]
    exact ⟨htoken, hprogress⟩
  | closed run =>
    unfold readBody at hr
    obtain ⟨_, ⟨q, h₁⟩, hrun, hr⟩ := of_bind_ok hr
    obtain ⟨⟨t₁, hq⟩, hh₁⟩ := collectRun_ok hh hrun
    obtain rfl : q = p.withLastText t₁ := hq
    rw [run_bind_ok (update_run _ _), run_bind_get] at hr
    obtain ⟨copy, m₂, hclone, hr⟩ := of_bind_ok hr
    obtain ⟨memory, hcopy, rfl⟩ := onMemory_ok hclone
    obtain rfl := Memory.clone_ok hcopy
    obtain ⟨_, ⟨q₃, h₃⟩, hleave, hr⟩ := of_bind_ok hr
    obtain rfl : q₃ = _ := leaveQuoted_ok hleave
    rw [run_bind_ok (progress_run _), run_bind_ok (report_run _ _), makeToken] at hr
    simp only [lineOf_standby hl] at hr
    cases hr
    simp only [hh₁.text]
    exact ⟨rfl, rfl⟩
  | unclosed run =>
    unfold readBody at hr
    obtain ⟨_, ⟨q, h₁⟩, hrun, hr⟩ := of_bind_ok hr
    obtain ⟨⟨t₁, hq⟩, hh₁⟩ := collectRun_ok hh hrun
    obtain rfl : q = p.withLastText t₁ := hq
    rw [run_bind_ok (update_run _ _), run_bind_ok (update_run _ _)] at hr
    obtain ⟨h₂, hrecord, -⟩ := recordError_run s unterminated
      (((p.withLastText t₁).advance run.length).withLastText []) h₁
    rw [run_bind_ok hrecord] at hr
    obtain ⟨_, ⟨q₃, h₃⟩, hleave, hr⟩ := of_bind_ok hr
    obtain rfl : q₃ = _ := leaveQuoted_ok hleave
    cases hr
    exact ⟨rfl, rfl⟩

theorem readStandby_ok (hl : s.rules = some .standby)
    (hr : s.readStandby ⟨p, h⟩ = .ok token m) :
    s.standbyOutcome p = ⟨.ok token, m.progress⟩ := by
  have hblanks : s.skipBlanks ⟨p, h⟩ = .ok () ⟨s.afterBlanks p, h⟩ := rfl
  rw [readStandby, run_bind_ok hblanks, run_bind_ok (progress_run _)] at hr
  unfold standbyOutcome
  cases hread : Standby.Reading.read (s.source.drop (s.afterBlanks p).pos) with
  | atEnd =>
    simp only [hread] at hr ⊢
    cases hr
    rfl
  | lexeme l =>
    simp only [hread] at hr ⊢
    obtain ⟨rfl, hq⟩ := emit_ok hr
    rw [hq]
  | quoted body =>
    simp only [hread] at hr ⊢
    rw [run_bind_ok (update_run _ _), run_bind_ok (update_run _ _), enterQuoted] at hr
    obtain ⟨b, ⟨q, h₁⟩, henter, hr⟩ := of_bind_ok hr
    obtain ⟨b', m₁, hallocate, henter⟩ := of_bind_ok henter
    obtain ⟨memory, hb, rfl⟩ := onMemory_ok hallocate
    cases henter
    rw [run_bind_ok (report_run _ _)] at hr
    obtain ⟨rfl, hq⟩ := readBody_ok hl body _ (Memory.allocate_ok hb) hr
    rw [hq]
    rfl

theorem readToken_ok (hr : s.readToken ⟨p, h⟩ = .ok token m) :
    s.readOutcome p = ⟨.ok token, m.progress⟩ := by
  cases hl : s.rules with
  | none =>
    simp only [readToken, hl] at hr
    cases hr
  | some l =>
    cases l with
    | bootstrap =>
      simp only [readToken, readOutcome, hl] at hr ⊢
      exact readBootstrap_ok hr
    | standby =>
      simp only [readToken, readOutcome, hl] at hr ⊢
      exact readStandby_ok hl hr

theorem outcome_of_closed (hc : p.closed = true) :
    s.outcome p = ⟨.error (.scannerClosed s.name), p⟩ := if_pos hc

theorem pull_of_closed {m : Machine} (hc : m.progress.closed = true) :
    s.pull m = .error (.scannerClosed s.name) m := by
  rw [pull, run_bind_ok (progress_run m), if_pos hc]
  rfl

/-- A scan is open if a pull of it does anything else than to fail for its being closed. -/
theorem open_of_pull {m : Machine} (hr : s.pull m ≠ .error (.scannerClosed s.name) m) :
    m.progress.closed = false :=
  Bool.eq_false_iff.mpr fun hc => hr (pull_of_closed hc)

/-- A pull that returns a token has the outcome that its scan determines, whatever the allocator. -/
theorem pull_ok (hr : s.pull ⟨p, h⟩ = .ok token m) : s.outcome p = ⟨.ok token, m.progress⟩ := by
  rw [pull, run_bind_ok (progress_run _)] at hr
  rw [outcome]
  by_cases hc : p.closed
  · rw [if_pos hc] at hr
    cases hr
  · rw [if_neg hc] at hr ⊢
    obtain ⟨t, ⟨q, h₁⟩, hread, hr⟩ := of_bind_ok hr
    rw [readToken_ok hread]
    -- What is left only counts and logs the token.
    cases he : t.kind.isEnd <;> cases ht : s.tracing <;>
      simp only [he, ht] at hr <;> cases hr <;> rfl

end Scanner

end MiniLex
