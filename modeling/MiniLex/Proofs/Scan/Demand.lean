import MiniLex.Proofs.Scan.Upkeep
import MiniLex.Proofs.Scan.Usage

/-!
# What callers demand of a scan

Callers demand of a scan that it gives a token, records an error, or is closed
(`Demand`). Where the allocator never fails, what it answers, the progress that
this leaves and what it counts on an arena are determined by the scan alone
(`act_run`), and by no more of its scanner than the source, the name of the
source and the rules (`Alike.effect_eq`). Tokens that are collected answer as
many pulls (`collectUpTo_pulls`).
-/

namespace MiniLex

open Memory (Counts)

/-- What callers demand of a scan. -/
inductive Demand where
  | pull
  /-- An error of a standby scan, which is counted and logged. -/
  | recordError (complaint : String)
  /-- An error of any scan, which is neither counted nor logged. -/
  | noteError (complaint : String)
  | close
  | finish
  deriving DecidableEq

/-- What a scan answers to a demand, if it does not fail. -/
inductive Answer where
  | token (t : Token)
  /-- Whether an error is kept. -/
  | kept (isKept : Bool)
  | closed
  /-- The scan is closed and has kept this error. -/
  | finished (error : Option Diagnostic)
  deriving DecidableEq

/-- A scan does what is demanded of it. -/
def Demand.act (d : Demand) (s : Scanner) : ScanM Answer :=
  match d with
  | pull => do return .token (← s.pull)
  | recordError complaint => do return .kept (← s.recordError complaint)
  | noteError complaint => do return .kept (← Scanner.noteError complaint)
  | close => do
    s.close
    return .closed
  | finish => do return .finished (← s.finish)

/-- What a demand comes to for the scan alone, and what it counts on an arena. -/
structure Effect where
  answer : Except Failure Answer
  progress : Progress
  usage : Usage

/-- The result of a demand that has this effect and leaves this host. -/
def Effect.on (e : Effect) (h : Host) : EStateM.Result Failure Machine Answer :=
  match e.answer with
  | .ok answer => .ok answer ⟨e.progress, h⟩
  | .error failure => .error failure ⟨e.progress, h⟩

/-- The progress once a scan is closed. -/
def Progress.shut (p : Progress) : Progress :=
  if p.closed then p else { p with accumulator := none, mode := .normal, closed := true }

namespace Progress

theorem shut_of_closed {p : Progress} (h : p.closed = true) : p.shut = p := if_pos h

@[simp] theorem shut_pos (p : Progress) : p.shut.pos = p.pos := by
  rw [shut]
  split <;> rfl

@[simp] theorem shut_error (p : Progress) : p.shut.error = p.error := by
  rw [shut]
  split <;> rfl

@[simp] theorem shut_lastText (p : Progress) : p.shut.lastText = p.lastText := by
  rw [shut]
  split <;> rfl

end Progress

namespace Scanner

open ScanM

variable {s s' : Scanner} {p : Progress} {h : Host}

/-- The effect of a demand. -/
def effect (s : Scanner) (p : Progress) : Demand → Effect
  | .pull =>
    let o := s.outcome p
    ⟨o.answer.map .token, o.progress, s.usage p⟩
  | .recordError complaint | .noteError complaint =>
    ⟨.ok (.kept p.error.isNone), { p with error := p.error.or (some ⟨complaint, p.lastText⟩) }, 0⟩
  | .close => ⟨.ok .closed, p.shut, 0⟩
  | .finish => ⟨.ok (.finished p.error), p.shut, 0⟩

theorem effect_pull {t : Token} {q : Progress} (ho : s.outcome p = ⟨.ok t, q⟩) :
    s.effect p .pull = ⟨.ok (.token t), q, s.usage p⟩ := by
  rw [effect, ho]
  rfl

/-- A scan can be closed where the allocator never fails. Nothing is counted then. -/
theorem close_run (hs : h.memory.Serves s.allocator) (p : Progress) :
    ∃ h', s.close ⟨p, h⟩ = .ok () ⟨p.shut, h'⟩ ∧ h'.memory.Serves s.allocator ∧
      Counts s.allocator 0 h.memory h'.memory := by
  rw [close, run_bind_ok (progress_run _), Progress.shut]
  cases hc : p.closed with
  | true => exact ⟨h, rfl, hs, Memory.counts_of_same rfl⟩
  | false =>
    obtain ⟨⟨q, h₁⟩, hleave, hs₁⟩ := leaveQuoted_run hs p
    have hcounts := leaveQuoted_counts hleave
    obtain ⟨memory, hcontext, hs₂⟩ := hs₁.releaseContext s.id
    have hcounts' := hcounts.trans (Memory.releaseContext_counts hcontext)
    rw [add_zero] at hcounts'
    obtain rfl : q = _ := leaveQuoted_ok hleave
    rw [if_neg Bool.false_ne_true, run_bind_ok (release_of_left hc hleave hcontext)]
    exact ⟨_, rfl, hs₂, hcounts'⟩

/-- Where the allocator never fails, a demand has the effect that its scan determines. -/
theorem act_run (hs : h.memory.Serves s.allocator) (p : Progress) (d : Demand) :
    ∃ h', d.act s ⟨p, h⟩ = (s.effect p d).on h' ∧ h'.memory.Serves s.allocator ∧
      Counts s.allocator (s.effect p d).usage h.memory h'.memory := by
  cases d with
  | pull =>
    obtain ⟨h', hr, hs', hcounts⟩ := pull_counted hs p
    refine ⟨h', ?_, hs', hcounts⟩
    rw [Outcome.on] at hr
    rw [Effect.on, effect, Demand.act]
    cases ho : (s.outcome p).answer with
    | ok token =>
      rw [ho] at hr
      exact run_bind_ok hr
    | error failure =>
      rw [ho] at hr
      exact run_bind_error hr
  | recordError complaint =>
    obtain ⟨h', hr, hmemory⟩ := recordError_run s complaint p h
    exact ⟨h', run_bind_ok hr, hmemory ▸ hs, Memory.counts_of_same (by rw [hmemory])⟩
  | noteError complaint =>
    exact ⟨h, run_bind_ok (noteError_run complaint p h), hs, Memory.counts_of_same rfl⟩
  | close =>
    obtain ⟨h', hr, hs', hcounts⟩ := close_run hs p
    exact ⟨h', run_bind_ok hr, hs', hcounts⟩
  | finish =>
    obtain ⟨h', hr, hs', hcounts⟩ := close_run hs p
    have hfinish : s.finish ⟨p, h⟩ = .ok p.error ⟨p.shut, h'⟩ := by
      rw [finish, run_bind_ok hr, ← p.shut_error]
      rfl
    exact ⟨h', run_bind_ok hfinish, hs', hcounts⟩

/-! ## Scanners with other allocators and observers -/

/-- Scanners that read the same source by the same rules. Their allocators and observers may be
different, and they may be those of different scans. -/
structure Alike (s s' : Scanner) : Prop where
  rules : s.rules = s'.rules
  source : s.source = s'.source
  sourceName : s.sourceName = s'.sourceName

/-- Neither the allocator nor who observes makes a difference. -/
theorem Alike.effect_eq (h : s.Alike s') (p : Progress) (d : Demand) :
    s.effect p d = s'.effect p d := by
  obtain ⟨id, rules, source, sourceName, allocator, tracing, ledger⟩ := s
  obtain ⟨id', rules', source', sourceName', allocator', tracing', ledger'⟩ := s'
  obtain ⟨rfl, rfl, rfl⟩ := h
  rfl

/-! ## One demand after another -/

/-- The answers to demands, one after the other. -/
def answers (s : Scanner) : Progress → List Demand → List (Except Failure Answer)
  | _, [] => []
  | p, d :: ds => (s.effect p d).answer :: s.answers (s.effect p d).progress ds

/-- The progress after demands, one after the other. -/
def after (s : Scanner) : Progress → List Demand → Progress
  | p, [] => p
  | p, d :: ds => s.after (s.effect p d).progress ds

/-- What demands count in all, one after the other. -/
def used (s : Scanner) : Progress → List Demand → Usage
  | _, [] => 0
  | p, d :: ds => (s.effect p d).usage + s.used (s.effect p d).progress ds

theorem Alike.answers_eq (h : s.Alike s') (p : Progress) (ds : List Demand) :
    s.answers p ds = s'.answers p ds := by
  induction ds generalizing p with
  | nil => rfl
  | cons d ds ih => rw [answers, answers, h.effect_eq, ih]

theorem Alike.after_eq (h : s.Alike s') (p : Progress) (ds : List Demand) :
    s.after p ds = s'.after p ds := by
  induction ds generalizing p with
  | nil => rfl
  | cons d ds ih => rw [after, after, h.effect_eq, ih]

theorem Alike.used_eq (h : s.Alike s') (p : Progress) (ds : List Demand) :
    s.used p ds = s'.used p ds := by
  induction ds generalizing p with
  | nil => rfl
  | cons d ds ih => rw [used, used, h.effect_eq, ih]

theorem answers_append (s : Scanner) (p : Progress) (ds ds' : List Demand) :
    s.answers p (ds ++ ds') = s.answers p ds ++ s.answers (s.after p ds) ds' := by
  induction ds generalizing p with
  | nil => rfl
  | cons d ds ih => rw [List.cons_append, answers, answers, after, ih, List.cons_append]

/-- Tokens that are collected are the answers to as many pulls, and count as much. -/
theorem collectUpTo_pulls {n : Nat} {tokens : List Token} {m : Machine}
    (hr : s.collectUpTo n ⟨p, h⟩ = .ok tokens m) :
    s.answers p (List.replicate tokens.length .pull) = tokens.map (fun t => .ok (.token t)) ∧
      Counts s.allocator (s.used p (List.replicate tokens.length .pull)) h.memory
        m.host.memory := by
  induction n generalizing p h tokens with
  | zero =>
    cases hr
    exact ⟨rfl, Memory.counts_of_same rfl⟩
  | succ n ih =>
    unfold collectUpTo at hr
    obtain ⟨token, ⟨q, h₁⟩, hpull, hr⟩ := of_bind_ok hr
    have heffect := effect_pull (pull_ok hpull)
    have hcounts := pull_counts hpull
    cases hk : token.kind.isEnd with
    | true =>
      simp only [hk, ↓reduceIte] at hr
      cases hr
      rw [List.length_singleton, List.replicate_one, answers, used, heffect]
      exact ⟨rfl, by rwa [used, add_zero]⟩
    | false =>
      simp only [hk, Bool.false_eq_true, ↓reduceIte] at hr
      obtain ⟨rest, m₁, hrest, hr⟩ := of_bind_ok hr
      cases hr
      obtain ⟨hanswers, hcounts'⟩ := ih hrest
      rw [List.length_cons, List.replicate_succ, answers, used, heffect, List.map_cons]
      exact ⟨by rw [hanswers], hcounts.trans hcounts'⟩

end Scanner

end MiniLex
