import MiniLex.Proofs.Scan.Demand

/-!
# Exchanges with a scan

A run of calls to a scan as data: what is done with it (`Dealing`), by its
consumer or by an arena that tears it down, and for each call the machine that
it finds and what comes of it (`Exchange`). Where the allocator does not fail
while the scan is open, each call has the effect that the scan determines, also
one to a scan that is torn down already (`exchange_eq`).
-/

namespace MiniLex

/-- What is done with a scan: its consumer demands something of it, or an arena tears it down. -/
inductive Dealing where
  | demand (d : Demand)
  | release
  deriving DecidableEq

/-- What is done with a scan, with the answer. -/
def Dealing.act (d : Dealing) (s : Scanner) : ScanM Answer :=
  match d with
  | demand d => d.act s
  | release => do
    s.release
    return .closed

/-- The error that is reported by its consumer. -/
def Dealing.complaint? : Dealing → Option String
  | demand (.recordError complaint) | demand (.noteError complaint) => some complaint
  | _ => none

/-- Something is done with a scan: what it finds, and what comes of it. -/
structure Exchange where
  dealing : Dealing
  found : Machine
  result : EStateM.Result Failure Machine Answer

namespace Exchange

/-- What is answered. -/
def answer (x : Exchange) : Except Failure Answer :=
  match x.result with
  | .ok answer _ => .ok answer
  | .error failure _ => .error failure

/-- The machine that is left. -/
def left (x : Exchange) : Machine :=
  match x.result with
  | .ok _ m => m
  | .error _ m => m

/-- The token that is answered. -/
def tokenOf : Except Failure Answer → Option Token
  | .ok (.token t) => some t
  | _ => none

/-- The token that is returned. -/
def token? (x : Exchange) : Option Token := tokenOf x.answer

end Exchange

namespace Scanner

open ScanM

variable {s : Scanner} {p : Progress} {h : Host}

/-- What comes of it if this is done with a scan. -/
def exchange (s : Scanner) (m : Machine) (d : Dealing) : Exchange := ⟨d, m, d.act s m⟩

/-- What is done with a scan, one after the other, each of which finds the host that is given with
it. -/
def exchanges (s : Scanner) : Progress → List (Dealing × Host) → List Exchange
  | _, [] => []
  | p, (d, h) :: rest =>
    let x := s.exchange ⟨p, h⟩ d
    x :: s.exchanges x.left.progress rest

/-- The effect of what is done with a scan. -/
def dealt (s : Scanner) (p : Progress) : Dealing → Effect
  | .demand d => s.effect p d
  | .release => ⟨.ok .closed, p.shut, 0⟩

theorem release_run (hs : h.memory.Serves s.allocator) (ho : p.closed = false) :
    ∃ h', s.release ⟨p, h⟩ = .ok () ⟨p.shut, h'⟩ := by
  obtain ⟨⟨q, h₁⟩, hleave, hs₁⟩ := leaveQuoted_run hs p
  obtain ⟨memory, hcontext, -⟩ := hs₁.releaseContext s.id
  obtain rfl : q = _ := leaveQuoted_ok hleave
  rw [Progress.shut, if_neg (by simp [ho])]
  exact ⟨_, release_of_left ho hleave hcontext⟩

/-- A closed scan does not act on its memory any more, whatever is done with it. -/
theorem exchange_of_closed (hc : p.closed = true) (h : Host) (d : Dealing) :
    ∃ h', (s.exchange ⟨p, h⟩ d).result = (s.dealt p d).on h' := by
  have hshut := Progress.shut_of_closed hc
  have hclose : s.close ⟨p, h⟩ = .ok () ⟨p, h⟩ := close_of_closed hc
  cases d with
  | release =>
    rw [dealt, hshut]
    exact ⟨h, run_bind_ok (release_of_closed (m := ⟨p, h⟩) hc)⟩
  | demand d =>
    cases d with
    | pull =>
      rw [dealt, effect, outcome_of_closed hc]
      exact ⟨h, run_bind_error (pull_of_closed (m := ⟨p, h⟩) hc)⟩
    | recordError complaint =>
      obtain ⟨h', hr, -⟩ := recordError_run s complaint p h
      exact ⟨h', run_bind_ok hr⟩
    | noteError complaint => exact ⟨h, run_bind_ok (noteError_run complaint p h)⟩
    | close =>
      rw [dealt, effect, hshut]
      exact ⟨h, run_bind_ok hclose⟩
    | finish =>
      have hfinish : s.finish ⟨p, h⟩ = .ok p.error ⟨p, h⟩ := by
        rw [finish, run_bind_ok hclose]
        rfl
      rw [dealt, effect, hshut]
      exact ⟨h, run_bind_ok hfinish⟩

/-- Where the allocator does not fail while the scan is open, what is done with it has the effect
that the scan determines. -/
theorem exchange_run (hs : p.closed = false → h.memory.Serves s.allocator) (d : Dealing) :
    ∃ h', (s.exchange ⟨p, h⟩ d).result = (s.dealt p d).on h' := by
  cases hc : p.closed with
  | true => exact exchange_of_closed hc h d
  | false =>
    cases d with
    | demand d =>
      obtain ⟨h', hr, -⟩ := act_run (hs hc) p d
      exact ⟨h', hr⟩
    | release =>
      obtain ⟨h', hr⟩ := release_run (hs hc) hc
      exact ⟨h', run_bind_ok hr⟩

theorem exchange_eq (hs : p.closed = false → h.memory.Serves s.allocator) (d : Dealing) :
    (s.exchange ⟨p, h⟩ d).answer = (s.dealt p d).answer ∧
      (s.exchange ⟨p, h⟩ d).left.progress = (s.dealt p d).progress := by
  obtain ⟨h', hr⟩ := exchange_run hs d
  rw [Exchange.answer, Exchange.left, hr, Effect.on]
  cases (s.dealt p d).answer <;> exact ⟨rfl, rfl⟩

theorem complaint?_eq_some {d : Dealing} {complaint : String}
    (h : d.complaint? = some complaint) :
    d = .demand (.recordError complaint) ∨ d = .demand (.noteError complaint) := by
  cases d with
  | release => cases h
  | demand d =>
    cases d with
    | recordError c => exact .inl (by rw [Option.some.inj h])
    | noteError c => exact .inr (by rw [Option.some.inj h])
    | pull | close | finish => cases h

/-- Where an error is kept, another one is not, and nothing changes. -/
theorem exchange_of_kept {complaint : String} {d : Dealing} (hd : d.complaint? = some complaint)
    (hk : p.error ≠ none) : (s.exchange ⟨p, h⟩ d).left = ⟨p, h⟩ := by
  obtain ⟨e, he⟩ := Option.ne_none_iff_exists'.mp hk
  have hnote : noteError complaint ⟨p, h⟩ = .ok false ⟨p, h⟩ := by
    rw [noteError, run_bind_ok (progress_run _), he]
    rfl
  have hrecord : s.recordError complaint ⟨p, h⟩ = .ok false ⟨p, h⟩ := by
    rw [recordError, run_bind_ok hnote]
    rfl
  rcases complaint?_eq_some hd with rfl | rfl
  · rw [Exchange.left, exchange, Dealing.act, Demand.act, run_bind_ok hrecord]
    rfl
  · rw [Exchange.left, exchange, Dealing.act, Demand.act, run_bind_ok hnote]
    rfl

end Scanner

end MiniLex
