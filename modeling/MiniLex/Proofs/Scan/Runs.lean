import MiniLex.Proofs.Scan.Totality

/-!
# Runs of pulls

A scan is pulled any number of times, and goes on after a pull that fails.
Between two pulls others may act on the host, so a run is given by the hosts
that its pulls find (`Scanner.pulls`). What one pull preserves, a run does
(`pulls_induction`).
-/

namespace MiniLex

/-- The outcome of a pull, without the host that it leaves. -/
def Outcome.ofResult : EStateM.Result Failure Machine Token → Outcome
  | .ok token m => ⟨.ok token, m.progress⟩
  | .error failure m => ⟨.error failure, m.progress⟩

@[simp] theorem Outcome.ofResult_on (o : Outcome) (h : Host) : ofResult (o.on h) = o := by
  obtain ⟨answer, q⟩ := o
  cases answer <;> rfl

namespace Scanner

variable {s : Scanner} {hosts : List Host}

/-- The outcomes of pulls, one after the other, each of which finds one of these hosts. -/
def pulls (s : Scanner) : Progress → List Host → List Outcome
  | _, [] => []
  | p, h :: hosts =>
    let o := Outcome.ofResult (s.pull ⟨p, h⟩)
    o :: s.pulls o.progress hosts

theorem pulls_cons {h : Host} (hs : h.memory.Serves s.allocator) (p : Progress) :
    s.pulls p (h :: hosts) = s.outcome p :: s.pulls (s.outcome p).progress hosts := by
  obtain ⟨h', hr, -⟩ := pull_run hs p
  rw [pulls, hr, Outcome.ofResult_on]

/-- What holds at the start of a run, and after each pull if it did before, holds after every
pull of the run. -/
theorem pulls_induction {I : Progress → Prop} {A : Outcome → Prop}
    (hs : ∀ h ∈ hosts, h.memory.Serves s.allocator)
    (hstep : ∀ p, I p → I (s.outcome p).progress ∧ A (s.outcome p)) :
    ∀ p, I p → ∀ o ∈ s.pulls p hosts, A o := by
  induction hosts with
  | nil =>
    intro p _ o ho
    cases ho
  | cons h hosts ih =>
    intro p hp o ho
    obtain ⟨hI, hA⟩ := hstep p hp
    rw [pulls_cons (hs h List.mem_cons_self), List.mem_cons] at ho
    rcases ho with rfl | ho
    · exact hA
    · exact ih (fun h' hh => hs h' (List.mem_cons_of_mem h hh)) _ hI o ho

end Scanner

end MiniLex
