import MiniLex.Session.Observe
import MiniLex.Session.Perform

/-!
# Running a session

A session starts with no names, the standard configuration and no ledger. Its steps run one after
the other; a step that fails binds no name, but what it changed before it failed stays changed.
`Session.run` answers each step with a report.
-/

namespace MiniLex.Session

/-- Does one action and reports on it. -/
def perform (x : Action) (s : Session) : Report Reply × Session :=
  match act x s with
  | .ok reply s' => reportOn x (.ok reply) s'
  | .error failure s' => reportOn x (.error failure) s'

mutual

/-- Runs one step. -/
def runStep : Step → Session → Report Reply × Session
  | .act x, s => s.perform x
  | .isolated steps, s =>
    let (reports, s') := runSteps steps { s with ambient := .initial }
    (⟨.ok (.reports reports), none, none, none, []⟩, { s' with ambient := s.ambient })

/-- Runs steps one after the other. -/
def runSteps : List Step → Session → List (Report Reply) × Session
  | [], s => ([], s)
  | x :: xs, s =>
    let (report, s') := runStep x s
    let (reports, s'') := runSteps xs s'
    (report :: reports, s'')

end

/-- The reports on the steps of a new session. -/
def run (steps : List Step) : List (Report Reply) := (runSteps steps initial).1

end MiniLex.Session
