/-!
# Names in a session

A session refers to allocators, scans, buffers, streams and ledgers by names. Each kind of thing has
a name space of its own. Binding a name again replaces what it stood for.
-/

namespace MiniLex

/-- The name spaces of a session. -/
inductive Space where
  | allocator
  | scan
  | buffer
  | stream
  | ledger
  deriving DecidableEq

/-- The letter by which a name space is reported. -/
def Space.letter : Space → String
  | allocator => "a"
  | scan => "s"
  | buffer => "b"
  | stream => "i"
  | ledger => "p"

/-- A name together with its name space. -/
abbrev Name := Space × String

/-- The names bound in a session and the identifiers that they stand for. -/
structure Names where
  entries : List (Name × Nat)

namespace Names

/-- No name is bound. -/
def empty : Names := ⟨[]⟩

/-- The identifier that a name stands for, if it is bound. -/
def find? (n : Names) (name : Name) : Option Nat :=
  (n.entries.find? fun e => e.1 = name).map (·.2)

/-- Binds a name, in place of what it stood for. -/
def bind (n : Names) (name : Name) (id : Nat) : Names :=
  ⟨(name, id) :: n.entries.filter fun e => e.1 ≠ name⟩

/-- The name that stands for an identifier in a name space, if there is one. -/
def nameOf? (n : Names) (space : Space) (id : Nat) : Option String :=
  (n.entries.find? fun e => e.1.1 = space ∧ e.2 = id).map (·.1.2)

theorem find?_bind_self (n : Names) (name : Name) (id : Nat) :
    (n.bind name id).find? name = some id := by
  simp [find?, bind]

theorem find?_bind_of_ne {name other : Name} (n : Names) (id : Nat) (h : other ≠ name) :
    (n.bind name id).find? other = n.find? other := by
  have hskip (e : Name × Nat) :
      decide (decide (e.1 ≠ name) = true ∧ decide (e.1 = other) = true) =
        decide (e.1 = other) := by
    by_cases he : e.1 = other <;> simp [he, h]
  simp only [find?, bind, List.find?_cons, Ne.symm h, decide_false, List.find?_filter, hskip]

end Names

end MiniLex
