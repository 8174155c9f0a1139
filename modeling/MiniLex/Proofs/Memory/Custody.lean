import MiniLex.Proofs.Memory.Books

/-!
# Which buffers are given back

A buffer is handed out by `allocate` and given back by `release`. What the
memory remembers of that for each buffer (`Memory.givenBack`) stands in its
books, and changes with them only.
-/

namespace MiniLex.Memory

variable {m m' : Memory} {a : AllocatorId} {b : BufferId} {i : ScanId}

/-- For each buffer, whether it has been given back. -/
def givenBack (m : Memory) : List Bool := m.buffers.map Buffer.released

/-- A buffer has been handed out and not been given back. -/
def Live (m : Memory) (b : BufferId) : Prop := ∃ x, m.buffers[b]? = some x ∧ x.released = false

theorem live_iff : m.Live b ↔ m.givenBack[b]? = some false := by
  simp [Live, givenBack]

theorem length_givenBack (m : Memory) : m.givenBack.length = m.buffers.length := List.length_map _

theorem givenBack_eq (m : Memory) : m.givenBack = m.books.titles.map Title.released := by
  simp [givenBack, books, Buffer.title]

theorem givenBack_of_books (h : m'.books = m.books) : m'.givenBack = m.givenBack := by
  rw [givenBack_eq, h, ← givenBack_eq]

theorem givenBack_of_discharge (h : m'.books = m.books.discharge a i) :
    m'.givenBack = m.givenBack := by
  rw [givenBack_eq, h, givenBack_eq]
  rfl

theorem givenBack_of_handOut (h : m'.books = m.books.handOut a) :
    m'.givenBack = m.givenBack ++ [false] := by
  rw [givenBack_eq, h, givenBack_eq]
  exact List.map_append

theorem givenBack_of_takeBack (h : m'.books = m.books.takeBack a b) :
    m'.givenBack = m.givenBack.set b true := by
  rw [givenBack_eq, h, givenBack_eq]
  show (m.books.titles.modify b fun t => { t with released := true }).map Title.released = _
  rw [map_modify (k := fun _ => true) _ fun _ => rfl]
  exact List.modify_eq_set _ b _

end MiniLex.Memory
