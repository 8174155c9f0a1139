import MiniLex.Proofs.Memory.Service

/-!
# Who answers for what

Of a memory, its `books` say which contexts and buffers each arena has in its
care, and for each buffer who owns it and whether it has been given back. Four
operations change them, all others leave them as they are, and so does every
operation that fails:

* `allocate_cases`, `release_cases`: a buffer is handed out or given back;
* `acquireContext_cases`, `books_releaseContext`: a context is put in care or
  let go;
* `books_clone`, `books_grow`, `books_append`: nothing changes.
-/

namespace MiniLex

/-- What is seen of a list in which one element changes. -/
theorem map_modify {α β : Type} {f : α → β} {g : α → α} {k : β → β} (xs : List α)
    (hg : ∀ x, f (g x) = k (f x)) (i : Nat) :
    (xs.modify i g).map f = (xs.map f).modify i k := by
  refine List.ext_getElem? fun j => ?_
  simp only [List.getElem?_map, List.getElem?_modify]
  cases xs[j]? with
  | none => rfl
  | some x => by_cases hj : i = j <;> simp [hj, hg]

/-- What an arena has in its care. -/
structure Care where
  closed : Bool
  contexts : List ScanId
  live : List BufferId
  deriving DecidableEq

/-- What an allocator has in its care. Only arenas have anything in theirs. -/
def Allocator.care : Allocator → Option Care
  | .arena x => some ⟨x.closed, x.contexts, x.live⟩
  | .heap | .recorder _ => none

/-- Whose a buffer is, and whether it has been given back. -/
structure Title where
  owner : AllocatorId
  released : Bool
  deriving DecidableEq

/-- The title of a buffer. -/
def Buffer.title (x : Buffer) : Title := ⟨x.owner, x.released⟩

theorem Buffer.markReleased_markReleased (x : Buffer) :
    x.markReleased.markReleased = x.markReleased := rfl

/-- What each allocator has in its care, and the titles of all buffers. -/
structure Books where
  cares : List (Option Care)
  titles : List Title

namespace Books

variable {v : Books} {a a' : AllocatorId} {f : Care → Care} {c : Care}

/-- A new allocator. -/
def join (v : Books) (c : Option Care) : Books := { v with cares := v.cares ++ [c] }

/-- If the allocator is an arena, what it has in its care changes. -/
def alter (v : Books) (a : AllocatorId) (f : Care → Care) : Books :=
  { v with cares := v.cares.modify a (Option.map f) }

/-- A new buffer of an allocator. -/
def addTitle (v : Books) (a : AllocatorId) : Books := { v with titles := v.titles ++ [⟨a, false⟩] }

/-- A buffer is given back. -/
def markReleased (v : Books) (b : BufferId) : Books :=
  { v with titles := v.titles.modify b fun x => { x with released := true } }

/-- An allocator hands a new buffer out. -/
def handOut (v : Books) (a : AllocatorId) : Books :=
  (v.alter a fun c => { c with live := c.live ++ [v.titles.length] }).addTitle a

/-- An allocator takes a buffer back. -/
def takeBack (v : Books) (a : AllocatorId) (b : BufferId) : Books :=
  (v.alter a fun c => { c with live := c.live.filter (· ≠ b) }).markReleased b

/-- A context is put in an allocator's care. -/
def enroll (v : Books) (a : AllocatorId) (i : ScanId) : Books :=
  v.alter a fun c => if i ∈ c.contexts then c else { c with contexts := c.contexts ++ [i] }

/-- An allocator lets a context go. -/
def discharge (v : Books) (a : AllocatorId) (i : ScanId) : Books :=
  v.alter a fun c => { c with contexts := c.contexts.filter (· ≠ i) }

/-- The care of an allocator, if it is an arena. -/
def care? (v : Books) (a : AllocatorId) : Option Care := v.cares[a]?.join

/-- An allocator is not a closed arena. -/
def Open (v : Books) (a : AllocatorId) : Prop := ∀ c, v.care? a = some c → c.closed = false

theorem care?_alter_self : (v.alter a f).care? a = (v.care? a).map f := by
  simp only [care?, alter, List.getElem?_modify_eq]
  cases v.cares[a]? with
  | none => rfl
  | some c => cases c <;> rfl

theorem care?_alter_of_ne (h : a ≠ a') : (v.alter a f).care? a' = v.care? a' := by
  simp [care?, alter, List.getElem?_modify_ne, h]

/-- Nothing changes for an allocator that is not an arena. -/
theorem alter_of_care?_eq_none (h : v.care? a = none) : v.alter a f = v := by
  have hcares : v.cares.modify a (Option.map f) = v.cares := by
    refine List.ext_getElem? fun i => ?_
    rw [List.getElem?_modify]
    by_cases hi : a = i
    · subst hi
      unfold care? at h
      cases hc : v.cares[a]? with
      | none => rfl
      | some c =>
        rw [hc] at h
        obtain rfl : c = none := h
        simp
    · simp [hi]
  rw [alter, hcares]

end Books

namespace Memory

variable {m : Memory} {a : AllocatorId} {x : Arena} {r : Recorder} {call : Call} {f : Care → Care}

/-- The books of a memory. -/
def books (m : Memory) : Books := ⟨m.allocators.map Allocator.care, m.buffers.map Buffer.title⟩

/-- The title of a buffer stands in the books. -/
theorem title_buffer (m : Memory) (b : BufferId) :
    (m.buffer b).title = m.books.titles.getD b (default : Buffer).title := by
  simp only [buffer, books, List.getD_eq_getElem?_getD, List.getElem?_map]
  cases m.buffers[b]? <;> rfl

theorem title_of_books {m' : Memory} (h : m'.books = m.books) (b : BufferId) :
    (m'.buffer b).title = (m.buffer b).title := by
  rw [title_buffer, title_buffer, h]

theorem length_titles (m : Memory) : m.books.titles.length = m.buffers.length := by simp [books]

theorem care?_books (m : Memory) (a : AllocatorId) : m.books.care? a = (m.allocator a).care := by
  simp only [Books.care?, books, allocator, List.getElem?_map, List.getD_eq_getElem?_getD]
  cases m.allocators[a]? <;> rfl

/-- What an allocator has in its care changes with the allocator. -/
theorem books_setAllocator {z : Allocator} (h : z.care = (m.allocator a).care.map f) :
    (m.setAllocator a z).books = m.books.alter a f := by
  have hcares : (m.allocators.set a z).map Allocator.care =
      (m.allocators.map Allocator.care).modify a (Option.map f) := by
    refine List.ext_getElem? fun i => ?_
    simp only [List.getElem?_map, List.getElem?_modify, List.getElem?_set']
    by_cases hi : a = i
    · subst hi
      simp only [allocator, List.getD_eq_getElem?_getD] at h
      cases hz : m.allocators[a]? with
      | none => simp
      | some z' =>
        rw [hz] at h
        simpa using h
    · simp [hi]
  rw [books, Books.alter, setAllocator, hcares, books]

/-- As long as what an allocator has in its care stays the same, so do the books. -/
theorem books_setAllocator_same {z : Allocator} (h : z.care = (m.allocator a).care) :
    (m.setAllocator a z).books = m.books := by
  rw [books_setAllocator (f := fun c => c) (by rw [h, Option.map_id'])]
  simp [Books.alter, Option.map_id_fun']

theorem books_updateBuffer (m : Memory) (b : BufferId) {g : Buffer → Buffer} {k : Title → Title}
    (hg : ∀ x, (g x).title = k x.title) :
    (m.updateBuffer b g).books = { m.books with titles := m.books.titles.modify b k } := by
  rw [books, updateBuffer, map_modify _ hg, books]

theorem books_markReleased (m : Memory) (b : BufferId) :
    (m.updateBuffer b Buffer.markReleased).books = m.books.markReleased b :=
  books_updateBuffer m b fun _ => rfl

theorem books_addBuffer (m : Memory) (a : AllocatorId) (capacity : Int) :
    ({ m with buffers := m.buffers ++ [Buffer.fresh a capacity] } : Memory).books =
      m.books.addTitle a := by
  simp [books, Books.addTitle, Buffer.title, Buffer.fresh]

/-! ## Operations that leave the books -/

theorem requireOpen_closed (hx : x.closed = true) :
    requireOpen x m = .error (.closedArena x.name) m := by
  simp only [requireOpen, hx]
  rfl

theorem leftBy_requireOpen_bind {α : Type} (x : Arena) (act : MemoryM α) (m : Memory) :
    leftBy (requireOpen x >>= fun _ => act) m = if x.closed then m else leftBy act m := by
  cases hx : x.closed with
  | true => exact leftBy_bind_error (requireOpen_closed hx)
  | false => exact leftBy_bind_ok (requireOpen_run hx)

theorem leftBy_note (m : Memory) (a : AllocatorId) (r : Recorder) (call : Call) :
    leftBy (note a r call) m = m.setAllocator a (.recorder (r.note call)) := by
  unfold note
  cases hr : r.refuses r.calls call <;> rfl

theorem leftBy_note_bind {α : Type} (a : AllocatorId) (r : Recorder) (call : Call)
    (act : MemoryM α) (m : Memory) :
    leftBy (note a r call >>= fun _ => act) m =
      if r.refuses r.calls call then m.setAllocator a (.recorder (r.note call))
      else leftBy act (m.setAllocator a (.recorder (r.note call))) := by
  unfold note
  cases hr : r.refuses r.calls call <;> rfl

theorem books_note (ha : m.allocator a = .recorder r) (call : Call) :
    (m.setAllocator a (.recorder (r.note call))).books = m.books :=
  books_setAllocator_same (by rw [ha]; rfl)

theorem books_modifyBuffer (b : BufferId) {g : Buffer → Buffer} (hg : ∀ x, (g x).title = x.title) :
    Keeps books (modifyBuffer b g) := by
  refine keeps_modify fun m => ?_
  rw [books_updateBuffer m b (k := id) hg, List.modify_id]

theorem books_clone (a : AllocatorId) (text : Text) : Keeps books (clone a text) := by
  intro m
  rw [clone, leftBy_bind_get]
  cases ha : m.allocator a with
  | heap => rfl
  | arena x =>
    simp only [leftBy_requireOpen_bind]
    split
    · rfl
    · exact (books_setAllocator_same (by rw [ha]; rfl)).symm
  | recorder r =>
    simp only [leftBy_note_bind]
    split <;> exact (books_note ha _).symm

theorem books_grow (a : AllocatorId) (b : BufferId) (needed : Int) :
    Keeps books (grow a b needed) := by
  intro m
  rw [grow, leftBy_bind_get]
  cases ha : m.allocator a with
  | heap => rfl
  | arena x =>
    simp only [leftBy_requireOpen_bind]
    split
    · rfl
    split
    · rfl
    · exact (books_setAllocator_same (by rw [ha]; rfl)).symm
  | recorder r =>
    simp only [leftBy_note_bind]
    split <;> exact (books_note ha _).symm

theorem books_append (b : BufferId) (text : Text) : Keeps books (append b text) := by
  refine keeps_get.bind fun m => ?_
  have hadd := books_modifyBuffer b (g := fun x => x.extend text) fun _ => rfl
  dsimp only
  split
  · exact keeps_throw _
  split
  · exact keeps_pure _
  split
  · refine (books_grow _ b _).bind fun capacity => ?_
    exact (books_modifyBuffer b (g := fun x => { x with capacity := capacity }) fun _ => rfl).bind
      fun _ => hadd
  · exact hadd

/-! ## Operations that change the books -/

theorem care_eq_none_of_recorder (ha : m.allocator a = .recorder r) :
    (m.allocator a).care = none := by rw [ha]; rfl

theorem open_of_care_eq_none (h : (m.allocator a).care = none) : m.books.Open a := by
  intro c hc
  rw [care?_books, h] at hc
  cases hc

theorem serves_of_care {c : Care} (h : (m.allocator a).care = some c) (hc : c.closed = false) :
    m.Serves a := by
  cases ha : m.allocator a with
  | arena x =>
    rw [ha] at h
    cases h
    rwa [Serves, ha]
  | heap | recorder r =>
    rw [ha] at h
    cases h

theorem open_of_arena (ha : m.allocator a = .arena x) (hx : x.closed = false) :
    m.books.Open a := by
  intro c hc
  rw [care?_books, ha] at hc
  cases hc
  exact hx

theorem alter_of_care_eq_none (h : (m.allocator a).care = none) (f : Care → Care) :
    m.books.alter a f = m.books :=
  Books.alter_of_care?_eq_none ((care?_books m a).trans h)

theorem note_run (hr : r.refuses r.calls call = false) :
    note a r call m = .ok () (m.setAllocator a (.recorder (r.note call))) := by
  simp only [note, run_bind_modify, hr]
  rfl

theorem note_refused (hr : r.refuses r.calls call = true) :
    note a r call m =
      .error (.refused call.method) (m.setAllocator a (.recorder (r.note call))) := by
  simp only [note, run_bind_modify, hr]
  rfl

/-- A buffer is handed out, which is a new one, or the allocator refuses. A closed arena does. -/
theorem allocate_cases (a : AllocatorId) (capacity : Int) (m : Memory) :
    (∃ m', allocate a capacity m = .ok m.buffers.length m' ∧ m.books.Open a ∧
      m'.books = m.books.handOut a) ∨
    ∃ fault m', allocate a capacity m = .error fault m' ∧ m'.books = m.books := by
  rw [allocate, run_bind_get, Books.handOut]
  cases ha : m.allocator a with
  | heap =>
    have hcare : (m.allocator a).care = none := by rw [ha]; rfl
    refine .inl ⟨_, rfl, open_of_care_eq_none hcare, ?_⟩
    rw [books_addBuffer, alter_of_care_eq_none hcare]
  | arena x =>
    cases hx : x.closed with
    | true => exact .inr ⟨_, _, run_bind_error (requireOpen_closed hx), rfl⟩
    | false =>
      refine .inl ⟨_, run_bind_ok (requireOpen_run hx), open_of_arena ha hx, ?_⟩
      rw [books_addBuffer, books_setAllocator]
      rw [ha, length_titles]
      rfl
  | recorder r =>
    have hcare := care_eq_none_of_recorder ha
    cases hr : r.refuses r.calls (.allocate capacity m.buffers.length) with
    | true => exact .inr ⟨_, _, run_bind_error (note_refused hr), books_note ha _⟩
    | false =>
      refine .inl ⟨_, (run_bind_ok (note_run hr)).trans rfl, open_of_care_eq_none hcare, ?_⟩
      rw [alter_of_care_eq_none hcare, ← books_note ha (.allocate capacity m.buffers.length)]
      exact books_addBuffer _ a capacity

theorem books_allocate_ok {capacity : Int} {b : BufferId} {m' : Memory}
    (h : allocate a capacity m = .ok b m') :
    b = m.buffers.length ∧ m.books.Open a ∧ m'.books = m.books.handOut a := by
  rcases allocate_cases a capacity m with ⟨m₁, hr, hopen, hbooks⟩ | ⟨fault, m₁, hr, -⟩
  · rw [hr] at h
    cases h
    exact ⟨rfl, hopen, hbooks⟩
  · rw [hr] at h
    cases h

theorem title_of_allocate {capacity : Int} {b : BufferId} {m' : Memory}
    (h : allocate a capacity m = .ok b m') : (m'.buffer b).title = ⟨a, false⟩ := by
  obtain ⟨rfl, -, hbooks⟩ := books_allocate_ok h
  have htitles : m'.books.titles = m.books.titles ++ [⟨a, false⟩] := by rw [hbooks]; rfl
  rw [title_buffer, htitles, ← length_titles, List.getD_eq_getElem?_getD,
    List.getElem?_concat_length]
  rfl

/-- A buffer is given back, unless a recorder refuses it. -/
theorem release_cases (a : AllocatorId) (b : BufferId) (m : Memory) :
    (∃ m', release a b m = .ok () m' ∧ m'.books = m.books.takeBack a b) ∨
    ∃ fault m', release a b m = .error fault m' ∧ m'.books = m.books := by
  rw [release, run_bind_get, Books.takeBack]
  cases ha : m.allocator a with
  | heap =>
    have hcare : (m.allocator a).care = none := by rw [ha]; rfl
    refine .inl ⟨_, rfl, ?_⟩
    rw [alter_of_care_eq_none hcare]
    exact books_markReleased m b
  | arena x =>
    refine .inl ⟨_, rfl, ?_⟩
    rw [← books_setAllocator]
    · exact books_markReleased _ b
    · rw [ha]
      rfl
  | recorder r =>
    cases hr : r.refuses r.calls (.release b) with
    | true => exact .inr ⟨_, _, run_bind_error (note_refused hr), books_note ha _⟩
    | false =>
      refine .inl ⟨_, run_bind_ok (note_run hr), ?_⟩
      rw [alter_of_care_eq_none (care_eq_none_of_recorder ha), ← books_note ha (.release b)]
      exact books_markReleased _ b

/-- A context is put in care, or the allocator refuses. A closed arena does. -/
theorem acquireContext_cases (a : AllocatorId) (i : ScanId) (m : Memory) :
    (∃ m', acquireContext a i m = .ok () m' ∧ m.books.Open a ∧ m'.books = m.books.enroll a i) ∨
    ∃ fault m', acquireContext a i m = .error fault m' ∧ m'.books = m.books := by
  rw [acquireContext, run_bind_get, Books.enroll]
  cases ha : m.allocator a with
  | heap =>
    have hcare : (m.allocator a).care = none := by rw [ha]; rfl
    exact .inl ⟨_, rfl, open_of_care_eq_none hcare, (alter_of_care_eq_none hcare _).symm⟩
  | arena x =>
    cases hx : x.closed with
    | true => exact .inr ⟨_, _, run_bind_error (requireOpen_closed hx), rfl⟩
    | false =>
      refine .inl ⟨_, run_bind_ok (requireOpen_run hx), open_of_arena ha hx, ?_⟩
      refine books_setAllocator ?_
      rw [ha]
      unfold Arena.addContext Allocator.care
      by_cases hi : i ∈ x.contexts <;> simp [hi]
  | recorder r =>
    have hcare := care_eq_none_of_recorder ha
    cases hr : r.refuses r.calls (.acquireContext i) with
    | true => exact .inr ⟨_, _, note_refused hr, books_note ha _⟩
    | false =>
      refine .inl ⟨_, note_run hr, open_of_care_eq_none hcare, ?_⟩
      rw [alter_of_care_eq_none hcare, books_note ha]

/-- A context is let go of, by a closed arena too. A recorder that refuses this has no context in
its care. -/
theorem books_releaseContext (a : AllocatorId) (i : ScanId) (m : Memory) :
    (leftBy (releaseContext a i) m).books = m.books.discharge a i := by
  rw [releaseContext, leftBy_bind_get, Books.discharge]
  cases ha : m.allocator a with
  | heap =>
    have hcare : (m.allocator a).care = none := by rw [ha]; rfl
    exact (alter_of_care_eq_none hcare _).symm
  | arena x =>
    refine books_setAllocator ?_
    rw [ha]
    rfl
  | recorder r =>
    have hcare := care_eq_none_of_recorder ha
    rw [alter_of_care_eq_none hcare]
    dsimp only
    rw [leftBy_note, books_note ha]

/-! ## Buffers given up at once -/

/-- Buffers are given back, one after the other. -/
def markAll (m : Memory) (bs : List BufferId) : Memory :=
  bs.foldl (fun m b => m.updateBuffer b Buffer.markReleased) m

theorem markAll_run (bs : List BufferId) (m : Memory) :
    (bs.forM fun b => modifyBuffer b Buffer.markReleased) m = .ok () (m.markAll bs) := by
  induction bs generalizing m with
  | nil => rfl
  | cons b bs ih => exact ih (m.updateBuffer b Buffer.markReleased)

theorem length_markAll (m : Memory) (bs : List BufferId) :
    (m.markAll bs).buffers.length = m.buffers.length := by
  induction bs generalizing m with
  | nil => rfl
  | cons b bs ih => exact (ih _).trans (List.length_modify ..)

theorem allocators_markAll (m : Memory) (bs : List BufferId) :
    (m.markAll bs).allocators = m.allocators := by
  induction bs generalizing m with
  | nil => rfl
  | cons b bs ih => exact ih _

theorem buffers_markAll (m : Memory) (bs : List BufferId) (b : BufferId) :
    (m.markAll bs).buffers[b]? =
      m.buffers[b]?.map fun y => if b ∈ bs then y.markReleased else y := by
  induction bs generalizing m with
  | nil => simp [markAll]
  | cons c bs ih =>
    have hrest := ih (m.updateBuffer c Buffer.markReleased)
    rw [markAll, List.foldl_cons, ← markAll, hrest, updateBuffer, List.getElem?_modify]
    cases m.buffers[b]? with
    | none => rfl
    | some y =>
      by_cases hc : c = b
      · subst hc
        simp [Buffer.markReleased_markReleased]
      · simp [hc, Ne.symm hc]

theorem releaseLive_run (a : AllocatorId) (x : Arena) (m : Memory) :
    releaseLive a x m =
      .ok x.live.length ((m.setAllocator a (.arena { x with live := [] })).markAll x.live) := by
  unfold releaseLive putArena
  rw [run_bind_modify, run_bind_ok (markAll_run x.live _)]
  rfl

end Memory

end MiniLex
