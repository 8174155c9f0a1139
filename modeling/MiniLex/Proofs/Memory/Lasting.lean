import MiniLex.Proofs.Memory.Step

/-!
# What lasts in memory

What is known of one buffer and its allocator lasts whatever happens to all
others. For that it has to stay true in a few kinds of changes only
(`Memory.Lasting`): buffers leave the care of an arena when they are given back
(`Arena.Turns`), a recorder remembers a call, buffers and allocators are added,
and buffers change of which nothing is known. Every operation on memory comes to
such changes: `Lasting.acquireContext` and the theorems beside it. Only closing an
arena is a change of another kind, which what is `Memory.Enduring` survives too.
-/

namespace MiniLex

/-- An arena has become another one, which is as open. Only buffers that are given back leave its
care. -/
structure Arena.Turns (x : Arena) (bs : List BufferId) (y : Arena) : Prop where
  live : ∀ b ∈ x.live, b ∈ y.live ∨ b ∈ bs
  closed : y.closed = x.closed

theorem Arena.turns_of_live {x y : Arena} (hlive : ∀ b ∈ x.live, b ∈ y.live)
    (hclosed : y.closed = x.closed) : x.Turns [] y :=
  ⟨fun b hb => .inl (hlive b hb), hclosed⟩

theorem Arena.turns_dropBuffer (x : Arena) (b : BufferId) : x.Turns [b] (x.dropBuffer b) := by
  refine ⟨fun c hc => ?_, rfl⟩
  by_cases hcb : c = b
  · exact .inr (List.mem_singleton.mpr hcb)
  · exact .inl (List.mem_filter.mpr ⟨hc, by simpa using hcb⟩)

namespace Memory

/-- What is true of memory and stays true whatever open arenas and other allocators do, and whatever
is done with buffers that are free. Buffers that are handed out are free. -/
structure Lasting (P : Memory → Prop) (free : BufferId → Prop) : Prop where
  arena : ∀ {m : Memory} {a x bs y}, m.allocator a = .arena x → x.Turns bs y → P m →
    P ((m.setAllocator a (.arena y)).markAll bs)
  note : ∀ {m : Memory} {a r} call, m.allocator a = .recorder r → P m →
    P (m.setAllocator a (.recorder (r.note call)))
  giveBack : ∀ {m : Memory} b, P m → P (m.updateBuffer b Buffer.markReleased)
  addBuffer : ∀ {m : Memory} a capacity, P m → P (m.withBuffer a capacity)
  join : ∀ {m : Memory} z, P m → P { m with allocators := m.allocators ++ [z] }
  update : ∀ {m : Memory} {b} f, free b → P m → P (m.updateBuffer b f)
  next : ∀ {m : Memory}, P m → free m.buffers.length

/-- What is true of memory and also stays true when an arena is closed that has no buffer in its
care. -/
structure Enduring (P : Memory → Prop) (free : BufferId → Prop) : Prop extends Lasting P free where
  close : ∀ {m : Memory} {a x}, m.allocator a = .arena x → x.live = [] → P m →
    P (m.setAllocator a (.arena { x with closed := true }))

namespace Lasting

variable {P : Memory → Prop} {free : BufferId → Prop} {m : Memory} {a : AllocatorId}
  {b : BufferId} {x y : Arena} {r : Recorder}

/-- Buffers become more, so what is true of all greater numbers of them lasts as well. -/
theorem and_length (h : Lasting P free) {Q : Nat → Prop} (hQ : ∀ {n k}, n ≤ k → Q n → Q k) :
    Lasting (fun m => P m ∧ Q m.buffers.length) free where
  arena ha hy hm := ⟨h.arena ha hy hm.1, by rw [length_markAll]; exact hm.2⟩
  note call ha hm := ⟨h.note call ha hm.1, hm.2⟩
  giveBack b hm := ⟨h.giveBack b hm.1, by simpa [updateBuffer] using hm.2⟩
  addBuffer a capacity hm :=
    ⟨h.addBuffer a capacity hm.1, hQ (by simp [withBuffer]) hm.2⟩
  join z hm := ⟨h.join z hm.1, hm.2⟩
  update f hb hm := ⟨h.update f hb hm.1, by simpa [updateBuffer] using hm.2⟩
  next hm := h.next hm.1

variable (h : Lasting P free)

include h

theorem putArena (ha : m.allocator a = .arena x) (hlive : ∀ b ∈ x.live, b ∈ y.live)
    (hclosed : y.closed = x.closed) (hm : P m) : P (m.setAllocator a (.arena y)) :=
  h.arena ha (Arena.turns_of_live hlive hclosed) hm

/-! ## Operations -/

theorem note_bind {α : Type} {act : MemoryM α} {call : Call} (ha : m.allocator a = .recorder r)
    (hact : Leads P P act) (hm : P m) : P (leftBy (Memory.note a r call >>= fun _ => act) m) := by
  rw [leftBy_note_bind]
  split
  · exact h.note call ha hm
  · exact hact _ (h.note call ha hm)

theorem acquireContext (a : AllocatorId) (i : ScanId) : Leads P P (acquireContext a i) := by
  intro m hm
  rw [Memory.acquireContext, leftBy_bind_get]
  cases ha : m.allocator a with
  | heap => exact hm
  | arena x =>
    have hkept : (x.addContext i).live = x.live ∧ (x.addContext i).closed = x.closed := by
      unfold Arena.addContext
      split <;> exact ⟨rfl, rfl⟩
    dsimp only
    rw [leftBy_requireOpen_bind]
    split
    · exact hm
    · exact h.putArena ha (fun b hb => hkept.1 ▸ hb) hkept.2 hm
  | recorder r =>
    dsimp only
    rw [leftBy_note]
    exact h.note _ ha hm

theorem releaseContext (a : AllocatorId) (i : ScanId) : Leads P P (releaseContext a i) := by
  intro m hm
  rw [Memory.releaseContext, leftBy_bind_get]
  cases ha : m.allocator a with
  | heap => exact hm
  | arena x => exact h.putArena ha (fun _ hb => hb) rfl hm
  | recorder r =>
    dsimp only
    rw [leftBy_note]
    exact h.note _ ha hm

theorem newBuffer (a : AllocatorId) (capacity : Int) :
    Leads P P (Memory.addBuffer a capacity) := fun _ hm => h.addBuffer a capacity hm

theorem allocate (a : AllocatorId) (capacity : Int) : Leads P P (allocate a capacity) := by
  intro m hm
  rw [Memory.allocate, leftBy_bind_get]
  cases ha : m.allocator a with
  | heap => exact h.newBuffer a capacity m hm
  | arena x =>
    dsimp only
    rw [leftBy_requireOpen_bind]
    split
    · exact hm
    · exact h.newBuffer a capacity _
        (h.putArena ha (fun b hb => List.mem_append_left _ hb) rfl hm)
  | recorder r => exact h.note_bind ha (h.newBuffer a capacity) hm

theorem grow (a : AllocatorId) (b : BufferId) (needed : Int) : Leads P P (grow a b needed) := by
  intro m hm
  rw [Memory.grow, leftBy_bind_get]
  cases ha : m.allocator a with
  | heap => exact hm
  | arena x =>
    dsimp only
    rw [leftBy_requireOpen_bind]
    split
    · exact hm
    split
    · exact hm
    · exact h.putArena ha (fun _ hb => hb) rfl hm
  | recorder r => exact h.note_bind ha (leads_pure _) hm

theorem clone (a : AllocatorId) (text : Text) : Leads P P (clone a text) := by
  intro m hm
  rw [Memory.clone, leftBy_bind_get]
  cases ha : m.allocator a with
  | heap => exact hm
  | arena x =>
    dsimp only
    rw [leftBy_requireOpen_bind]
    split
    · exact hm
    · exact h.putArena ha (fun _ hb => hb) rfl hm
  | recorder r => exact h.note_bind ha (leads_pure _) hm

theorem markReleased (b : BufferId) : Leads P P (modifyBuffer b Buffer.markReleased) :=
  fun _ hm => h.giveBack b hm

theorem release (a : AllocatorId) (b : BufferId) : Leads P P (release a b) := by
  intro m hm
  rw [Memory.release, leftBy_bind_get]
  cases ha : m.allocator a with
  | heap => exact h.markReleased b m hm
  | arena x => exact h.arena ha (x.turns_dropBuffer b) hm
  | recorder r => exact h.note_bind ha (h.markReleased b) hm

theorem addAllocator (z : Allocator) : Leads P P (addAllocator z) := fun _ hm => h.join z hm

/-- Only free buffers are changed by hand. -/
theorem modifyBuffer (hb : free b) (f : Buffer → Buffer) : Leads P P (modifyBuffer b f) :=
  fun _ hm => h.update f hb hm

theorem append (hb : free b) (text : Text) : Leads P P (append b text) := by
  refine leads_get.seq fun m => ?_
  dsimp only
  split
  · exact leads_throw _
  split
  · exact leads_pure _
  split
  · refine (h.grow _ b _).seq fun capacity => ?_
    exact (h.modifyBuffer hb _).seq fun _ => h.modifyBuffer hb _
  · exact h.modifyBuffer hb _

end Lasting

end Memory

end MiniLex
