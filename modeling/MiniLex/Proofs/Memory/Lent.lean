import MiniLex.Proofs.Memory.Filling
import MiniLex.Proofs.Memory.Lasting
import MiniLex.Proofs.Memory.Usage

/-!
# Buffers that are lent out

The heap and arenas lend buffers out (`Memory.Lent`). Until such a buffer is
given back, its arena is open and knows it, whatever happens to other buffers
(`enduring_lent`). So it takes every text: `Lent.append`.
-/

namespace MiniLex

namespace Memory

variable {a : AllocatorId} {b : BufferId} {y : Buffer} {m : Memory}

/-- A buffer was lent out by the heap or an arena. It is as it was or has been given back, and until
then the arena is open and has it in its care. -/
structure Lent (a : AllocatorId) (b : BufferId) (y : Buffer) (m : Memory) : Prop where
  known : a < m.allocators.length
  kind : ∀ r, m.allocator a ≠ .recorder r
  valid : b < m.buffers.length
  owner : y.owner = a
  content : m.buffer b = y ∨ m.buffer b = y.markReleased
  live : (m.buffer b).released = false → ∀ x, m.allocator a = .arena x →
    x.closed = false ∧ b ∈ x.live

theorem buffer_markAll (m : Memory) (bs : List BufferId) (b : BufferId) :
    (m.markAll bs).buffer b = if b ∈ bs ∧ b < m.buffers.length then (m.buffer b).markReleased
      else m.buffer b := by
  rw [buffer, List.getD_eq_getElem?_getD, buffers_markAll, buffer, List.getD_eq_getElem?_getD]
  by_cases hb : b < m.buffers.length <;> by_cases hbs : b ∈ bs <;> simp [hb, hbs]

namespace Lent

theorem rebase (h : Lent a b y m) : Lent a b (m.buffer b) m where
  known := h.known
  kind := h.kind
  valid := h.valid
  owner := by rcases h.content with hb | hb <;> rw [hb] <;> exact h.owner
  content := .inl rfl
  live := h.live

theorem markReleased_buffer (h : Lent a b y m) : (m.buffer b).markReleased = y.markReleased := by
  rcases h.content with hy | hy <;> rw [hy]
  exact y.markReleased_markReleased

theorem of_buffers {m' : Memory} (h : Lent a b y m) (hbuffers : m'.buffers = m.buffers)
    (hknown : a < m'.allocators.length) (hkind : ∀ r, m'.allocator a ≠ .recorder r)
    (hlive : (m.buffer b).released = false → ∀ x, m'.allocator a = .arena x →
      x.closed = false ∧ b ∈ x.live) : Lent a b y m' := by
  have hbuffer : m'.buffer b = m.buffer b := by rw [buffer, hbuffers]; rfl
  exact ⟨hknown, hkind, hbuffers ▸ h.valid, h.owner, hbuffer ▸ h.content, hbuffer ▸ hlive⟩

theorem of_allocators {m' : Memory} (h : Lent a b y m) (hallocators : m'.allocators = m.allocators)
    (hvalid : b < m'.buffers.length)
    (hbuffer : m'.buffer b = m.buffer b ∨ m'.buffer b = (m.buffer b).markReleased) :
    Lent a b y m' := by
  have hsame : m'.allocator a = m.allocator a := by rw [allocator, hallocators]; rfl
  refine ⟨hallocators ▸ h.known, fun r => hsame ▸ h.kind r, hvalid, h.owner, ?_, fun hr x hx => ?_⟩
  · rcases hbuffer with hb | hb <;> rw [hb]
    · exact h.content
    · exact .inr (h.markReleased_buffer)
  · rcases hbuffer with hb | hb <;> rw [hb] at hr
    · exact h.live hr x (hsame ▸ hx)
    · cases hr

/-- The buffer is changed, but not given back. -/
theorem update {f : Buffer → Buffer} (h : Lent a b y m) (howner : ∀ z, (f z).owner = z.owner)
    (hreleased : ∀ z, (f z).released = z.released) :
    Lent a b (f (m.buffer b)) (m.updateBuffer b f) := by
  have hself := buffer_updateBuffer_self f h.valid
  refine ⟨h.known, h.kind, by simpa [updateBuffer] using h.valid, ?_, .inl hself, fun hr => ?_⟩
  · rw [howner]
    exact h.rebase.owner
  · rw [hself, hreleased] at hr
    exact h.live hr

/-- An arena changes, and then buffers are marked given back that have left its care. -/
theorem setArena {a' : AllocatorId} {x z : Arena} (bs : List BufferId) (h : Lent a b y m)
    (ha : m.allocator a' = .arena x) (hlive : ∀ c ∈ x.live, c ∈ z.live ∨ c ∈ bs)
    (hclosed : z.closed = x.closed ∨ x.live = []) :
    Lent a b y ((m.setAllocator a' (.arena z)).markAll bs) := by
  have hmarked := buffer_markAll (m.setAllocator a' (.arena z)) bs b
  have hbuffer : (m.setAllocator a' (.arena z)).buffer b = m.buffer b := rfl
  have hallocator : ((m.setAllocator a' (.arena z)).markAll bs).allocator a =
      (m.setAllocator a' (.arena z)).allocator a := by rw [allocator, allocators_markAll]; rfl
  rw [hbuffer] at hmarked
  refine ⟨?_, fun r => ?_, ?_, h.owner, ?_, fun hr w hw => ?_⟩
  · rw [allocators_markAll]
    simpa [setAllocator] using h.known
  · rw [hallocator]
    by_cases haa : a' = a
    · subst haa
      simp [allocator_replaced, ha]
    · rw [allocator_setAllocator_of_ne m _ haa]
      exact h.kind r
  · rw [length_markAll]
    exact h.valid
  · rw [hmarked]
    split
    · exact .inr h.markReleased_buffer
    · exact h.content
  · rw [hallocator] at hw
    rw [hmarked] at hr
    split at hr
    · cases hr
    rename_i hnot
    by_cases haa : a' = a
    · subst haa
      rw [allocator_replaced (by simp [ha]), Allocator.arena.injEq] at hw
      subst hw
      obtain ⟨hopen, hmem⟩ := h.live hr x ha
      refine ⟨?_, (hlive b hmem).resolve_right fun hb => hnot ⟨hb, h.valid⟩⟩
      exact (hclosed.resolve_right (List.ne_nil_of_mem hmem)).trans hopen
    · rw [allocator_setAllocator_of_ne m _ haa] at hw
      exact h.live hr w hw

end Lent

/-- A buffer stays lent out whatever happens to other buffers. -/
theorem enduring_lent (a : AllocatorId) (b : BufferId) (y : Buffer) :
    Enduring (Lent a b y) (· ≠ b) where
  arena {m a' x bs z} ha hz h := h.setArena bs ha hz.live (.inl hz.closed)
  close {m a' x} ha hx h :=
    h.setArena (z := { x with closed := true }) [] ha (fun _ hc => .inl hc) (.inr hx)
  note {m a' r} call ha h := by
    have hne : a' ≠ a := fun haa => h.kind r (haa ▸ ha)
    refine h.of_buffers rfl (by simpa [setAllocator] using h.known) (fun r' => ?_) fun hr x hx => ?_
    · rw [allocator_setAllocator_of_ne m _ hne]
      exact h.kind r'
    · rw [allocator_setAllocator_of_ne m _ hne] at hx
      exact h.live hr x hx
  giveBack {m} b' h := by
    refine h.of_allocators rfl (by simpa [updateBuffer] using h.valid) ?_
    by_cases hb : b' = b
    · subst hb
      exact .inr (buffer_updateBuffer_self _ h.valid)
    · exact .inl (buffer_updateBuffer_of_ne m _ hb)
  addBuffer {m} a' capacity h := by
    refine h.of_allocators rfl (Nat.lt_of_lt_of_le h.valid (by simp [withBuffer])) (.inl ?_)
    simp [buffer, withBuffer, List.getElem?_append_left h.valid]
  join {m} z h := by
    have hsame := (allocator_join m z a).resolve_right fun hnew => Nat.ne_of_lt h.known hnew.1
    refine h.of_buffers rfl (Nat.lt_of_lt_of_le h.known (by simp)) (fun r => ?_) fun hr x hx => ?_
    · rw [hsame]
      exact h.kind r
    · exact h.live hr x (hsame ▸ hx)
  update {m b'} f hb h :=
    h.of_allocators rfl (by simpa [updateBuffer] using h.valid)
      (.inl (buffer_updateBuffer_of_ne m f hb))
  next h := Nat.ne_of_gt h.valid

/-- A text that is refused, by whatever allocator, changes no buffer. -/
theorem buffers_of_append_error {m' : Memory} {u : Text} {fault : AllocationFault}
    (hr : Memory.append b u m = .error fault m') : m'.buffers = m.buffers := by
  rw [Memory.append, run_bind_get] at hr
  dsimp only at hr
  split at hr
  · cases hr
    rfl
  split at hr
  · cases hr
  split at hr
  · rcases of_bind_error hr with hr | ⟨capacity, m₁, -, hr⟩
    · rcases grow_cases (m.buffer b).owner b ((m.buffer b).length + u.length : Nat) m with
        ⟨m₁, hrun, -⟩ | ⟨fault', m₁, hrun, hm₁⟩
      · cases hrun.symm.trans hr
      · cases hrun.symm.trans hr
        rcases hm₁ with rfl | ⟨r, -, rfl⟩ <;> rfl
    · cases hr
  · cases hr

/-- The heap and arenas lend out the buffers that they allocate. -/
theorem lent_of_allocate {m' : Memory} {capacity : Int} (ha : a < m.allocators.length)
    (hkind : ∀ r, m.allocator a ≠ .recorder r) (hr : allocate a capacity m = .ok b m') :
    Lent a b (.fresh a capacity) m' ∧ m'.buffer b = .fresh a capacity := by
  have hnew : ∀ m₁ : Memory, (m₁.withBuffer a capacity).buffer m₁.buffers.length =
      .fresh a capacity := fun m₁ => by simp [buffer, withBuffer]
  rw [allocate, run_bind_get] at hr
  cases hz : m.allocator a with
  | heap =>
    rw [hz] at hr
    cases hr
    refine ⟨⟨ha, hkind, by simp, rfl, .inl (hnew m), fun _ x hx => ?_⟩, hnew m⟩
    have hheap : (m.withBuffer a capacity).allocator a = m.allocator a := rfl
    exact absurd (hheap.symm.trans hx) (by simp [hz])
  | arena x =>
    rw [hz] at hr
    obtain ⟨_, m₁, hopen, hr⟩ := of_bind_ok hr
    obtain rfl := requireOpen_ok hopen
    cases hr
    have hx : x.closed = false := by
      cases hclosed : x.closed with
      | false => rfl
      | true =>
        rw [requireOpen_closed hclosed] at hopen
        cases hopen
    have hself := allocator_replaced (by simp [hz])
      (.arena (x.addBuffer m₁.buffers.length capacity)) (m := m₁) (a := a)
    refine ⟨⟨by simpa [setAllocator] using ha, fun r hr => ?_, by simp, rfl, .inl (hnew _),
      fun _ y hy => ?_⟩, hnew _⟩
    · cases hself.symm.trans hr
    · obtain rfl := Allocator.arena.inj (hself.symm.trans hy)
      exact ⟨hx, List.mem_append_right _ (List.mem_singleton_self _)⟩
  | recorder r => exact absurd hz (hkind r)

namespace Lent

/-- A buffer that is lent out takes more text. -/
theorem collects (h : Lent a b y m) (hr : (m.buffer b).released = false) : m.Collects a b where
  serves := by
    unfold Serves
    cases ha : m.allocator a with
    | heap => trivial
    | arena x => exact (h.live hr x ha).1
    | recorder r => exact absurd ha (h.kind r)
  valid := h.valid
  owner := h.rebase.owner
  unreleased := hr
  live x hx := (h.live hr x hx).2

/-- The buffer is taken back. -/
theorem release (h : Lent a b y m) :
    ∃ m', Memory.release a b m = .ok () m' ∧ (m'.buffer b).released = true := by
  have hmarked : ∀ m₁ : Memory, b < m₁.buffers.length →
      ((m₁.updateBuffer b Buffer.markReleased).buffer b).released = true := fun m₁ hb => by
    rw [buffer_updateBuffer_self _ hb]
    rfl
  rw [Memory.release, run_bind_get]
  cases ha : m.allocator a with
  | heap => exact ⟨_, rfl, hmarked m h.valid⟩
  | arena x => exact ⟨_, rfl, hmarked _ h.valid⟩
  | recorder r => exact absurd ha (h.kind r)

/-- Clearing the buffer leaves its capacity. -/
theorem clear (h : Lent a b y m) :
    Lent a b ((m.buffer b).refill []) (m.updateBuffer b Buffer.clear) :=
  h.update (f := Buffer.clear) (fun _ => rfl) fun _ => rfl

/-- The buffer is to grow. It does so only afterwards. -/
theorem grow (h : Lent a b y m) (hr : (m.buffer b).released = false) (needed : Int) :
    ∃ m', Memory.grow (m.buffer b).owner b needed m =
        .ok (grownCapacity (m.buffer b).capacity needed) m' ∧
      m'.buffers = m.buffers ∧ Lent a b y m' := by
  obtain ⟨capacity, m', hrun, -⟩ := (h.collects hr).grow needed
  have hlent := (enduring_lent a b y).grow a b needed m h
  rw [leftBy_of_ok hrun] at hlent
  rw [h.rebase.owner, ← (grow_counts hrun).1]
  exact ⟨m', hrun, grow_ok hrun, hlent⟩

/-- Appending has the buffer grow if need be, and is not refused. -/
theorem append (h : Lent a b y m) (hy : (m.buffer b).Covers)
    (hr : (m.buffer b).released = false) (u : Text) :
    ∃ m', Memory.append b u m = .ok () m' ∧ m'.buffers.length = m.buffers.length ∧
      m'.buffer b = (m.buffer b).refill ((m.buffer b).text ++ u) ∧
      Lent a b ((m.buffer b).refill ((m.buffer b).text ++ u)) m' := by
  rw [Memory.append, run_bind_get, if_neg (by simp [hr])]
  by_cases hu : u = []
  · rw [hu, List.append_nil, Buffer.refill_self hy]
    exact ⟨m, rfl, rfl, rfl, h.rebase⟩
  have hlength : ((m.buffer b).text ++ u).length ≠ 0 := by simp [hu]
  have hroom : roomFor (m.buffer b).capacity ((m.buffer b).text ++ u).length =
      capacityFor (m.buffer b).capacity ((m.buffer b).length + u.length : Nat) := by
    rw [roomFor, if_neg hlength, List.length_append, Buffer.length_eq]
  rw [if_neg hu]
  dsimp only
  split
  · rename_i hlt
    rw [capacityFor, if_pos hlt] at hroom
    obtain ⟨m', hgrow, hbuffers, hlent⟩ := h.grow hr ((m.buffer b).length + u.length : Nat)
    have hbuffer : m'.buffer b = m.buffer b := by rw [buffer, hbuffers]; rfl
    let grown (z : Buffer) : Buffer := { z with
      capacity := grownCapacity (m.buffer b).capacity ((m.buffer b).length + u.length : Nat) }
    have hfull : (grown (m.buffer b)).extend u = (m.buffer b).refill ((m.buffer b).text ++ u) :=
      Buffer.extend_eq_refill hroom
    have hgrown := hlent.update (f := grown) (fun _ => rfl) fun _ => rfl
    have hself := buffer_updateBuffer_self grown hlent.valid
    have happended := hgrown.update (f := fun z => z.extend u) (fun _ => rfl) fun _ => rfl
    have hboth := buffer_updateBuffer_self (fun z => z.extend u) hgrown.valid
    rw [hself, hbuffer, hfull] at happended hboth
    rw [run_bind_ok hgrow]
    exact ⟨_, rfl, by simp [updateBuffer, hbuffers], hboth, happended⟩
  · rename_i hle
    rw [capacityFor, if_neg hle] at hroom
    have hfull : (m.buffer b).extend u = (m.buffer b).refill ((m.buffer b).text ++ u) :=
      Buffer.extend_eq_refill hroom
    have happended := h.update (f := fun z => z.extend u) (fun _ => rfl) fun _ => rfl
    have hboth := buffer_updateBuffer_self (fun z => z.extend u) h.valid
    rw [hfull] at happended hboth
    exact ⟨_, rfl, by simp [updateBuffer], hboth, happended⟩

end Lent

end Memory

end MiniLex
