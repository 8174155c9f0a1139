import Mathlib.Algebra.BigOperators.Group.List.Basic
import Mathlib.Algebra.Order.Ring.Int
import MiniLex.Proofs.Memory.Step

/-!
# What an arena has reserved

An arena counts the characters that it reserves as it hands buffers out and lets
them grow. The sum of their capacities (`reservedBy`) changes together with the
counter (`Accounted`): handing a buffer out adds its capacity to both, resizing
it adds what its capacity changes by, and nothing else concerns either.
-/

namespace MiniLex

/-- The capacity of a buffer if it is this allocator's. -/
def Buffer.share (a : AllocatorId) (b : Buffer) : Int := if b.owner = a then b.capacity else 0

namespace Memory

variable {m m' : Memory} {a a' : AllocatorId} {b : BufferId} {x y : Arena} {n : Int}
  {asks : AllocatorId → Call → Prop} {free : AllocatorId → Prop}

/-- The sum of the capacities of all buffers of an allocator, those given back included. -/
def reservedBy (m : Memory) (a : AllocatorId) : Int :=
  ((m.buffers.filter (·.owner = a)).map Buffer.capacity).sum

theorem reservedBy_eq (m : Memory) (a : AllocatorId) :
    m.reservedBy a = (m.buffers.map (Buffer.share a)).sum := by
  rw [reservedBy]
  induction m.buffers with
  | nil => rfl
  | cons y ys ih =>
    by_cases hy : y.owner = a
    · simp [hy, Buffer.share, ih]
    · simp [hy, Buffer.share, ih]

/-! ## Changes of the sum -/

theorem reservedBy_withBuffer (m : Memory) (a a' : AllocatorId) (capacity : Int) :
    (m.withBuffer a' capacity).reservedBy a =
      m.reservedBy a + if a' = a then capacity else 0 := by
  simp [reservedBy_eq, withBuffer, Buffer.share, Buffer.fresh]

/-- A buffer that changes adds what its capacity changes by. -/
theorem reservedBy_updateBuffer (f : Buffer → Buffer) (hb : b < m.buffers.length) :
    (m.updateBuffer b f).reservedBy a =
      m.reservedBy a + ((f (m.buffer b)).share a - (m.buffer b).share a) := by
  have hbuffer : m.buffers[b]?.getD default = m.buffer b := (List.getD_eq_getElem?_getD ..).symm
  have hlt : b < (m.buffers.map (Buffer.share a)).length := by simpa using hb
  have hshare : (m.buffers.map (Buffer.share a))[b] = (m.buffer b).share a := by
    simp [buffer, hb]
  rw [reservedBy_eq, updateBuffer, List.modify_eq_set, List.map_set, List.sum_set', dif_pos hlt,
    hshare, hbuffer, ← reservedBy_eq]
  omega

theorem reservedBy_charge (m : Memory) (a a' : AllocatorId) (n : Int) :
    (m.charge a' n).reservedBy a = m.reservedBy a := by
  rw [reservedBy, buffers_charge, reservedBy]

theorem reservedBy_touch {f : Buffer → Buffer} (b : BufferId)
    (hf : ∀ x, (f x).owner = x.owner ∧ (f x).capacity = x.capacity) :
    (m.updateBuffer b f).reservedBy a = m.reservedBy a := by
  by_cases hb : b < m.buffers.length
  · rw [reservedBy_updateBuffer f hb]
    simp [Buffer.share, hf]
  · have hsame : m.updateBuffer b f = m := by
      rw [updateBuffer, List.modify_eq_self (Nat.le_of_not_lt hb)]
    rw [hsame]

/-! ## The counter keeps to the sum -/

/-- All buffers have an allocator that there is. -/
def Owned (m : Memory) : Prop := ∀ y ∈ m.buffers, y.owner < m.allocators.length

theorem Owned.updateBuffer {f : Buffer → Buffer} (h : m.Owned) (b : BufferId)
    (hf : ∀ x, (f x).owner = x.owner) : (m.updateBuffer b f).Owned := by
  intro y hy
  obtain ⟨c, hc⟩ := List.mem_iff_getElem?.mp hy
  rw [Memory.updateBuffer, List.getElem?_modify] at hc
  obtain ⟨z, hz, rfl⟩ := Option.map_eq_some_iff.mp hc
  have howner := h z (List.mem_of_getElem? hz)
  split
  · rwa [hf]
  · exact howner

theorem Owned.withBuffer (h : m.Owned) (ha : a < m.allocators.length) (capacity : Int) :
    (m.withBuffer a capacity).Owned := by
  intro y hy
  rcases List.mem_append.mp hy with hy | hy
  · exact h y hy
  · rw [List.mem_singleton.mp hy]
    exact ha

theorem Owned.charge (h : m.Owned) (a : AllocatorId) (n : Int) : (m.charge a n).Owned := by
  intro y hy
  rw [buffers_charge] at hy
  rw [length_allocators_charge]
  exact h y hy

theorem reservedBy_of_owned (h : m.Owned) (ha : m.allocators.length ≤ a) : m.reservedBy a = 0 := by
  have hnone : m.buffers.filter (·.owner = a) = [] := by
    refine List.filter_eq_nil_iff.mpr fun y hy => ?_
    have hlt := Nat.lt_of_lt_of_le (h y hy) ha
    simpa using Nat.ne_of_lt hlt
  rw [reservedBy, hnone]
  rfl

theorem arena_of_charge (h : (m.charge a' n).allocator a = .arena y) :
    ∃ x, m.allocator a = .arena x ∧ y.charsReserved = x.charsReserved + if a' = a then n else 0 := by
  by_cases hx : ∃ x, m.allocator a' = .arena x
  · obtain ⟨x, hx⟩ := hx
    rw [charge_arena hx] at h
    by_cases ha : a' = a
    · subst ha
      rw [allocator_replaced (by simp [hx])] at h
      cases h
      exact ⟨x, hx, by simp [Arena.reserve]⟩
    · rw [allocator_setAllocator_of_ne m _ ha] at h
      exact ⟨y, h, by simp [ha]⟩
  · have hno := not_exists.mp hx
    rw [charge_of_ne_arena hno] at h
    have ha : a' ≠ a := fun heq => hno y (heq ▸ h)
    exact ⟨y, h, by simp [ha]⟩

/-- All buffers have an allocator that there is, and this one has counted the capacities of all of
its buffers, if it is an arena. -/
structure Accounted (a : AllocatorId) (m : Memory) : Prop where
  owned : m.Owned
  counted : ∀ x, m.allocator a = .arena x → x.charsReserved = m.reservedBy a

/-- The counter changes by as much as the sum. -/
theorem Accounted.of_change (h : Accounted a m) (howned : m'.Owned)
    (hchange : ∀ y, m'.allocator a = .arena y → ∃ x, m.allocator a = .arena x ∧
      y.charsReserved = x.charsReserved + (m'.reservedBy a - m.reservedBy a)) : Accounted a m' where
  owned := howned
  counted y hy := by
    obtain ⟨x, hx, hreserved⟩ := hchange y hy
    rw [hreserved, h.counted x hx]
    omega

/-- Neither the counter nor the sum changes. -/
theorem Accounted.of_same (h : Accounted a m) (howned : m'.Owned)
    (hsum : m'.reservedBy a = m.reservedBy a)
    (hsame : ∀ y, m'.allocator a = .arena y → ∃ x, m.allocator a = .arena x ∧
      y.charsReserved = x.charsReserved) : Accounted a m' := by
  refine h.of_change howned fun y hy => ?_
  obtain ⟨x, hx, hreserved⟩ := hsame y hy
  exact ⟨x, hx, by rw [hreserved, hsum]; omega⟩

theorem Accounted.step (h : Accounted a m) (hfree : ¬free a) (hstep : Step asks free m m') :
    Accounted a m' := by
  cases hstep with
  | @arena a' x' y' hx' hy' =>
    refine h.of_same (fun z hz => ?_) rfl fun y hy => ?_
    · exact Nat.lt_of_lt_of_eq (h.owned z hz) List.length_set.symm
    by_cases ha : a' = a
    · subst ha
      rw [allocator_replaced (by simp [hx'])] at hy
      cases hy
      exact ⟨x', hx', hy'⟩
    · rw [allocator_setAllocator_of_ne m _ ha] at hy
      exact ⟨y, hy, rfl⟩
  | @note a' r call hr _ =>
    refine h.of_same (fun z hz => ?_) rfl fun y hy => ?_
    · exact Nat.lt_of_lt_of_eq (h.owned z hz) List.length_set.symm
    have ha : a' ≠ a := by
      rintro rfl
      rw [allocator_replaced (by simp [hr])] at hy
      cases hy
    rw [allocator_setAllocator_of_ne m _ ha] at hy
    exact ⟨y, hy, rfl⟩
  | touch b hf =>
    exact h.of_same (h.owned.updateBuffer b fun x => (hf x).1) (reservedBy_touch b hf)
      fun y hy => ⟨y, hy, rfl⟩
  | @handOut a' capacity ha' =>
    have hlength := length_allocators_charge m a' capacity
    refine h.of_change ((h.owned.charge a' capacity).withBuffer (hlength ▸ ha') capacity)
      fun y hy => ?_
    obtain ⟨x, hx, hreserved⟩ := arena_of_charge hy
    refine ⟨x, hx, hreserved.trans ?_⟩
    rw [reservedBy_withBuffer, reservedBy_charge]
    omega
  | @resize b capacity hb =>
    have hbuffer : ∀ n, (m.charge (m.buffer b).owner n).buffer b = m.buffer b := fun n => by
      rw [buffer, buffers_charge, buffer]
    refine h.of_change ((h.owned.charge _ _).updateBuffer b fun x => rfl) fun y hy => ?_
    obtain ⟨x, hx, hreserved⟩ := arena_of_charge hy
    refine ⟨x, hx, hreserved.trans ?_⟩
    rw [reservedBy_updateBuffer _ (by rwa [buffers_charge]), reservedBy_charge, hbuffer]
    by_cases ha : (m.buffer b).owner = a <;> simp [Buffer.share, ha]
  | @charge a' n ha' =>
    have hne : a' ≠ a := fun heq => hfree (heq ▸ ha')
    refine h.of_same (h.owned.charge a' n) (reservedBy_charge m a a' n) fun y hy => ?_
    obtain ⟨x, hx, hreserved⟩ := arena_of_charge hy
    exact ⟨x, hx, by rw [hreserved, if_neg hne, Int.add_zero]⟩
  | @addBuffer a' capacity ha' hlt =>
    have hne : a' ≠ a := fun heq => hfree (heq ▸ ha')
    refine h.of_same (h.owned.withBuffer hlt capacity) ?_ fun y hy => ⟨y, hy, rfl⟩
    rw [reservedBy_withBuffer, if_neg hne, Int.add_zero]
  | @join z hz _ =>
    refine ⟨fun y hy => ?_, fun y hy => ?_⟩
    · exact Nat.lt_of_lt_of_le (h.owned y hy) (by simp)
    rcases allocator_join m z a with hsame | ⟨ha, hnew⟩
    · exact h.counted y (hsame ▸ hy)
    · rw [hz y (hnew ▸ hy)]
      exact (reservedBy_of_owned h.owned (Nat.le_of_eq ha.symm)).symm

end Memory

end MiniLex
