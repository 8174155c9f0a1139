import Mathlib.Algebra.Group.Prod
import MiniLex.Proofs.Memory.Granted
import MiniLex.Proofs.Memory.Growth

/-!
# What arenas count

An arena counts the characters that it reserves and copies and the texts that
it copies (`Arena.usage`). What an operation that succeeds adds to these
counters does not depend on what they were, nor on anything else that the arena
has handed out:

* `clone_counts`: the copy of a text;
* `allocate_counts`, `append_counts`: the capacity of a buffer, from the initial
  one to the one that its text needs (`Fits`);
* `release_counts`, `acquireContext_counts`, `releaseContext_counts`: nothing.
-/

namespace MiniLex

/-- Counters of an arena: characters reserved, characters copied, and texts copied. -/
abbrev Usage := Int × Int × Int

/-- The counters of an arena. -/
def Arena.usage (x : Arena) : Usage := (x.charsReserved, x.charsCloned, x.payloadsCloned)

/-- Characters are reserved. -/
def Usage.reserve (n : Int) : Usage := (n, 0, 0)

/-- A text is copied. -/
def Usage.copy (t : Text) : Usage := (0, t.length, 1)

theorem Usage.reserve_add_reserve (n k : Int) : reserve n + reserve k = reserve (n + k) := by
  simp [reserve]

namespace Memory

variable {m m' m₁ : Memory} {a : AllocatorId} {b : BufferId} {t u : Text} {x y : Arena}
  {v w : Usage}

/-- On the way from one memory to another an allocator has counted this, if it is an arena. -/
def Counts (a : AllocatorId) (v : Usage) (m m' : Memory) : Prop :=
  ∀ x, m.allocator a = .arena x → ∃ x', m'.allocator a = .arena x' ∧ x'.usage = x.usage + v

/-- The counters of an allocator; all are 0 if it is no arena. -/
def usage (m : Memory) (a : AllocatorId) : Usage :=
  match m.allocator a with
  | .arena x => x.usage
  | .heap | .recorder _ => 0

theorem counts_of_same (h : m'.allocator a = m.allocator a) : Counts a 0 m m' :=
  fun x hx => ⟨x, h.trans hx, (add_zero _).symm⟩

theorem counts_of_ne (h : ∀ x, m.allocator a ≠ .arena x) : Counts a v m m' :=
  fun x hx => absurd hx (h x)

theorem Counts.trans (h : Counts a v m m₁) (h' : Counts a w m₁ m') : Counts a (v + w) m m' := by
  intro x hx
  obtain ⟨x₁, hx₁, hv⟩ := h x hx
  obtain ⟨x', hx', hw⟩ := h' x₁ hx₁
  exact ⟨x', hx', by rw [hw, hv, add_assoc]⟩

/-- What an arena has counted is by what its counters have changed. -/
theorem Counts.usage_sub (h : Counts a v m m') (ha : m.allocator a = .arena x) :
    m'.usage a - m.usage a = v := by
  obtain ⟨x', ha', hx'⟩ := h x ha
  simp only [usage, ha, ha', hx']
  exact add_sub_cancel_left x.usage v

theorem counts_putArena (ha : m.allocator a = .arena x) (hy : y.usage = x.usage + v) :
    Counts a v m (m.setAllocator a (.arena y)) := by
  intro x' hx'
  obtain rfl := Allocator.arena.inj (ha.symm.trans hx')
  exact ⟨y, allocator_replaced (by simp [ha]) _, hy⟩

/-! ## Copies and what is given back -/

theorem clone_counts {copy : Text} (h : clone a t m = .ok copy m') :
    Counts a (.copy t) m m' := by
  unfold clone at h
  rw [run_bind_get] at h
  cases ha : m.allocator a with
  | heap => exact counts_of_ne (by simp [ha])
  | arena x =>
    rw [ha] at h
    obtain ⟨_, m₁, hopen, hr⟩ := of_bind_ok h
    rw [requireOpen_ok hopen] at hr
    cases hr
    exact counts_putArena ha (by simp [Arena.usage, Arena.countClone, Usage.copy])
  | recorder r => exact counts_of_ne (by simp [ha])

theorem release_counts (h : release a b m = .ok () m') : Counts a 0 m m' := by
  unfold release at h
  rw [run_bind_get] at h
  cases ha : m.allocator a with
  | heap => exact counts_of_ne (by simp [ha])
  | arena x =>
    rw [ha] at h
    cases h
    exact counts_putArena ha (add_zero _).symm
  | recorder r => exact counts_of_ne (by simp [ha])

theorem acquireContext_counts {scan : ScanId} (h : acquireContext a scan m = .ok () m') :
    Counts a 0 m m' := by
  unfold acquireContext at h
  rw [run_bind_get] at h
  cases ha : m.allocator a with
  | heap => exact counts_of_ne (by simp [ha])
  | arena x =>
    have hsame : (x.addContext scan).usage = x.usage := by
      unfold Arena.addContext
      split <;> rfl
    rw [ha] at h
    obtain ⟨_, m₁, hopen, hr⟩ := of_bind_ok h
    rw [requireOpen_ok hopen] at hr
    cases hr
    exact counts_putArena ha (by rw [hsame, add_zero])
  | recorder r => exact counts_of_ne (by simp [ha])

theorem releaseContext_counts {scan : ScanId} (h : releaseContext a scan m = .ok () m') :
    Counts a 0 m m' := by
  unfold releaseContext at h
  rw [run_bind_get] at h
  cases ha : m.allocator a with
  | heap => exact counts_of_ne (by simp [ha])
  | arena x =>
    rw [ha] at h
    cases h
    exact counts_putArena ha (add_zero _).symm
  | recorder r => exact counts_of_ne (by simp [ha])

/-! ## Buffers that take a text -/

/-- A buffer of an allocator holds a text, and has grown for it from the initial capacity. -/
structure Fits (m : Memory) (a : AllocatorId) (b : BufferId) (t : Text) : Prop
    extends m.Holds b t where
  owner : (m.buffer b).owner = a
  capacity : (m.buffer b).capacity = capacityFor Buffer.initialCapacity t.length

/-- What is reserved of an allocator for a text of this length. -/
def reserved (t : Text) : Usage := .reserve (capacityFor Buffer.initialCapacity t.length)

theorem allocate_counts (h : allocate a Buffer.initialCapacity m = .ok b m') :
    m'.Fits a b [] ∧ Counts a (reserved []) m m' := by
  have hadd : ∀ {m₁ : Memory}, addBuffer a Buffer.initialCapacity m₁ = .ok b m' →
      m'.Fits a b [] ∧ m'.allocator a = m₁.allocator a := by
    intro m₁ hr
    have hholds := addBuffer_ok hr
    cases hr
    exact ⟨⟨hholds, by simp [buffer, Buffer.fresh], by simp [buffer, Buffer.fresh, capacityFor,
      Buffer.initialCapacity]⟩, rfl⟩
  unfold allocate at h
  rw [run_bind_get] at h
  cases ha : m.allocator a with
  | heap =>
    rw [ha] at h
    exact ⟨(hadd h).1, counts_of_ne (by simp [ha])⟩
  | arena x =>
    rw [ha] at h
    obtain ⟨_, m₁, hopen, hr⟩ := of_bind_ok h
    rw [requireOpen_ok hopen] at hr
    obtain ⟨_, m₂, hput, hr⟩ := of_bind_ok hr
    cases hput
    obtain ⟨hfits, hsame⟩ := hadd hr
    have hput := counts_putArena ha (y := x.addBuffer m.buffers.length Buffer.initialCapacity)
      (v := reserved []) (by simp [Arena.usage, Arena.addBuffer, reserved, Usage.reserve,
        capacityFor, Buffer.initialCapacity])
    have hcounts := hput.trans (counts_of_same hsame)
    rw [add_zero] at hcounts
    exact ⟨hfits, hcounts⟩
  | recorder r =>
    rw [ha] at h
    obtain ⟨_, m₁, _, h⟩ := of_bind_ok h
    exact ⟨(hadd h).1, counts_of_ne (by simp [ha])⟩

theorem grow_counts {needed capacity : Int} (h : grow a b needed m = .ok capacity m') :
    capacity = grownCapacity (m.buffer b).capacity needed ∧
      Counts a (.reserve (capacity - (m.buffer b).capacity)) m m' := by
  unfold grow at h
  rw [run_bind_get] at h
  cases ha : m.allocator a with
  | heap =>
    rw [ha] at h
    cases h
    exact ⟨rfl, counts_of_ne (by simp [ha])⟩
  | arena x =>
    rw [ha] at h
    obtain ⟨_, m₁, hopen, hr⟩ := of_bind_ok h
    rw [requireOpen_ok hopen] at hr
    split at hr
    · cases hr
    · cases hr
      exact ⟨rfl, counts_putArena ha (by simp [Arena.usage, Arena.reserve, Usage.reserve])⟩
  | recorder r =>
    rw [ha] at h
    obtain ⟨_, m₁, _, h⟩ := of_bind_ok h
    cases h
    exact ⟨rfl, counts_of_ne (by simp [ha])⟩

/-- A buffer that takes more text grows from the capacity that the text in it needs to the one that
both need. -/
theorem append_counts (hf : m.Fits a b t) (h : append b u m = .ok () m') :
    m'.Fits a b (t ++ u) ∧ ∃ v, reserved t + v = reserved (t ++ u) ∧ Counts a v m m' := by
  have hholds := hf.toHolds.append_ok h
  have hgrow : capacityFor (m.buffer b).capacity ((t.length + u.length : Nat)) =
      capacityFor Buffer.initialCapacity (t ++ u).length := by
    rw [hf.capacity, capacityFor_capacityFor (by decide) (Nat.le_add_right _ _),
      List.length_append]
  unfold append at h
  rw [run_bind_get] at h
  simp only [hf.unreleased, Bool.false_eq_true, ↓reduceIte, hf.toHolds.length] at h
  split at h
  · rename_i hu
    cases h
    subst hu
    rw [List.append_nil]
    exact ⟨hf, 0, add_zero _, counts_of_same rfl⟩
  split at h
  · rename_i hlt
    obtain ⟨capacity, m₁, hrun, h⟩ := of_bind_ok h
    obtain ⟨hcapacity, hcounts⟩ := grow_counts hrun
    have hvalid : b < m₁.buffers.length := by
      rw [grow_ok hrun]
      exact hf.valid
    have hbuffer : m₁.buffer b = m.buffer b := by rw [buffer, grow_ok hrun]; rfl
    rw [capacityFor, if_pos hlt, ← hcapacity] at hgrow
    rw [hf.owner] at hcounts
    cases h
    have hkept := buffer_updateBuffer_self (fun x => { x with capacity := capacity }) hvalid
    have hvalid' :
        b < (m₁.updateBuffer b fun x => { x with capacity := capacity }).buffers.length := by
      simpa [updateBuffer] using hvalid
    refine ⟨⟨hholds, ?_, ?_⟩, _, ?_, hcounts⟩
    · rw [buffer_updateBuffer_self _ hvalid', hkept, hbuffer]
      exact hf.owner
    · rw [buffer_updateBuffer_self _ hvalid', hkept]
      exact hgrow
    · rw [reserved, reserved, Usage.reserve_add_reserve, ← hf.capacity, ← hgrow]
      congr 1
      omega
  · rename_i hle
    rw [capacityFor, if_neg hle] at hgrow
    cases h
    refine ⟨⟨hholds, ?_, ?_⟩, 0, ?_, counts_of_same rfl⟩
    · rw [buffer_updateBuffer_self _ hf.valid]
      exact hf.owner
    · rw [buffer_updateBuffer_self _ hf.valid]
      exact hgrow
    · rw [add_zero, reserved, reserved, ← hgrow, hf.capacity]

end Memory

end MiniLex
