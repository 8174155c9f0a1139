import MiniLex.Proofs.Memory.Growth

/-!
# How full buffers are

A buffer grows for each text that needs more than its capacity (`roomFor`). So
its capacity tells the one that it started with and the greatest length that its
text has had (`Suits`), and nothing of the texts in between: `Suits.roomFor`,
`Suits.unique`.
-/

namespace MiniLex

/-- The capacity of a buffer that started with `c` and whose text was `n` characters long at most: `c`
as long as that did, and otherwise the least doubling that does. A capacity less than 1 counts as 1
then. -/
def Suits (c : Int) (n : Nat) (g : Int) : Prop :=
  if (n : Int) ≤ c ∨ n = 0 then g = c else LeastDoubling (max c 1) n g

/-- The capacity of a buffer once its text has this length. The empty text needs nothing. -/
def roomFor (g : Int) (n : Nat) : Int := if n = 0 then g else capacityFor g n

variable {c g g' : Int} {n k : Nat}

theorem capacityFor_of_le (h : (n : Int) ≤ g) : capacityFor g n = g := if_neg (Int.not_lt.mpr h)

theorem roomFor_of_le (h : n = 0 ∨ (n : Int) ≤ g) : roomFor g n = g := by
  unfold roomFor
  split
  · rfl
  · exact capacityFor_of_le (h.resolve_left ‹_›)

theorem le_roomFor (g : Int) (n : Nat) : g ≤ roomFor g n := by
  unfold roomFor capacityFor
  split
  · exact Int.le_refl g
  split
  · rename_i hlt
    obtain ⟨-, -, hle, -⟩ := grownCapacity_leastDoubling g n
    exact Int.le_of_lt (Int.lt_of_lt_of_le hlt hle)
  · exact Int.le_refl g

theorem covers_roomFor (g : Int) (n : Nat) : n = 0 ∨ (n : Int) ≤ roomFor g n := by
  unfold roomFor capacityFor
  split
  · exact .inl ‹_›
  split
  · obtain ⟨-, -, hle, -⟩ := grownCapacity_leastDoubling g n
    exact .inr hle
  · exact .inr (Int.not_lt.mp ‹_›)

namespace Suits

theorem self (c : Int) : Suits c 0 c := by simp [Suits]

theorem unique (h : Suits c n g) (h' : Suits c n g') : g = g' := by
  unfold Suits at h h'
  split at h
  · rw [if_pos ‹_›] at h'
    exact h.trans h'.symm
  · rw [if_neg ‹_›] at h'
    exact h.unique h'

/-- The greatest length so far needs no more. -/
theorem covers (h : Suits c n g) : n = 0 ∨ (n : Int) ≤ g := by
  unfold Suits at h
  split at h
  · rename_i hc
    exact hc.symm.imp_right fun hle => h ▸ hle
  · obtain ⟨-, -, hle, -⟩ := h
    exact .inr hle

/-- Growing for one text and then for a longer one is growing for the longer one. -/
theorem roomFor (h : Suits c n g) (k : Nat) : Suits c (max n k) (roomFor g k) := by
  rcases Nat.lt_or_ge n k with hlt | hge
  · have hk : k ≠ 0 := by omega
    rw [Nat.max_eq_right (Nat.le_of_lt hlt), MiniLex.roomFor, if_neg hk]
    unfold Suits at h ⊢
    by_cases hc : (n : Int) ≤ c ∨ n = 0
    · rw [if_pos hc] at h
      subst h
      unfold capacityFor
      by_cases hg : (k : Int) ≤ g
      · rw [if_pos (.inl hg), if_neg (Int.not_lt.mpr hg)]
      · rw [if_neg (by simp [hg, hk]), if_pos (Int.not_le.mp hg)]
        exact grownCapacity_leastDoubling g k
    · rw [if_neg hc] at h
      rw [if_neg (by omega)]
      obtain ⟨-, -, hcovers, -⟩ := id h
      exact h.trans (capacityFor_leastDoubling k (by omega)) (Nat.le_of_lt hlt)
  · have hsame : MiniLex.roomFor g k = g := roomFor_of_le (by have := h.covers; omega)
    rw [Nat.max_eq_left hge, hsame]
    exact h

end Suits

namespace Buffer

variable {y : Buffer} {t : Text}

/-- The text of a buffer needs no more than its capacity. -/
def Covers (y : Buffer) : Prop := y.text.length = 0 ∨ (y.text.length : Int) ≤ y.capacity

/-- The buffer with another text, for which it grows if need be. -/
def refill (y : Buffer) (t : Text) : Buffer :=
  { y with
    text := t
    length := t.length
    capacity := roomFor y.capacity t.length
    length_eq := rfl }

theorem covers_refill (y : Buffer) (t : Text) : (y.refill t).Covers := covers_roomFor _ _

theorem covers_markReleased (y : Buffer) : y.markReleased.Covers := .inl rfl

theorem refill_self (hy : y.Covers) : y.refill y.text = y :=
  Buffer.ext rfl (roomFor_of_le hy) rfl rfl

/-- Growing as far as the text with its addition needs, and then adding. -/
theorem extend_eq_refill {g : Int} (hg : roomFor y.capacity (y.text ++ t).length = g) :
    Buffer.extend { y with capacity := g } t = y.refill (y.text ++ t) :=
  Buffer.ext rfl hg.symm rfl rfl

theorem markReleased_of_released (hr : y.released = true) (ht : y.text = []) :
    y.markReleased = y :=
  Buffer.ext rfl rfl ht.symm hr.symm

end Buffer

end MiniLex
