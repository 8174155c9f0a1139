import Mathlib.Algebra.Order.Ring.Int
import MiniLex.Memory.Basic

/-!
# How buffers grow

A buffer that is too small doubles its capacity until it covers what is needed.
So its capacity is the least doubling of the one that it starts with
(`LeastDoubling`) that covers the text:

* `grownCapacity_leastDoubling`: growing goes to the least doubling;
* `capacityFor_capacityFor`: growing for a text and then for a longer one comes
  to the same as growing for the longer one at once, so it does not matter in
  which pieces a text is appended.
-/

namespace MiniLex

/-- The least of a capacity and its doublings that covers a need. -/
def LeastDoubling (c : Int) (need : Nat) (g : Int) : Prop :=
  ∃ k : Nat, g = c * 2 ^ k ∧ (need : Int) ≤ g ∧ ∀ j < k, c * 2 ^ j < (need : Int)

/-- The capacity of a buffer once it has taken a text of this length. -/
def capacityFor (c : Int) (need : Nat) : Int :=
  if c < (need : Int) then grownCapacity c need else c

variable {c g g' : Int} {need need' : Nat}

theorem LeastDoubling.unique (h : LeastDoubling c need g) (h' : LeastDoubling c need g') :
    g = g' := by
  obtain ⟨k, rfl, hk, hless⟩ := h
  obtain ⟨k', rfl, hk', hless'⟩ := h'
  rcases Nat.lt_trichotomy k k' with hlt | rfl | hlt
  · exact absurd (hless' k hlt) (Int.not_lt.mpr hk)
  · rfl
  · exact absurd (hless k' hlt) (Int.not_lt.mpr hk')

theorem leastDoubling_self (h : (need : Int) ≤ c) : LeastDoubling c need c :=
  ⟨0, by simp, h, fun j hj => absurd hj (Nat.not_lt_zero j)⟩

/-- The least doubling for a greater need is one of the least doubling for a need. -/
theorem LeastDoubling.trans (h : LeastDoubling c need g) (h' : LeastDoubling g need' g')
    (hle : need ≤ need') : LeastDoubling c need' g' := by
  obtain ⟨k, rfl, hk, hless⟩ := h
  obtain ⟨k', rfl, hk', hless'⟩ := h'
  refine ⟨k + k', by rw [pow_add, mul_assoc], hk', fun j hj => ?_⟩
  rcases Nat.lt_or_ge j k with hlt | hge
  · exact Int.lt_of_lt_of_le (hless j hlt) (Int.ofNat_le.mpr hle)
  · obtain ⟨l, rfl⟩ := Nat.exists_eq_add_of_le hge
    rw [pow_add, ← mul_assoc]
    exact hless' l (by omega)

/-- With enough steps, doubling stops at the least doubling. -/
theorem doubledUntil_leastDoubling {steps n : Nat} (h : need ≤ n * 2 ^ steps) :
    LeastDoubling n need (doubledUntil need steps n) := by
  induction steps generalizing n with
  | zero =>
    rw [pow_zero, mul_one] at h
    exact leastDoubling_self (Int.ofNat_le.mpr h)
  | succ steps ih =>
    rw [doubledUntil]
    split
    · rename_i hle
      exact leastDoubling_self (Int.ofNat_le.mpr hle)
    · rename_i hlt
      rw [pow_succ, mul_comm (2 ^ steps), ← mul_assoc, mul_comm n] at h
      obtain ⟨k, hk, hle, hless⟩ := ih h
      refine ⟨k + 1, ?_, hle, fun j hj => ?_⟩
      · rw [hk, pow_succ, mul_comm (2 ^ k), ← mul_assoc, mul_comm (n : Int)]
        rfl
      · cases j with
        | zero =>
          rw [pow_zero, mul_one]
          exact Int.ofNat_lt.mpr (Nat.lt_of_not_le hlt)
        | succ j =>
          have hj' := hless j (Nat.lt_of_succ_lt_succ hj)
          rw [pow_succ, mul_comm (2 ^ j), ← mul_assoc, mul_comm (n : Int)]
          exact hj'

/-- A buffer that grows does so to the least doubling of its capacity, or of 1 if that is less. -/
theorem grownCapacity_leastDoubling (c : Int) (need : Nat) :
    LeastDoubling (max c 1) need (grownCapacity c need) := by
  have hone : 1 ≤ (max c 1).toNat := by omega
  have hcast : ((max c 1).toNat : Int) = max c 1 := by omega
  have hsteps : need ≤ (max c 1).toNat * 2 ^ (need.log2 + 1) :=
    Nat.le_trans (Nat.le_of_lt Nat.lt_log2_self) (Nat.le_mul_of_pos_left _ hone)
  have hleast := doubledUntil_leastDoubling hsteps
  rw [hcast] at hleast
  exact hleast

theorem capacityFor_leastDoubling (need : Nat) (hc : 1 ≤ c) :
    LeastDoubling c need (capacityFor c need) := by
  rw [capacityFor]
  split
  · have hleast := grownCapacity_leastDoubling c need
    rwa [max_eq_left hc] at hleast
  · rename_i hle
    exact leastDoubling_self (Int.not_lt.mp hle)

theorem le_capacityFor (need : Nat) (hc : 1 ≤ c) : c ≤ capacityFor c need := by
  obtain ⟨k, hk, -, -⟩ := capacityFor_leastDoubling need hc
  rw [hk]
  exact le_mul_of_one_le_right (by omega) (one_le_pow₀ (by decide))

/-- It does not matter in which pieces a text is appended. -/
theorem capacityFor_capacityFor (hc : 1 ≤ c) (hle : need ≤ need') :
    capacityFor (capacityFor c need) need' = capacityFor c need' := by
  have hfirst := capacityFor_leastDoubling need hc
  have hsecond := capacityFor_leastDoubling need' (Int.le_trans hc (le_capacityFor need hc))
  exact (hfirst.trans hsecond hle).unique (capacityFor_leastDoubling need' hc)

end MiniLex
