import Mathlib.Data.List.Nodup
import MiniLex.Proofs.Memory.Books

/-!
# What an arena has in its care

The contexts and the buffers that the books put in the care of an allocator, as
lists that are empty where the allocator is not an arena, and what each change
of the books does to them. No such change opens an arena, closes one or turns an
allocator into one.
-/

namespace MiniLex.Books

variable {v : Books} {a a' : AllocatorId} {b c : BufferId} {i j : ScanId} {f : Care → Care}

/-- An allocator is an arena. -/
def IsArena (v : Books) (a : AllocatorId) : Prop := (v.care? a).isSome

/-- The contexts in an allocator's care. -/
def contexts (v : Books) (a : AllocatorId) : List ScanId := ((v.care? a).map Care.contexts).getD []

/-- The buffers in an allocator's care. -/
def live (v : Books) (a : AllocatorId) : List BufferId := ((v.care? a).map Care.live).getD []

theorem care?_alter (v : Books) (a a' : AllocatorId) (f : Care → Care) :
    (v.alter a f).care? a' = if a = a' then (v.care? a').map f else v.care? a' := by
  split
  · next h => exact h ▸ care?_alter_self
  · next h => exact care?_alter_of_ne h

/-! ## Changes that leave the contexts or the buffers -/

theorem isArena_alter : (v.alter a f).IsArena a' ↔ v.IsArena a' := by
  rw [IsArena, care?_alter]
  split <;> simp [IsArena]

theorem contexts_alter (hf : ∀ c, (f c).contexts = c.contexts) :
    (v.alter a f).contexts a' = v.contexts a' := by
  rw [contexts, care?_alter]
  split <;> cases hc : v.care? a' <;> simp [contexts, hc, hf]

theorem live_alter (hf : ∀ c, (f c).live = c.live) : (v.alter a f).live a' = v.live a' := by
  rw [live, care?_alter]
  split <;> cases hc : v.care? a' <;> simp [live, hc, hf]

theorem open_alter (hf : ∀ c, (f c).closed = c.closed) :
    (v.alter a f).Open a' ↔ v.Open a' := by
  rw [Open, care?_alter, Open]
  split <;> cases hc : v.care? a' <;> simp [hf]

theorem contexts_handOut : (v.handOut a).contexts a' = v.contexts a' := contexts_alter fun _ => rfl

theorem contexts_takeBack : (v.takeBack a b).contexts a' = v.contexts a' :=
  contexts_alter fun _ => rfl

theorem live_discharge : (v.discharge a i).live a' = v.live a' := live_alter fun _ => rfl

theorem live_enroll : (v.enroll a i).live a' = v.live a' := by
  refine live_alter fun c => ?_
  split <;> rfl

theorem open_handOut : (v.handOut a).Open a' ↔ v.Open a' := open_alter fun _ => rfl

theorem open_takeBack : (v.takeBack a b).Open a' ↔ v.Open a' := open_alter fun _ => rfl

theorem open_discharge : (v.discharge a i).Open a' ↔ v.Open a' := open_alter fun _ => rfl

theorem open_enroll : (v.enroll a i).Open a' ↔ v.Open a' := by
  refine open_alter fun c => ?_
  split <;> rfl

/-! ## Changes of the contexts -/

theorem contexts_alter_sublist (hf : ∀ c, (f c).contexts.Sublist c.contexts) :
    ((v.alter a f).contexts a').Sublist (v.contexts a') := by
  rw [contexts, care?_alter]
  split <;> cases hc : v.care? a' <;> simp [contexts, hc, hf]

theorem mem_contexts_enroll :
    j ∈ (v.enroll a i).contexts a' ↔ j ∈ v.contexts a' ∨ a = a' ∧ v.IsArena a ∧ j = i := by
  rw [contexts, enroll, care?_alter, contexts]
  by_cases ha : a = a'
  · subst ha
    cases hc : v.care? a with
    | none => simp [IsArena, hc]
    | some c =>
      by_cases hi : i ∈ c.contexts
      · simp only [IsArena, hc, hi, if_true, Option.map_some, Option.getD_some, Option.isSome_some]
        grind
      · simp [IsArena, hc, hi]
  · simp [ha]

theorem nodup_contexts_enroll (h : (v.contexts a').Nodup) :
    ((v.enroll a i).contexts a').Nodup := by
  rw [contexts, enroll, care?_alter]
  rw [contexts] at h
  by_cases ha : a = a'
  · subst ha
    cases hc : v.care? a with
    | none => simp
    | some c =>
      rw [hc] at h
      by_cases hi : i ∈ c.contexts
      · simpa [hi] using h
      · simpa [hi] using List.Nodup.concat hi h
  · simpa [ha] using h

theorem mem_contexts_discharge :
    j ∈ (v.discharge a i).contexts a' ↔ j ∈ v.contexts a' ∧ ¬(a = a' ∧ j = i) := by
  rw [contexts, discharge, care?_alter, contexts]
  by_cases ha : a = a'
  · subst ha
    cases hc : v.care? a <;> simp
  · simp [ha]

/-! ## Changes of the buffers -/

theorem live_alter_sublist (hf : ∀ c, (f c).live.Sublist c.live) :
    ((v.alter a f).live a').Sublist (v.live a') := by
  rw [live, care?_alter]
  split <;> cases hc : v.care? a' <;> simp [live, hc, hf]

theorem mem_live_handOut : b ∈ (v.handOut a).live a' ↔
    b ∈ v.live a' ∨ a = a' ∧ v.IsArena a ∧ b = v.titles.length := by
  show b ∈ (v.alter a _).live a' ↔ _
  rw [live, care?_alter, live]
  by_cases ha : a = a'
  · subst ha
    cases hc : v.care? a <;> simp [IsArena, hc]
  · simp [ha]

theorem nodup_live_handOut (h : (v.live a').Nodup) (hlt : ∀ b ∈ v.live a', b < v.titles.length) :
    ((v.handOut a).live a').Nodup := by
  show ((v.alter a _).live a').Nodup
  rw [live, care?_alter]
  rw [live] at h hlt
  by_cases ha : a = a'
  · subst ha
    cases hc : v.care? a with
    | none => simp
    | some c =>
      simp only [hc, Option.map_some, Option.getD_some] at h hlt
      have hnew : v.titles.length ∉ c.live := fun hb => Nat.lt_irrefl _ (hlt _ hb)
      simpa using h.concat hnew
  · simpa [ha] using h

theorem mem_live_takeBack :
    c ∈ (v.takeBack a b).live a' ↔ c ∈ v.live a' ∧ ¬(a = a' ∧ c = b) := by
  show c ∈ (v.alter a _).live a' ↔ _
  rw [live, care?_alter, live]
  by_cases ha : a = a'
  · subst ha
    cases hc : v.care? a <;> simp
  · simp [ha]

/-! ## A new allocator -/

variable {x : Option Care}

theorem care?_join : (v.join x).care? a = if a = v.cares.length then x else v.care? a := by
  rw [care?, join]
  rcases Nat.lt_trichotomy a v.cares.length with ha | rfl | ha
  · rw [List.getElem?_append_left ha, if_neg (Nat.ne_of_lt ha), care?]
  · rw [List.getElem?_concat_length, if_pos rfl, Option.join_some]
  · rw [List.getElem?_eq_none (by simpa [Nat.succ_le_iff] using ha), if_neg (Nat.ne_of_gt ha),
      care?, List.getElem?_eq_none (Nat.le_of_lt ha)]

theorem care?_of_le (ha : v.cares.length ≤ a) : v.care? a = none := by
  rw [care?, List.getElem?_eq_none ha, Option.join_none]

theorem contexts_join (hx : ∀ y ∈ x, y = ⟨false, [], []⟩) :
    (v.join x).contexts a = v.contexts a := by
  rw [contexts, care?_join, contexts]
  split
  · next ha =>
    rw [care?_of_le (Nat.le_of_eq ha.symm)]
    cases x with
    | none => rfl
    | some y => rw [hx y rfl]; rfl
  · rfl

theorem live_join (hx : ∀ y ∈ x, y = ⟨false, [], []⟩) : (v.join x).live a = v.live a := by
  rw [live, care?_join, live]
  split
  · next ha =>
    rw [care?_of_le (Nat.le_of_eq ha.symm)]
    cases x with
    | none => rfl
    | some y => rw [hx y rfl]; rfl
  · rfl

end MiniLex.Books
