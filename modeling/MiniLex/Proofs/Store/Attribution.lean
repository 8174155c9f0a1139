import MiniLex.Proofs.Memory.Cares
import MiniLex.Proofs.Store.Intervention

/-!
# Contexts that belong to scans

As long as no context is put in the care of an arena by hand, the contexts in
its care are those of open scans that have it as their allocator
(`Estate.Attributed`), whatever else is done by hand. And a scan that is closed
stays closed (`Estate.IsShut`).
-/

namespace MiniLex

open Relation (ReflTransGen)

namespace Estate

variable {v v' : Estate} {a : AllocatorId} {i : ScanId} {x : Standing} {w : Books}
  {closed : Bool} {held : Option BufferId} {free : AllocatorId → Prop}

/-- The contexts in the care of an allocator are, each once, those of open scans that have it as
their allocator, and the buffers in its care are, each once, buffers that there are. -/
structure Attributed (a : AllocatorId) (v : Estate) : Prop where
  /-- Every scan has the identifier by which it is known. -/
  numbered : ∀ i (x : Standing), v.scans[i]? = some x → x.id = i
  once : (v.books.contexts a).Nodup
  opened : ∀ i ∈ v.books.contexts a,
    ∃ x, v.scans[i]? = some x ∧ x.allocator = a ∧ x.closed = false
  distinct : (v.books.live a).Nodup
  known : ∀ b ∈ v.books.live a, b < v.books.titles.length

namespace Attributed

/-- Nothing new is in care. -/
theorem withBooks (h : Attributed a v) (hcontexts : (w.contexts a).Sublist (v.books.contexts a))
    (hlive : (w.live a).Sublist (v.books.live a))
    (htitles : v.books.titles.length ≤ w.titles.length) : Attributed a { v with books := w } where
  numbered := h.numbered
  once := hcontexts.nodup h.once
  opened i hi := h.opened i (hcontexts.subset hi)
  distinct := hlive.nodup h.distinct
  known b hb := Nat.lt_of_lt_of_le (h.known b (hlive.subset hb)) htitles

/-- A scan whose context is in care is not closed. -/
theorem put (h : Attributed a { v with books := w }) (hx : v.scans[i]? = some x)
    (hclosed : closed = x.closed ∨ i ∉ w.contexts a) : Attributed a (v.put i w closed held) where
  numbered j y hy := by
    by_cases hj : i = j
    · subst hj
      rw [scans_put_self hx] at hy
      cases hy
      exact h.numbered i x hx
    · rw [scans_put_of_ne hj] at hy
      exact h.numbered j y hy
  once := h.once
  opened j hmem := by
    obtain ⟨y, hy, hallocator, hopen⟩ := h.opened j hmem
    by_cases hj : i = j
    · subst hj
      obtain rfl : x = y := Option.some.inj (hx.symm.trans hy)
      rcases hclosed with rfl | hnot
      · exact ⟨_, scans_put_self hx, hallocator, hopen⟩
      · exact absurd hmem hnot
    · exact ⟨y, (scans_put_of_ne hj).trans hy, hallocator, hopen⟩
  distinct := h.distinct
  known := h.known

theorem join {c : Option Care} (h : Attributed a v) (hc : ∀ y ∈ c, y = ⟨false, [], []⟩) :
    Attributed a (v.join c) :=
  h.withBooks (by simp [Books.contexts_join hc]) (by simp [Books.live_join hc]) (Nat.le_refl _)

theorem handOut (h : Attributed a v) (a' : AllocatorId) :
    Attributed a { v with books := v.books.handOut a' } := by
  have hcontexts : (v.books.handOut a').contexts a = v.books.contexts a := Books.contexts_handOut
  have hlength : (v.books.handOut a').titles.length = v.books.titles.length + 1 := by
    simp [Books.handOut, Books.addTitle, Books.alter]
  refine ⟨h.numbered, hcontexts ▸ h.once, fun i hi => h.opened i (hcontexts ▸ hi),
    Books.nodup_live_handOut h.distinct h.known, fun b hb => ?_⟩
  show b < (v.books.handOut a').titles.length
  rcases Books.mem_live_handOut.mp hb with hb | ⟨-, -, rfl⟩
  · exact hlength ▸ Nat.lt_succ_of_lt (h.known b hb)
  · exact hlength ▸ Nat.lt_succ_self _

theorem markReleased (h : Attributed a v) (b : BufferId) :
    Attributed a { v with books := v.books.markReleased b } :=
  h.withBooks (.refl _) (.refl _) (by simp [Books.markReleased])

theorem shrink {f : Care → Care} (h : Attributed a v) (a' : AllocatorId)
    (hf : ∀ c, (f c).contexts.Sublist c.contexts ∧ (f c).live.Sublist c.live) :
    Attributed a { v with books := v.books.alter a' f } :=
  h.withBooks (Books.contexts_alter_sublist fun c => (hf c).1)
    (Books.live_alter_sublist fun c => (hf c).2) (Nat.le_refl _)

theorem takeBack (h : Attributed a v) (a' : AllocatorId) (b : BufferId) :
    Attributed a { v with books := v.books.takeBack a' b } :=
  (h.shrink a' (f := fun c => { c with live := c.live.filter (· ≠ b) })
    fun _ => ⟨.refl _, List.filter_sublist⟩).markReleased b

theorem begin (h : Attributed a v) (a' : AllocatorId) : Attributed a (v.begin a') where
  numbered i x hx := by
    rcases Nat.lt_trichotomy i v.scans.length with hi | rfl | hi
    · refine h.numbered i x ?_
      rwa [Estate.begin, List.getElem?_append_left hi] at hx
    · rw [Estate.begin, List.getElem?_concat_length] at hx
      cases hx
      rfl
    · rw [Estate.begin, List.getElem?_eq_none (by simpa [Nat.succ_le_iff] using hi)] at hx
      cases hx
  once := Books.nodup_contexts_enroll h.once
  opened i hi := by
    rcases Books.mem_contexts_enroll.mp hi with hi | ⟨rfl, -, rfl⟩
    · obtain ⟨x, hx, hrest⟩ := h.opened i hi
      refine ⟨x, ?_, hrest⟩
      rw [Estate.begin, List.getElem?_append_left (List.getElem?_eq_some_iff.mp hx).1]
      exact hx
    · exact ⟨_, List.getElem?_concat_length, rfl, rfl⟩
  distinct := by
    rw [Estate.begin, Books.live_enroll]
    exact h.distinct
  known b hb := by
    rw [Estate.begin, Books.live_enroll] at hb
    exact h.known b hb

/-- A scan that gives up its context is not in care any more. -/
theorem shut (h : Attributed a v) (hx : v.scans[i]? = some x) :
    Attributed a (v.put i (v.books.discharge x.allocator x.id) true x.held) := by
  have hbooks : Attributed a { v with books := v.books.discharge x.allocator x.id } :=
    h.shrink _ fun _ => ⟨List.filter_sublist, .refl _⟩
  refine hbooks.put hx (.inr fun hi => ?_)
  obtain ⟨hmem, hnot⟩ := Books.mem_contexts_discharge.mp hi
  obtain ⟨y, hy, hallocator, -⟩ := h.opened i hmem
  obtain rfl : x = y := Option.some.inj (hx.symm.trans hy)
  exact hnot ⟨hallocator, (h.numbered i x hx).symm⟩

theorem routine (h : Attributed a v) (hv : Routine v v') : Attributed a v' := by
  cases hv with
  | join hc => exact h.join hc
  | handOut => exact h.handOut _
  | begin => exact h.begin _
  | enter hx => exact (h.handOut _).put hx (.inl rfl)
  | leave hx => exact (h.takeBack _ _).put hx (.inl rfl)
  | shut hx => exact h.shut hx

theorem change (h : Attributed a v) (hv : Change (· ≠ a) v v') : Attributed a v' := by
  cases hv with
  | routine hv => exact h.routine hv
  | @enroll a' i ha =>
    have hcontexts : (v.books.enroll a' i).contexts a = v.books.contexts a := by
      rw [Books.contexts, Books.enroll, Books.care?_alter_of_ne ha, Books.contexts]
    exact h.withBooks (by simp [hcontexts]) (by simp [Books.live_enroll]) (Nat.le_refl _)
  | shrink a' hf => exact h.shrink a' hf
  | addTitle a' => exact h.withBooks (.refl _) (.refl _) (by simp [Books.addTitle])
  | markReleased b => exact h.markReleased b

theorem changes (h : Attributed a v) (hv : ReflTransGen (Change (· ≠ a)) v v') :
    Attributed a v' := by
  induction hv with
  | refl => exact h
  | tail _ hstep ih => exact ih.change hstep

end Attributed

/-! ## Closed scans -/

/-- A scan is closed. -/
def IsShut (v : Estate) (i : ScanId) : Prop := ∃ x, v.scans[i]? = some x ∧ x.closed = true

theorem IsShut.put {books : Books} {j : ScanId} (h : v.IsShut i)
    (hclosed : ∀ x, v.scans[j]? = some x → x.closed = true → closed = true) :
    (v.put j books closed held).IsShut i := by
  obtain ⟨x, hx, hshut⟩ := h
  by_cases hj : j = i
  · subst hj
    exact ⟨_, scans_put_self hx, hclosed x hx hshut⟩
  · exact ⟨x, (scans_put_of_ne hj).trans hx, hshut⟩

theorem IsShut.change (h : v.IsShut i) (hv : Change free v v') : v'.IsShut i := by
  cases hv with
  | routine hv =>
    cases hv with
    | join | handOut => exact h
    | begin =>
      obtain ⟨x, hx, hshut⟩ := h
      refine ⟨x, ?_, hshut⟩
      rw [Estate.begin, List.getElem?_append_left (List.getElem?_eq_some_iff.mp hx).1]
      exact hx
    | enter hx | leave hx =>
      refine h.put fun y hy hshut => ?_
      rwa [Option.some.inj (hx.symm.trans hy)]
    | shut => exact h.put fun _ _ _ => rfl
  | enroll | shrink | addTitle | markReleased => exact h

theorem IsShut.changes (h : v.IsShut i) (hv : ReflTransGen (Change free) v v') : v'.IsShut i := by
  induction hv with
  | refl => exact h
  | tail _ hstep ih => exact ih.change hstep

end Estate

end MiniLex
