import MiniLex.Proofs.Memory.Cares

/-!
# Books in order

Where buffers are handed out and given back by their owners only, the buffers in
the care of an arena are exactly those that it owns and that have not been given
back, and a closed arena has nothing in its care (`Books.InOrder`). What may
happen to allocators and buffers in general is that they become more
(`Books.Grows`).
-/

namespace MiniLex.Books

variable {v w : Books} {a a' : AllocatorId} {b b' : BufferId} {i : ScanId} {f : Care → Care}
  {c : Option Care} {t : Title} {r : Bool}

/-! ## Buffers and their owners -/

/-- The title of a buffer, if there is one. -/
def title? (v : Books) (b : BufferId) : Option Title := v.titles[b]?

theorem title?_markReleased : (v.markReleased b).title? b' =
    (v.title? b').map fun t => if b = b' then { t with released := true } else t := by
  rw [title?, markReleased, List.getElem?_modify, title?]
  split <;> simp

theorem title?_takeBack : (v.takeBack a b).title? b' =
    (v.title? b').map fun t => if b = b' then { t with released := true } else t :=
  title?_markReleased

theorem title?_handOut : (v.handOut a).title? b = some t ↔
    v.title? b = some t ∨ b = v.titles.length ∧ t = ⟨a, false⟩ := by
  show (v.titles ++ [⟨a, false⟩])[b]? = some t ↔ _
  rw [title?]
  rcases Nat.lt_trichotomy b v.titles.length with hb | rfl | hb
  · rw [List.getElem?_append_left hb]
    simp [Nat.ne_of_lt hb]
  · rw [List.getElem?_concat_length]
    simp [eq_comm]
  · rw [List.getElem?_eq_none (by simpa [Nat.succ_le_iff] using hb),
      List.getElem?_eq_none (Nat.le_of_lt hb)]
    simp [Nat.ne_of_gt hb]

/-- Allocators and buffers become more; none changes its kind or its owner. -/
structure Grows (v w : Books) : Prop where
  cares : v.cares.length ≤ w.cares.length
  owners : ∀ {b a r}, v.title? b = some ⟨a, r⟩ → ∃ r', w.title? b = some ⟨a, r'⟩
  isArena : ∀ {a}, a < v.cares.length → w.IsArena a → v.IsArena a

theorem length_alter : (v.alter a f).cares.length = v.cares.length := by simp [alter]

theorem grows_alter : v.Grows (v.alter a f) where
  cares := Nat.le_of_eq length_alter.symm
  owners hb := ⟨_, hb⟩
  isArena _ := isArena_alter.mp

theorem grows_join : v.Grows (v.join c) where
  cares := by simp [join]
  owners hb := ⟨_, hb⟩
  isArena ha h := by rwa [IsArena, care?_join, if_neg (Nat.ne_of_lt ha)] at h

theorem grows_handOut : v.Grows (v.handOut a) where
  cares := (grows_alter (v := v)).cares
  owners hb := ⟨_, title?_handOut.mpr (.inl hb)⟩
  isArena _ h := isArena_alter.mp h

theorem grows_takeBack : v.Grows (v.takeBack a b) where
  cares := (grows_alter (v := v)).cares
  owners {b' a' r} hb := by
    rw [title?_takeBack, hb]
    split <;> exact ⟨_, rfl⟩
  isArena _ h := isArena_alter.mp h

/-- An allocator has given up everything in its care, and these buffers have been given back. -/
def giveUp (v : Books) (a : AllocatorId) (bs : List BufferId) : Books where
  cares := (v.alter a fun c => { c with contexts := [], live := [] }).cares
  titles := v.titles.mapIdx fun b t => if b ∈ bs then { t with released := true } else t

variable {bs : List BufferId}

theorem title?_giveUp : (v.giveUp a bs).title? b =
    (v.title? b).map fun t => if b ∈ bs then { t with released := true } else t := by
  simp [title?, giveUp]

theorem contexts_giveUp :
    (v.giveUp a bs).contexts a' = if a = a' then [] else v.contexts a' := by
  show (v.alter a _).contexts a' = _
  rw [contexts, care?_alter, contexts]
  by_cases ha : a = a'
  · subst ha
    cases hc : v.care? a <;> simp
  · simp [ha]

theorem live_giveUp : (v.giveUp a bs).live a' = if a = a' then [] else v.live a' := by
  show (v.alter a _).live a' = _
  rw [live, care?_alter, live]
  by_cases ha : a = a'
  · subst ha
    cases hc : v.care? a <;> simp
  · simp [ha]

theorem open_giveUp : (v.giveUp a bs).Open a' ↔ v.Open a' := open_alter fun _ => rfl

theorem grows_giveUp : v.Grows (v.giveUp a bs) where
  cares := (grows_alter (v := v)).cares
  owners hb := by
    rw [title?_giveUp, hb]
    split <;> exact ⟨_, rfl⟩
  isArena _ h := isArena_alter.mp h

/-- An arena is closed. -/
def close (v : Books) (a : AllocatorId) : Books := v.alter a fun c => { c with closed := true }

theorem contexts_close : (v.close a).contexts a' = v.contexts a' := contexts_alter fun _ => rfl

theorem live_close : (v.close a).live a' = v.live a' := live_alter fun _ => rfl

/-! ## Order -/

/-- Every buffer has an owner that there is. The buffers in the care of an arena are those that it
owns and that have not been given back, and there is nothing in the care of a closed one. -/
structure InOrder (v : Books) : Prop where
  owners : ∀ {b t}, v.title? b = some t → t.owner < v.cares.length
  live : ∀ {a}, v.IsArena a → ∀ b, b ∈ v.live a ↔ v.title? b = some ⟨a, false⟩
  closed : ∀ a, v.Open a ∨ v.contexts a = [] ∧ v.live a = []

namespace InOrder

theorem join (h : v.InOrder) (hc : ∀ y ∈ c, y = ⟨false, [], []⟩) : (v.join c).InOrder where
  owners hb := Nat.lt_of_lt_of_le (h.owners hb) grows_join.cares
  live {a} ha b := by
    rw [live_join hc]
    by_cases hlt : a < v.cares.length
    · exact h.live (grows_join.isArena hlt ha) b
    · -- The new allocator owns no buffer yet.
      have hlive : v.live a = [] := by
        rw [Books.live, care?_of_le (Nat.le_of_not_lt hlt)]
        rfl
      rw [hlive]
      exact ⟨fun hb => absurd hb List.not_mem_nil, fun hb => absurd (h.owners hb) hlt⟩
  closed a := by
    rw [contexts_join hc, live_join hc]
    refine (h.closed a).imp_left fun hopen y hy => ?_
    rw [care?_join] at hy
    split at hy
    · rw [hc y hy]
    · exact hopen y hy

/-- The books after a change that keeps what is closed closed, and adds nothing to its care. -/
theorem closed_of (h : v.InOrder) (hw : ∀ a, v.Open a → w.Open a)
    (hcare : ∀ a, ¬v.Open a → (∀ i ∈ w.contexts a, i ∈ v.contexts a) ∧ ∀ b ∈ w.live a, b ∈ v.live a)
    (a : AllocatorId) : w.Open a ∨ w.contexts a = [] ∧ w.live a = [] := by
  by_cases hopen : v.Open a
  · exact .inl (hw a hopen)
  · obtain ⟨hcontexts, hlive⟩ := (h.closed a).resolve_left hopen
    obtain ⟨hc, hl⟩ := hcare a hopen
    rw [hcontexts] at hc
    rw [hlive] at hl
    exact .inr ⟨List.eq_nil_iff_forall_not_mem.mpr fun i hi => List.not_mem_nil (hc i hi),
      List.eq_nil_iff_forall_not_mem.mpr fun b hb => List.not_mem_nil (hl b hb)⟩

/-- Only an open allocator hands buffers out. -/
theorem handOut (h : v.InOrder) (ha : a < v.cares.length) (hopen : v.Open a) :
    (v.handOut a).InOrder where
  owners hb := by
    refine Nat.lt_of_lt_of_le ?_ (grows_handOut (v := v)).cares
    rcases title?_handOut.mp hb with hb | ⟨-, rfl⟩
    · exact h.owners hb
    · exact ha
  live {a'} ha' b := by
    have harena : v.IsArena a' := isArena_alter.mp ha'
    rw [mem_live_handOut, title?_handOut, h.live harena, Title.mk.injEq]
    refine or_congr_right ⟨fun ⟨haa, _, hb⟩ => ⟨hb, haa.symm, rfl⟩, fun ⟨hb, haa, _⟩ => ?_⟩
    exact ⟨haa.symm, haa ▸ harena, hb⟩
  closed := by
    refine h.closed_of (fun _ => open_handOut.mpr) fun a' hnot => ⟨fun i hi => ?_, fun b hb => ?_⟩
    · rwa [contexts_handOut] at hi
    · rcases mem_live_handOut.mp hb with hb | ⟨rfl, -, -⟩
      · exact hb
      · exact absurd hopen hnot

/-- A buffer is given back to its owner. -/
theorem takeBack (h : v.InOrder) (hb : v.title? b = some ⟨a, r⟩) : (v.takeBack a b).InOrder where
  owners {b' t} hb' := by
    refine Nat.lt_of_lt_of_le ?_ (grows_takeBack (v := v)).cares
    obtain ⟨t', ht', rfl⟩ := Option.map_eq_some_iff.mp (title?_takeBack ▸ hb')
    have howner := h.owners ht'
    split <;> exact howner
  live {a'} ha' b' := by
    rw [mem_live_takeBack, title?_takeBack, h.live (isArena_alter.mp ha')]
    by_cases hbb : b = b'
    · subst hbb
      simp only [hb, Option.map_some, if_true, Option.some.injEq, Title.mk.injEq]
      grind
    · simp [hbb, Ne.symm hbb]
  closed := by
    refine h.closed_of (fun _ => open_takeBack.mpr) fun a' _ => ⟨fun i hi => ?_, fun b' hb' => ?_⟩
    · rwa [contexts_takeBack] at hi
    · exact (mem_live_takeBack.mp hb').1

/-- Only an open allocator takes a context in care. -/
theorem enroll (h : v.InOrder) (hopen : v.Open a) : (v.enroll a i).InOrder where
  owners hb := Nat.lt_of_lt_of_le (h.owners hb) grows_alter.cares
  live ha b := by
    rw [live_enroll]
    exact h.live (isArena_alter.mp ha) b
  closed := by
    refine h.closed_of (fun _ => open_enroll.mpr) fun a' hnot => ⟨fun j hj => ?_, fun b hb => ?_⟩
    · rcases mem_contexts_enroll.mp hj with hj | ⟨rfl, -, -⟩
      · exact hj
      · exact absurd hopen hnot
    · rwa [live_enroll] at hb

theorem discharge (h : v.InOrder) : (v.discharge a i).InOrder where
  owners hb := Nat.lt_of_lt_of_le (h.owners hb) grows_alter.cares
  live ha b := by
    rw [live_discharge]
    exact h.live (isArena_alter.mp ha) b
  closed := by
    refine h.closed_of (fun _ => open_discharge.mpr) fun a' _ => ⟨fun j hj => ?_, fun b hb => ?_⟩
    · exact (mem_contexts_discharge.mp hj).1
    · rwa [live_discharge] at hb

/-- An arena gives up everything in its care, and so do those who hold its buffers. -/
theorem giveUp (h : v.InOrder) (hown : ∀ b ∈ bs, ∃ r, v.title? b = some ⟨a, r⟩)
    (hall : ∀ b ∈ v.live a, b ∈ bs) : (v.giveUp a bs).InOrder where
  owners hb := by
    refine Nat.lt_of_lt_of_le ?_ (grows_giveUp (v := v)).cares
    obtain ⟨t', ht', rfl⟩ := Option.map_eq_some_iff.mp (title?_giveUp ▸ hb)
    have howner := h.owners ht'
    split <;> exact howner
  live {a'} ha' b := by
    have hlive := h.live (isArena_alter.mp ha') b
    rw [live_giveUp, title?_giveUp]
    by_cases ha : a = a'
    · subst ha
      rw [if_pos rfl]
      refine ⟨nofun, fun hb => ?_⟩
      obtain ⟨t, ht, hreleased⟩ := Option.map_eq_some_iff.mp hb
      split at hreleased
      · cases hreleased
      · next hnot => exact absurd (hall b (hlive.mpr (ht.trans (by rw [hreleased])))) hnot
    · rw [if_neg ha, hlive]
      by_cases hb : b ∈ bs
      · obtain ⟨r, hr⟩ := hown b hb
        simp [hr, hb, ha]
      · simp [hb]
  closed := by
    refine h.closed_of (fun _ => open_giveUp.mpr) fun a' _ => ⟨fun i hi => ?_, fun b hb => ?_⟩
    · rw [contexts_giveUp] at hi
      split at hi
      · cases hi
      · exact hi
    · rw [live_giveUp] at hb
      split at hb
      · cases hb
      · exact hb

/-- An arena with nothing in its care is closed. -/
theorem close (h : v.InOrder) (hcontexts : v.contexts a = []) (hlive : v.live a = []) :
    (v.close a).InOrder where
  owners hb := Nat.lt_of_lt_of_le (h.owners hb) grows_alter.cares
  live ha b := by
    rw [live_close]
    exact h.live (isArena_alter.mp ha) b
  closed a' := by
    rw [contexts_close, live_close]
    by_cases ha : a = a'
    · exact .inr (ha ▸ ⟨hcontexts, hlive⟩)
    · refine (h.closed a').imp_left fun hopen => ?_
      rwa [Open, Books.close, care?_alter_of_ne ha]

end InOrder

end MiniLex.Books
