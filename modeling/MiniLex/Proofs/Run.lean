/-!
# Running actions step by step

What an action does that is put together from others, from what these do in
turn. The lemmas `run_…` follow an action from the state in which it starts;
the lemmas `of_…` go back from its result to the results of its parts. Where
only some of the state is of interest, `Moves` and `Keeps` say what an action
does to that, whatever the result, and `Leads` what holds of the state after it;
`FailsOnly` says with what it may fail.
-/

namespace MiniLex

variable {ε σ α β : Type} {x : EStateM ε σ α} {m m' m₁ : σ} {a : α} {b : β} {e : ε}

/-! ## One action after another -/

theorem run_bind_ok {f : α → EStateM ε σ β} (h : x m = .ok a m') : (x >>= f) m = f a m' := by
  simp only [bind, EStateM.bind, h]

theorem run_bind_error {f : α → EStateM ε σ β} (h : x m = .error e m') :
    (x >>= f) m = .error e m' := by
  simp only [bind, EStateM.bind, h]

theorem run_bind_get {f : σ → EStateM ε σ β} (m : σ) : (get >>= f) m = f m m := rfl

theorem run_bind_modify {f : PUnit → EStateM ε σ β} (g : σ → σ) (m : σ) :
    (modify g >>= f) m = f ⟨⟩ (g m) := rfl

/-- The handler goes on from what the action has left. -/
theorem run_tryCatch {g : ε → EStateM ε σ α} (m : σ) : (tryCatch x g) m = match x m with
    | .ok a m' => .ok a m'
    | .error e m' => g e m' := by
  show EStateM.tryCatch x g m = _
  delta EStateM.tryCatch
  cases x m <;> rfl

theorem of_bind_ok {f : α → EStateM ε σ β} (h : (x >>= f) m = .ok b m') :
    ∃ a m₁, x m = .ok a m₁ ∧ f a m₁ = .ok b m' := by
  simp only [bind, EStateM.bind] at h
  cases hx : x m with
  | ok a m₁ => exact ⟨a, m₁, rfl, by rwa [hx] at h⟩
  | error e m₁ =>
    rw [hx] at h
    cases h

theorem of_bind_error {f : α → EStateM ε σ β} (h : (x >>= f) m = .error e m') :
    x m = .error e m' ∨ ∃ a m₁, x m = .ok a m₁ ∧ f a m₁ = .error e m' := by
  simp only [bind, EStateM.bind] at h
  cases hx : x m with
  | ok a m₁ => exact .inr ⟨a, m₁, rfl, by rwa [hx] at h⟩
  | error e₁ m₁ =>
    rw [hx] at h
    cases h
    exact .inl rfl

/-! ## What an action leaves, whether it fails or not -/

/-- The state that an action leaves. -/
def leftBy (x : EStateM ε σ α) (m : σ) : σ :=
  match x m with
  | .ok _ m' | .error _ m' => m'

/-- What is seen of the state before an action is related to what is seen after it, also if the
action fails. -/
def Moves {γ : Type} (view : σ → γ) (R : γ → γ → Prop) (x : EStateM ε σ α) : Prop :=
  ∀ m, R (view m) (view (leftBy x m))

/-- What is seen of the state is the same after an action, also if the action fails. -/
def Keeps {γ : Type} (view : σ → γ) (x : EStateM ε σ α) : Prop := Moves view Eq x

section Left

variable {γ : Type} {view : σ → γ} {R : γ → γ → Prop} {f : α → EStateM ε σ β}

theorem leftBy_of_ok (h : x m = .ok a m') : leftBy x m = m' := by rw [leftBy, h]

theorem leftBy_of_error (h : x m = .error e m') : leftBy x m = m' := by rw [leftBy, h]

theorem leftBy_bind_ok (h : x m = .ok a m') : leftBy (x >>= f) m = leftBy (f a) m' := by
  rw [leftBy, run_bind_ok h, leftBy]

theorem leftBy_bind_get {f : σ → EStateM ε σ β} (m : σ) : leftBy (get >>= f) m = leftBy (f m) m :=
  rfl

theorem leftBy_bind_error (h : x m = .error e m') : leftBy (x >>= f) m = m' :=
  leftBy_of_error (run_bind_error h)

theorem leftBy_bind_pure (x : EStateM ε σ α) (g : α → β) (m : σ) :
    leftBy (do let a ← x; return g a) m = leftBy x m := by
  cases h : x m with
  | ok a m' => rw [leftBy_bind_ok h, leftBy_of_ok h]; rfl
  | error e m' => rw [leftBy_bind_error h, leftBy_of_error h]

theorem leftBy_bind_return (x : EStateM ε σ α) (m : σ) :
    leftBy (do let _ ← x; return) m = leftBy x m := leftBy_bind_pure x (fun _ => PUnit.unit) m

/-- Two moves in turn are one, where the relation is transitive. -/
theorem Moves.bind (hR : ∀ {u v w}, R u v → R v w → R u w) (hx : Moves view R x)
    (hf : ∀ a, Moves view R (f a)) : Moves view R (x >>= f) := by
  intro m
  have hmoved := hx m
  cases h : x m with
  | ok a m₁ =>
    rw [leftBy_of_ok h] at hmoved
    rw [leftBy_bind_ok h]
    exact hR hmoved (hf a m₁)
  | error e m₁ =>
    rw [leftBy_of_error h] at hmoved
    rwa [leftBy_bind_error h]

theorem Keeps.bind (hx : Keeps view x) (hf : ∀ a, Keeps view (f a)) : Keeps view (x >>= f) :=
  Moves.bind Eq.trans hx hf

theorem Keeps.moves (hR : ∀ v, R v v) (hx : Keeps view x) : Moves view R x := by
  intro m
  rw [← hx m]
  exact hR _

theorem keeps_pure (a : α) : Keeps view (pure a : EStateM ε σ α) := fun _ => rfl

theorem keeps_throw (e : ε) : Keeps view (throw e : EStateM ε σ α) := fun _ => rfl

theorem keeps_get : Keeps view (get : EStateM ε σ σ) := fun _ => rfl

theorem keeps_modify {g : σ → σ} (hg : ∀ m, view (g m) = view m) :
    Keeps view (modify g : EStateM ε σ PUnit) := fun m => (hg m).symm

end Left

/-! ## What holds after an action, whether it fails or not -/

/-- From every state of one kind an action leads to one of another, also if it fails. -/
def Leads (P Q : σ → Prop) (x : EStateM ε σ α) : Prop := ∀ m, P m → Q (leftBy x m)

section Leads

variable {P Q R : σ → Prop} {f : α → EStateM ε σ β}

/-- The first of two actions may fail, so where it leads has to be of the last kind already. -/
theorem Leads.bind (hx : Leads P Q x) (hf : ∀ a, Leads Q R (f a)) (hQ : ∀ m, Q m → R m) :
    Leads P R (x >>= f) := by
  intro m hm
  have hmid := hx m hm
  cases h : x m with
  | ok a m₁ =>
    rw [leftBy_of_ok h] at hmid
    rw [leftBy_bind_ok h]
    exact hf a m₁ hmid
  | error e m₁ =>
    rw [leftBy_of_error h] at hmid
    rw [leftBy_bind_error h]
    exact hQ m₁ hmid

/-- Where an action leads, it leads still if the next one keeps to states of that kind. -/
theorem Leads.seq (hx : Leads P Q x) (hf : ∀ a, Leads Q Q (f a)) : Leads P Q (x >>= f) :=
  hx.bind hf fun _ h => h

theorem Leads.mono (hx : Leads P Q x) (hQ : ∀ m, Q m → R m) : Leads P R x :=
  fun m hm => hQ _ (hx m hm)

/-- The handler goes on from where the action has led. -/
theorem Leads.tryCatch {g : ε → EStateM ε σ α} (hx : Leads P Q x) (hg : ∀ e, Leads Q Q (g e)) :
    Leads P Q (tryCatch x g) := by
  intro m hm
  have hmid := hx m hm
  rw [leftBy, run_tryCatch]
  cases h : x m with
  | ok a m₁ => rwa [leftBy_of_ok h] at hmid
  | error e m₁ =>
    rw [leftBy_of_error h] at hmid
    exact hg e m₁ hmid

theorem leads_pure (a : α) : Leads P P (pure a : EStateM ε σ α) := fun _ h => h

theorem leads_throw (e : ε) : Leads P P (throw e : EStateM ε σ α) := fun _ h => h

theorem leads_get : Leads P P (get : EStateM ε σ σ) := fun _ h => h

end Leads

/-! ## Why an action fails -/

/-- All errors with which an action may fail are such. -/
def FailsOnly (P : ε → Prop) (x : EStateM ε σ α) : Prop := ∀ m e m', x m = .error e m' → P e

section Fails

variable {P : ε → Prop}

theorem FailsOnly.bind {f : α → EStateM ε σ β} (hx : FailsOnly P x) (hf : ∀ a, FailsOnly P (f a)) :
    FailsOnly P (x >>= f) := by
  intro m e m' h
  rcases of_bind_error h with h | ⟨a, m₁, -, h⟩
  · exact hx m e m' h
  · exact hf a m₁ e m' h

theorem failsOnly_pure (a : α) : FailsOnly P (pure a : EStateM ε σ α) := nofun

theorem failsOnly_get : FailsOnly P (get : EStateM ε σ σ) := nofun

theorem failsOnly_modify (g : σ → σ) : FailsOnly P (modify g : EStateM ε σ PUnit) := nofun

theorem failsOnly_throw (h : P e) : FailsOnly P (throw e : EStateM ε σ α) := by
  intro m e' m' he
  cases he
  exact h

end Fails

/-! ## An action that is done whatever happens -/

variable {f : EStateM ε σ β}

theorem leftBy_tryFinally : leftBy (tryFinally x f) m = leftBy f (leftBy x m) := by
  simp only [leftBy, tryFinally, tryFinally', Functor.map, EStateM.map]
  cases hx : x m with
  | ok a m₁ | error e m₁ => cases hf : f m₁ <;> simp only [hf]

theorem run_tryFinally_ok (hx : x m = .ok a m₁) (hf : f m₁ = .ok b m') :
    (tryFinally x f) m = .ok a m' := by
  simp only [tryFinally, tryFinally', Functor.map, EStateM.map, hx, hf]

theorem run_tryFinally_error (hx : x m = .error e m₁) (hf : f m₁ = .ok b m') :
    (tryFinally x f) m = .error e m' := by
  simp only [tryFinally, tryFinally', Functor.map, EStateM.map, hx, hf]

theorem of_tryFinally_ok (h : (tryFinally x f) m = .ok a m') :
    ∃ b m₁, x m = .ok a m₁ ∧ f m₁ = .ok b m' := by
  simp only [tryFinally, tryFinally', Functor.map, EStateM.map] at h
  cases hx : x m with
  | ok a' m₁ =>
    cases hf : f m₁ with
    | ok b m₂ =>
      simp only [hx, hf] at h
      cases h
      exact ⟨b, m₁, rfl, hf⟩
    | error e m₂ =>
      simp only [hx, hf] at h
      cases h
  | error e m₁ =>
    cases hf : f m₁ <;> simp only [hx, hf] at h <;> cases h

/-- The error is that of the action, unless what is done whatever happens fails. -/
theorem of_tryFinally_error (h : (tryFinally x f) m = .error e m') :
    (∃ m₁, x m = .error e m₁) ∨ ∃ m₁, f m₁ = .error e m' := by
  simp only [tryFinally, tryFinally', Functor.map, EStateM.map] at h
  cases hx : x m with
  | ok a m₁ =>
    cases hf : f m₁ with
    | ok b m₂ =>
      simp only [hx, hf] at h
      cases h
    | error e m₂ =>
      simp only [hx, hf] at h
      cases h
      exact .inr ⟨m₁, hf⟩
  | error e' m₁ =>
    cases hf : f m₁ with
    | ok b m₂ =>
      simp only [hx, hf] at h
      cases h
      exact .inl ⟨m₁, rfl⟩
    | error e m₂ =>
      simp only [hx, hf] at h
      cases h
      exact .inr ⟨m₁, hf⟩

end MiniLex
