import MiniLex.Proofs.Memory.Lent
import MiniLex.Proofs.Store.Lasting

/-!
# Buffers that a program obtains

A program obtains a buffer from the heap or from an arena, appends to it and
clears it, until it is given back by the program or together with everything
else in the care of the arena. What an operation does to it is
`Lends.perform`: the buffer is given back, or holds what was written to it, and
has grown for that if need be. From this follows what a whole program does:

* `Lends.released_after`: once given back, the buffer stays as it is;
* `Lends.capacity_le_after`: it never shrinks;
* `Lends.unreleased_after`: until it is given back, it holds the text written to
  it, and its capacity suits the greatest length of that text.
-/

namespace MiniLex

/-! ## What is written to a buffer -/

/-- The text of a buffer after an operation, which may append to it or clear it. -/
def Operation.write (b : BufferId) (op : Operation) (t : Text) : Text :=
  match op with
  | append c u => if c = b then t ++ u else t
  | clear c => if c = b then [] else t
  | _ => t

/-- The text of a buffer after operations. -/
def writtenTo (b : BufferId) (t : Text) (ops : List Operation) : Text :=
  ops.foldl (fun t op => op.write b t) t

/-- The greatest length of the text of a buffer, from before the operations on. -/
def longestIn (b : BufferId) : Text → List Operation → Nat
  | t, [] => t.length
  | t, op :: ops => max t.length (longestIn b (op.write b t) ops)

theorem length_le_longestIn (b : BufferId) (t : Text) (ops : List Operation) :
    t.length ≤ longestIn b t ops := by
  cases ops with
  | nil => exact Nat.le_refl _
  | cons op ops => exact Nat.le_max_left _ _

/-- An operation that does not spare a buffer appends to it or clears it. -/
theorem Operation.spares_or {b : BufferId} (op : Operation) :
    op.Spares (· ≠ b) ∨ (∃ u, op = append b u) ∨ op = clear b := by
  cases op with
  | append c u =>
    by_cases hc : c = b
    · exact .inr (.inl ⟨u, by rw [hc]⟩)
    · exact .inl hc
  | clear c =>
    by_cases hc : c = b
    · exact .inr (.inr (by rw [hc]))
    · exact .inl hc
  | _ => exact .inl trivial

theorem Operation.write_of_spares {b : BufferId} {op : Operation} (h : op.Spares (· ≠ b))
    (t : Text) : op.write b t = t := by
  cases op with
  | append c u => exact if_neg h
  | clear c => exact if_neg h
  | _ => rfl

/-- What an operation makes of a buffer: it is given back, or holds what the operation has written,
and has grown for that if need be. -/
def Buffer.Becomes (y : Buffer) (b : BufferId) (op : Operation) (y' : Buffer) : Prop :=
  y' = y.markReleased ∨ y.released = false ∧ y' = y.refill (op.write b y.text)

/-- A buffer that has been given back is as if it had just been. -/
theorem Buffer.becomes_refill {b : BufferId} {op : Operation} {y : Buffer}
    (hempty : y.released = true → y.text = [])
    (hsame : y.released = false → y.refill (op.write b y.text) = y) : y.Becomes b op y := by
  cases hr : y.released with
  | true => exact .inl (markReleased_of_released hr (hempty hr)).symm
  | false => exact .inr ⟨hr, (hsame hr).symm⟩

namespace Store

open Memory (Lent enduring_lent lent_of_allocate)

variable {st st' : Store} {a : AllocatorId} {b : BufferId} {c : Int} {n : Nat}

/-- A buffer was lent out, and no scan holds it. It is not too full, and empty if it has been given
back. -/
structure Lends (a : AllocatorId) (b : BufferId) (st : Store) : Prop where
  apart : Apart (Lent a b (st.host.memory.buffer b)) (· ≠ b) st
  covers : (st.host.memory.buffer b).Covers
  emptied : (st.host.memory.buffer b).released = true → (st.host.memory.buffer b).text = []

theorem append_of_released (hr : (st.host.memory.buffer b).released = true) (u : Text) :
    (Operation.append b u).perform st = .error (.allocation .releasedBuffer) st := by
  have happend : Memory.append b u st.host.memory = .error .releasedBuffer st.host.memory := by
    rw [Memory.append, run_bind_get, if_pos hr]
    rfl
  exact onMemory_of_error happend

namespace Lends

/-- The buffer is given another text by hand. -/
theorem refilled {m : Memory} {t : Text} (h : Lends a b st)
    (hlength : m.buffers.length = st.host.memory.buffers.length)
    (hbuffer : m.buffer b = (st.host.memory.buffer b).refill t)
    (hlent : Lent a b ((st.host.memory.buffer b).refill t) m)
    (ht : (st.host.memory.buffer b).released = true → t = []) : Lends a b (st.withMemory m) where
  apart := by
    refine ⟨?_, ?_⟩
    · show Lent a b (m.buffer b) m
      rwa [hbuffer]
    · show st.HoldsOnly (· ≠ b) m.buffers.length
      rw [hlength]
      exact h.apart.2
  covers := by
    show (m.buffer b).Covers
    rw [hbuffer]
    exact Buffer.covers_refill _ t
  emptied := by
    show (m.buffer b).released = true → (m.buffer b).text = []
    rw [hbuffer]
    exact ht

/-- Nothing is done by hand to the buffer. -/
theorem spared {op : Operation} (h : Lends a b st) (hop : op.Spares (· ≠ b)) :
    Lends a b (leftBy op.perform st) ∧ (st.host.memory.buffer b).Becomes b op
      ((leftBy op.perform st).host.memory.buffer b) := by
  have hafter := h.apart.perform (enduring_lent a b (st.host.memory.buffer b)) hop
  generalize leftBy op.perform st = st' at hafter
  have hrebased : Apart (Lent a b (st'.host.memory.buffer b)) (· ≠ b) st' :=
    ⟨hafter.1.rebase, hafter.2⟩
  rcases hafter.1.content with hb | hb
  · refine ⟨⟨hrebased, hb ▸ h.covers, hb ▸ h.emptied⟩, ?_⟩
    rw [hb]
    refine Buffer.becomes_refill h.emptied fun _ => ?_
    rw [Operation.write_of_spares hop, Buffer.refill_self h.covers]
  · refine ⟨⟨hrebased, ?_, ?_⟩, .inl hb⟩ <;> rw [hb]
    · exact Buffer.covers_markReleased _
    · exact fun _ => rfl

theorem appended (h : Lends a b st) (u : Text) :
    Lends a b (leftBy (Operation.append b u).perform st) ∧
      (st.host.memory.buffer b).Becomes b (.append b u)
        ((leftBy (Operation.append b u).perform st).host.memory.buffer b) := by
  cases hr : (st.host.memory.buffer b).released with
  | true =>
    rw [leftBy_of_error (append_of_released hr u)]
    exact ⟨h, Buffer.becomes_refill h.emptied fun hunreleased => absurd hunreleased (by simp [hr])⟩
  | false =>
    obtain ⟨m, hrun, hlength, hbuffer, hlent⟩ := h.apart.1.append h.covers hr u
    have hleft : leftBy (Operation.append b u).perform st = st.withMemory m := by
      rw [Operation.perform, leftBy_onMemory, leftBy_of_ok hrun]
    have hwrite : (Operation.append b u).write b (st.host.memory.buffer b).text =
        (st.host.memory.buffer b).text ++ u := if_pos rfl
    rw [hleft]
    refine ⟨h.refilled hlength hbuffer hlent fun hreleased => absurd hreleased (by simp [hr]),
      .inr ⟨hr, ?_⟩⟩
    rw [hwrite]
    exact hbuffer

theorem cleared (h : Lends a b st) :
    Lends a b (leftBy (Operation.clear b).perform st) ∧
      (st.host.memory.buffer b).Becomes b (.clear b)
        ((leftBy (Operation.clear b).perform st).host.memory.buffer b) := by
  have hleft : leftBy (Operation.clear b).perform st =
      st.withMemory (st.host.memory.updateBuffer b Buffer.clear) := rfl
  have hbuffer : (st.host.memory.updateBuffer b Buffer.clear).buffer b =
      (st.host.memory.buffer b).refill [] := Memory.buffer_updateBuffer_self _ h.apart.1.valid
  have hwrite : (Operation.clear b).write b (st.host.memory.buffer b).text = [] := if_pos rfl
  rw [hleft]
  refine ⟨h.refilled (List.length_modify ..) hbuffer h.apart.1.clear fun _ => rfl, ?_⟩
  cases hr : (st.host.memory.buffer b).released with
  | true =>
    refine .inl (hbuffer.trans ?_)
    rw [Buffer.markReleased_of_released hr (h.emptied hr), ← h.emptied hr,
      Buffer.refill_self h.covers]
  | false =>
    refine .inr ⟨hr, ?_⟩
    rw [hwrite]
    exact hbuffer

/-- An operation gives the buffer back, or writes to it what it says. -/
theorem perform (h : Lends a b st) (op : Operation) :
    Lends a b (leftBy op.perform st) ∧ (st.host.memory.buffer b).Becomes b op
      ((leftBy op.perform st).host.memory.buffer b) := by
  rcases op.spares_or (b := b) with hspares | ⟨u, rfl⟩ | rfl
  · exact h.spared hspares
  · exact h.appended u
  · exact h.cleared

/-! ## Whole programs -/

theorem after (h : Lends a b st) (ops : List Operation) : Lends a b (st.after ops) :=
  invariant_after (fun _ op h => (h.perform op).1) ops h

/-- A buffer that has been given back stays as it is. -/
theorem released_after (h : Lends a b st) (hr : (st.host.memory.buffer b).released = true)
    (ops : List Operation) : (st.after ops).host.memory.buffer b = st.host.memory.buffer b := by
  have hmarked := Buffer.markReleased_of_released hr (h.emptied hr)
  refine (invariant_after (I := fun s => Lends a b s ∧
    s.host.memory.buffer b = st.host.memory.buffer b) (fun s op hs => ?_) ops ⟨h, rfl⟩).2
  obtain ⟨hlends, hstep⟩ := hs.1.perform op
  rw [hs.2] at hstep
  rcases hstep with hstep | ⟨hunreleased, -⟩
  · exact ⟨hlends, hstep.trans hmarked⟩
  · exact absurd hunreleased (by simp [hr])

/-- A buffer never shrinks. -/
theorem capacity_le_after (h : Lends a b st) (ops : List Operation) :
    (st.host.memory.buffer b).capacity ≤ ((st.after ops).host.memory.buffer b).capacity := by
  refine (invariant_after (I := fun s => Lends a b s ∧
    (st.host.memory.buffer b).capacity ≤ (s.host.memory.buffer b).capacity)
    (fun s op hs => ?_) ops ⟨h, Int.le_refl _⟩).2
  obtain ⟨hlends, hstep⟩ := hs.1.perform op
  rcases hstep with hstep | ⟨-, hstep⟩ <;> refine ⟨hlends, hs.2.trans ?_⟩ <;> rw [hstep]
  · exact Int.le_refl _
  · exact le_roomFor _ _

/-- As long as a buffer has not been given back, it holds the text that was written to it, and has
grown for the longest text that it has held. -/
theorem unreleased_after (h : Lends a b st) (hn : (st.host.memory.buffer b).text.length ≤ n)
    (hc : Suits c n (st.host.memory.buffer b).capacity) {ops : List Operation}
    (hr : ((st.after ops).host.memory.buffer b).released = false) :
    ((st.after ops).host.memory.buffer b).text =
        writtenTo b (st.host.memory.buffer b).text ops ∧
      Suits c (max n (longestIn b (st.host.memory.buffer b).text ops))
        ((st.after ops).host.memory.buffer b).capacity := by
  induction ops generalizing st n with
  | nil =>
    rw [longestIn, Nat.max_eq_left hn]
    exact ⟨rfl, hc⟩
  | cons op ops ih =>
    obtain ⟨hlends, hstep | ⟨hunreleased, hstep⟩⟩ := h.perform op
    · have hstays := hlends.released_after (by rw [hstep]; rfl) ops
      rw [show st.after (op :: ops) = (leftBy op.perform st).after ops from rfl, hstays, hstep] at hr
      cases hr
    · let k := (op.write b (st.host.memory.buffer b).text).length
      obtain ⟨htext, hsuits⟩ := ih (n := max n k) hlends
        (by rw [hstep]; exact Nat.le_max_right ..) (by rw [hstep]; exact hc.roomFor k) hr
      have hk := length_le_longestIn b (op.write b (st.host.memory.buffer b).text) ops
      rw [hstep] at htext hsuits
      refine ⟨htext, ?_⟩
      have hmax : max n (longestIn b (st.host.memory.buffer b).text (op :: ops)) =
          max (max n k) (longestIn b (op.write b (st.host.memory.buffer b).text) ops) := by
        rw [longestIn]
        omega
      rw [hmax]
      exact hsuits

end Lends

/-- A buffer that is allocated is new, so no scan holds it. -/
theorem lends_of_allocate {before : List Operation}
    (ha : a < (initial.after before).host.memory.allocators.length)
    (hkind : ∀ r, (initial.after before).host.memory.allocator a ≠ .recorder r)
    (hr : onMemory (Memory.allocate a c) (initial.after before) = .ok b st) :
    Lends a b st ∧ st.host.memory.buffer b = .fresh a c := by
  have hheld := holdsOnly_after before
  generalize initial.after before = st₀ at *
  obtain ⟨m, hrun, rfl⟩ : ∃ m, Memory.allocate a c st₀.host.memory = .ok b m ∧
      st = st₀.withMemory m := by
    unfold onMemory at hr
    split at hr <;> cases hr
    exact ⟨_, ‹_›, rfl⟩
  obtain ⟨hlent, hfresh⟩ := lent_of_allocate ha hkind hrun
  have hnew := (Memory.books_allocate_ok hrun).1
  have hrebased : Lent a b ((st₀.withMemory m).host.memory.buffer b) m := hlent.rebase
  refine ⟨⟨⟨hrebased, fun i b' hb' => ?_⟩, ?_, ?_⟩, hfresh⟩
  · have hlt := (hheld i b' hb').1
    rw [← hnew] at hlt
    exact ⟨Nat.lt_trans hlt hlent.valid, Nat.ne_of_lt hlt⟩
  · exact .inl (by rw [show (st₀.withMemory m).host.memory.buffer b = _ from hfresh]; rfl)
  · intro hreleased
    rw [show (st₀.withMemory m).host.memory.buffer b = _ from hfresh] at hreleased
    cases hreleased

/-- An arena that has no buffers in its care, or is closed, has given back all that it lent out. -/
theorem Lends.released_of_arena {x : Arena} (h : Lends a b st)
    (ha : st.host.memory.allocator a = .arena x) (hx : x.live = [] ∨ x.closed = true) :
    (st.host.memory.buffer b).released = true := by
  cases hr : (st.host.memory.buffer b).released with
  | true => rfl
  | false =>
    obtain ⟨hopen, hlive⟩ := h.apart.1.live hr x ha
    rcases hx with hx | hx
    · rw [hx] at hlive
      cases hlive
    · rw [hx] at hopen
      cases hopen

/-- An arena gives a buffer back together with all others. -/
theorem Lends.releaseAll {x : Arena} (h : Lends a b st)
    (ha : st.host.memory.allocator a = .arena x) (hr : Store.releaseAll a st = .ok n st') :
    (st'.host.memory.buffer b).released = true := by
  have hlends := (h.perform (.releaseAll a)).1
  rw [Operation.perform, leftBy_bind_return, leftBy_of_ok hr] at hlends
  exact hlends.released_of_arena (allocator_of_releaseAll ha hr) (.inl rfl)

theorem Lends.closeArena {x : Arena} (h : Lends a b st)
    (ha : st.host.memory.allocator a = .arena x) (hr : Store.closeArena a st = .ok () st') :
    (st'.host.memory.buffer b).released = true := by
  have hlends := (h.perform (.closeArena a)).1
  rw [Operation.perform, leftBy_of_ok hr] at hlends
  exact hlends.released_of_arena (frozen_iff.mp (frozen_of_closeArena ha hr)) (.inr rfl)

/-- A text that is refused changes no buffer. -/
theorem buffers_of_refused {u : Text} {failure : Failure}
    (hr : (Operation.append b u).perform st = .error failure st') :
    st'.host.memory.buffers = st.host.memory.buffers := by
  rw [Operation.perform, onMemory] at hr
  split at hr <;> cases hr
  exact Memory.buffers_of_append_error ‹_›

/-- A buffer that the heap or an arena has allocated with capacity `c`, whatever the program does
afterwards. Until it is given back, it holds what was appended since it was last cleared, knows the
length of that and refuses no text, and its capacity is `c`, or, if its text was ever longer, the
least doubling of `c` that covers the longest one, in whatever pieces it was appended. It never
shrinks. It is given back by its allocator, alone or with all others, and when the arena is closed.
From then on it is empty and refuses every text. Where a text is refused, no buffer changes. -/
theorem buffer_lifetime {before : List Operation}
    (ha : a < (initial.after before).host.memory.allocators.length)
    (hkind : ∀ r, (initial.after before).host.memory.allocator a ≠ .recorder r)
    (hr : onMemory (Memory.allocate a c) (initial.after before) = .ok b st)
    (later : List Operation) :
    let st' := st.after later
    let y := st'.host.memory.buffer b
    (y.released = false →
      y.text = writtenTo b [] later ∧ y.length = (writtenTo b [] later).length ∧
      Suits c (longestIn b [] later) y.capacity ∧
      (∀ u, ∃ st'', (Operation.append b u).perform st' = .ok () st'') ∧
      ∀ later', longestIn b [] later' = longestIn b [] later →
        ((st.after later').host.memory.buffer b).released = false →
        ((st.after later').host.memory.buffer b).capacity = y.capacity) ∧
    (∀ more, y.capacity ≤ ((st'.after more).host.memory.buffer b).capacity) ∧
    (∀ b' u failure st'', (Operation.append b' u).perform st' = .error failure st'' →
      st''.host.memory.buffers = st'.host.memory.buffers) ∧
    (∃ st'', (Operation.release a b).perform st' = .ok () st'' ∧
      (st''.host.memory.buffer b).released = true) ∧
    (∀ x, st'.host.memory.allocator a = .arena x →
      (∀ n st'', releaseAll a st' = .ok n st'' → (st''.host.memory.buffer b).released = true) ∧
      ∀ st'', closeArena a st' = .ok () st'' → (st''.host.memory.buffer b).released = true) ∧
    (y.released = true → y.text = [] ∧ y.length = 0 ∧
      ∀ more, (st'.after more).host.memory.buffer b = y ∧ ∀ u, (Operation.append b u).perform (st'.after more) =
        .error (.allocation .releasedBuffer) (st'.after more)) := by
  intro st' y
  obtain ⟨hlends, hfresh⟩ := lends_of_allocate ha hkind hr
  have hafter : Lends a b st' := hlends.after later
  have hwritten : ∀ ops, ((st.after ops).host.memory.buffer b).released = false →
      ((st.after ops).host.memory.buffer b).text = writtenTo b [] ops ∧
        Suits c (longestIn b [] ops) ((st.after ops).host.memory.buffer b).capacity := by
    intro ops hunreleased
    have htold := hlends.unreleased_after (n := 0) (c := c) (by rw [hfresh]; exact Nat.le_refl 0)
      (by rw [hfresh]; exact .self c) hunreleased
    rwa [hfresh, show (Buffer.fresh a c).text = [] from rfl, Nat.max_eq_right (Nat.zero_le _)]
      at htold
  refine ⟨fun hunreleased => ?_, hafter.capacity_le_after, fun _ _ _ _ => buffers_of_refused, ?_,
    fun x hx => ⟨fun _ _ => hafter.releaseAll hx, fun _ => hafter.closeArena hx⟩,
    fun hreleased => ?_⟩
  · obtain ⟨htext, hsuits⟩ := hwritten later hunreleased
    refine ⟨htext, htext ▸ y.length_eq, hsuits, fun u => ?_, fun later' hsame hunreleased' => ?_⟩
    · obtain ⟨m, hrun, -⟩ := hafter.apart.1.append hafter.covers hunreleased u
      exact ⟨_, onMemory_run hrun⟩
    · have hsuits' := (hwritten later' hunreleased').2
      rw [hsame] at hsuits'
      exact hsuits'.unique hsuits
  · obtain ⟨m, hrun, hreleased⟩ := hafter.apart.1.release
    exact ⟨_, onMemory_run hrun, hreleased⟩
  · have hempty := hafter.emptied hreleased
    refine ⟨hempty, by rw [y.length_eq, hempty, List.length_nil], fun more => ?_⟩
    have hstays := hafter.released_after hreleased more
    exact ⟨hstays, append_of_released (by rw [hstays]; exact hreleased)⟩

/-- A buffer of an arena, for which a capacity less than 0 was asked. The longest text in it has 3
characters, so its capacity is 4. Then the arena is closed. -/
theorem buffer_lifetime_negative_capacity :
    let st₀ := initial.after [.newArena "scope"]
    let later : List Operation := [.append 0 [], .append 0 ['a', 'b'], .append 0 ['c'], .clear 0,
      .append 0 ['d']]
    ∃ st, onMemory (Memory.allocate 1 (-3)) st₀ = .ok 0 st ∧
      ((st.after later).host.memory.buffer 0).text = ['d'] ∧
      Suits (-3) 3 ((st.after later).host.memory.buffer 0).capacity ∧
      ∀ u, ∃ failure st', (Operation.append 0 u).perform (st.after (later ++ [.closeArena 1])) =
        .error failure st' := by
  intro st₀ later
  have ha : 1 < st₀.host.memory.allocators.length := by decide
  have hkind : ∀ r, st₀.host.memory.allocator 1 ≠ .recorder r := nofun
  obtain ⟨st, hr, hst⟩ : ∃ st, onMemory (Memory.allocate 1 (-3)) st₀ = .ok 0 st ∧
      st = initial.after [.newArena "scope", .allocate 1 (-3)] := ⟨_, rfl, rfl⟩
  obtain ⟨htext, -, hsuits, -, -⟩ := (buffer_lifetime ha hkind hr later).1
    (by rw [hst]; decide +kernel)
  obtain ⟨-, -, hrefuses⟩ := (buffer_lifetime ha hkind hr (later ++ [.closeArena 1])).2.2.2.2.2
    (by rw [hst]; decide +kernel)
  have hnothing (st' : Store) : st'.after [] = st' := rfl
  have hshut := (hrefuses []).2
  rw [hnothing] at hshut
  exact ⟨st, hr, htext, hsuits, fun u => ⟨_, _, hshut u⟩⟩

end Store

end MiniLex
