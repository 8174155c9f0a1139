import MiniLex.Proofs.Memory.Custody
import MiniLex.Proofs.Scan.Upkeep

/-!
# The buffers of a scan

A scan holds one buffer at a time. It obtains one on entering quoted mode and
gives it back on leaving it, and closing the scan leaves quoted mode. What any
use of a scan does to its buffers, whether it fails or not, is one of four steps
(`Custody.Step`), and none of them loses a buffer but one: where a new buffer is
obtained while another one is held, that one is `displaced` and never given
back. `Accounts.step` keeps the accounts.
-/

namespace MiniLex

/-- What of a machine tells which buffers its scan has to give back. -/
structure Custody where
  /-- The buffer of the quoted name being read. -/
  held : Option BufferId
  /-- Whether the scan is closed. -/
  closed : Bool
  /-- For each buffer of the memory, whether it has been given back. -/
  givenBack : List Bool

/-- The custody of a machine. -/
def Machine.custody (m : Machine) : Custody :=
  ⟨m.progress.accumulator, m.progress.closed, m.host.memory.givenBack⟩

namespace Custody

variable {v w : Custody} {before : Memory} {lost : List BufferId}

/-- A buffer has been handed out and not been given back. -/
def Live (v : Custody) (b : BufferId) : Prop := v.givenBack[b]? = some false

/-- A new buffer is held. -/
def take (v : Custody) : Custody :=
  { v with held := some v.givenBack.length, givenBack := v.givenBack ++ [false] }

/-- The buffer that is held is given back. -/
def give (v : Custody) : Custody :=
  match v.held with
  | some b => { v with held := none, givenBack := v.givenBack.set b true }
  | none => v

/-- What a use of a scan may do to its buffers. -/
inductive Step : Custody → Custody → Prop
  | stay (v : Custody) : Step v v
  | give (v : Custody) : Step v v.give
  | take (v : Custody) : Step v v.take
  | takeAndGive (v : Custody) : Step v v.take.give

/-- The buffers that are displaced between two states: the one that is held, if another one is
obtained. -/
def displaced (v w : Custody) : List BufferId :=
  if w.givenBack.length = v.givenBack.length then [] else v.held.toList

/-- Since the memory was like this, the scan has obtained buffers. Those that it has not given back
are the one that it holds and those that it has lost. -/
structure Accounts (before : Memory) (lost : List BufferId) (v : Custody) : Prop where
  length_le : before.buffers.length ≤ v.givenBack.length
  live_iff : ∀ b, v.Live b ↔ before.Live b ∨ b ∈ lost ∨ v.held = some b
  obtained : ∀ b, b ∈ lost ∨ v.held = some b → before.buffers.length ≤ b
  not_held : ∀ b ∈ lost, v.held ≠ some b

/-! ## One step -/

theorem give_of_held {b : BufferId} (h : v.held = some b) :
    v.give = { v with held := none, givenBack := v.givenBack.set b true } := by
  simp only [give, h]

theorem give_of_none (h : v.held = none) : v.give = v := by
  simp only [give, h]

theorem closed_give (v : Custody) : v.give.closed = v.closed := by
  unfold give
  split <;> rfl

theorem held_give (v : Custody) : v.give.held = none := by
  cases hb : v.held with
  | none => rwa [give_of_none hb]
  | some b => rw [give_of_held hb]

theorem length_give (v : Custody) : v.give.givenBack.length = v.givenBack.length := by
  unfold give
  split
  · exact List.length_set
  · rfl

theorem Live.lt {b : BufferId} (h : v.Live b) : b < v.givenBack.length :=
  (List.getElem?_eq_some_iff.mp h).1

theorem live_give_iff {b : BufferId} (h : v.held = some b) (c : BufferId) :
    v.give.Live c ↔ v.Live c ∧ c ≠ b := by
  rw [give_of_held h, Live, Live, List.getElem?_set]
  by_cases hc : b = c
  · subst hc
    simp
  · simp [hc, Ne.symm hc]

theorem live_take_iff (v : Custody) (c : BufferId) :
    v.take.Live c ↔ v.Live c ∨ v.take.held = some c := by
  show (v.givenBack ++ [false])[c]? = some false ↔
    v.givenBack[c]? = some false ∨ some v.givenBack.length = some c
  rcases Nat.lt_trichotomy c v.givenBack.length with hc | rfl | hc
  · simp [List.getElem?_append_left hc, Nat.ne_of_gt hc]
  · simp
  · have hle : (v.givenBack ++ [false]).length ≤ c := by
      rw [List.length_append, List.length_singleton]
      exact hc
    rw [List.getElem?_eq_none hle, List.getElem?_eq_none (Nat.le_of_lt hc)]
    simp [Nat.ne_of_lt hc]

/-! ## The accounts are kept -/

theorem not_live_of_le {b : BufferId} (h : before.buffers.length ≤ b) : ¬before.Live b := by
  rintro ⟨x, hx, -⟩
  exact Nat.not_lt.mpr h (List.getElem?_eq_some_iff.mp hx).1

/-- What is held is not lost, so giving it back leaves what is lost. -/
theorem Accounts.give (h : Accounts before lost v) : Accounts before lost v.give := by
  cases hb : v.held with
  | none => rwa [give_of_none hb]
  | some b =>
    have hold : ¬before.Live b := not_live_of_le (h.obtained b (.inr hb))
    have hlost : b ∉ lost := fun hmem => h.not_held b hmem hb
    refine ⟨?_, fun c => ?_, fun c hc => ?_, fun c _ => ?_⟩
    · rw [length_give]
      exact h.length_le
    · rw [live_give_iff hb, h.live_iff c, hb, held_give]
      constructor
      · rintro ⟨hlive | hlive | hlive, hne⟩
        · exact .inl hlive
        · exact .inr (.inl hlive)
        · exact absurd (Option.some.inj hlive).symm hne
      · rintro (hlive | hlive | hlive)
        · exact ⟨.inl hlive, fun he => hold (he ▸ hlive)⟩
        · exact ⟨.inr (.inl hlive), fun he => hlost (he ▸ hlive)⟩
        · cases hlive
    · rw [held_give] at hc
      rcases hc with hc | hc
      · exact h.obtained c (.inl hc)
      · cases hc
    · rw [held_give]
      nofun

/-- What is held when a new buffer is obtained is lost. -/
theorem Accounts.take (h : Accounts before lost v) :
    Accounts before (lost ++ v.held.toList) v.take := by
  have hmem : ∀ c, c ∈ lost ++ v.held.toList ↔ c ∈ lost ∨ v.held = some c := fun c => by
    rw [List.mem_append, Option.mem_toList]
  refine ⟨?_, fun c => ?_, fun c hc => ?_, fun c hc he => ?_⟩
  · exact Nat.le_trans h.length_le (by simp [Custody.take])
  · rw [live_take_iff, h.live_iff c, hmem]
    simp only [or_assoc]
  · rcases hc with hc | hc
    · exact h.obtained c ((hmem c).mp hc)
    · obtain rfl := Option.some.inj hc
      exact h.length_le
  · have hlive : v.Live c := (h.live_iff c).mpr (.inr ((hmem c).mp hc))
    obtain rfl := Option.some.inj he
    exact Nat.lt_irrefl _ hlive.lt

theorem Step.closed (h : Step v w) : w.closed = v.closed := by
  cases h with
  | stay | take => rfl
  | give => exact closed_give v
  | takeAndGive => exact closed_give v.take

theorem Accounts.step (h : Accounts before lost v) (hstep : Step v w) :
    Accounts before (lost ++ v.displaced w) w := by
  have hmore : v.take.givenBack.length ≠ v.givenBack.length := by simp [Custody.take]
  cases hstep with
  | stay =>
    rwa [displaced, if_pos rfl, List.append_nil]
  | give =>
    rw [displaced, if_pos (length_give v), List.append_nil]
    exact h.give
  | take =>
    rw [displaced, if_neg hmore]
    exact h.take
  | takeAndGive =>
    rw [displaced, if_neg (by rwa [length_give])]
    exact h.take.give

/-- Leaving quoted mode gives back the buffer that is held, unless that is refused. -/
def Gives (v w : Custody) : Prop := w = v ∨ w = v.give

theorem Gives.step (h : Gives v w) : Step v w := by
  rcases h with rfl | rfl
  · exact .stay w
  · exact .give v

/-- What has been given back is not given back again. -/
theorem Step.gives {u : Custody} (h : Step v w) (hg : Gives w u) : Step v u := by
  rcases hg with rfl | rfl
  · exact h
  cases h with
  | stay => exact .give v
  | take => exact .takeAndGive v
  | give =>
    rw [give_of_none (held_give v)]
    exact .give v
  | takeAndGive =>
    rw [give_of_none (held_give v.take)]
    exact .takeAndGive v

end Custody

/-! ## Quoted mode -/

namespace Scanner

open ScanM

variable {s : Scanner} {m : Machine} {b : BufferId}

theorem live_custody_iff : m.custody.Live b ↔ m.host.memory.Live b := Memory.live_iff.symm

theorem custody_of_givenBack {memory : Memory} (p : Progress)
    (h : memory.givenBack = m.host.memory.givenBack) :
    (⟨p, { m.host with memory := memory }⟩ : Machine).custody =
      ⟨p.accumulator, p.closed, m.custody.givenBack⟩ :=
  congrArg (Custody.mk p.accumulator p.closed) h

/-- Leaving quoted mode gives back the buffer that is held. If that is refused, it is held still. -/
theorem leaveQuoted_cases (s : Scanner) (m : Machine) :
    (∃ m', s.leaveQuoted m = .ok () m' ∧ m'.custody = m.custody.give) ∨
      ∃ e m', s.leaveQuoted m = .error e m' ∧ m'.custody = m.custody := by
  cases ha : m.progress.accumulator with
  | none =>
    refine .inl ⟨_, leaveQuoted_of_none ha, ?_⟩
    rw [Custody.give_of_none ha]
    rfl
  | some b =>
    rcases Memory.release_cases s.allocator b m.host.memory with
      ⟨memory, hr, hbooks⟩ | ⟨fault, memory, hr, hbooks⟩
    · refine .inl ⟨_, leaveQuoted_of_held ha hr, ?_⟩
      rw [Custody.give_of_held ha]
      exact congrArg (Custody.mk none m.progress.closed) (Memory.givenBack_of_takeBack hbooks)
    · refine .inr ⟨_, _, leaveQuoted_of_refused ha hr, ?_⟩
      exact custody_of_givenBack _ (Memory.givenBack_of_books hbooks)

theorem moves_leaveQuoted (s : Scanner) : Moves Machine.custody Custody.Gives s.leaveQuoted := by
  intro m
  rcases s.leaveQuoted_cases m with ⟨m', hr, hcustody⟩ | ⟨e, m', hr, hcustody⟩
  · rw [leftBy_of_ok hr]
    exact .inr hcustody
  · rw [leftBy_of_error hr]
    exact .inl hcustody

/-- Entering quoted mode obtains a new buffer, unless that is refused. -/
theorem moves_enterQuoted (s : Scanner) : Moves Machine.custody Custody.Step s.enterQuoted := by
  intro m
  rcases Memory.allocate_cases s.allocator Buffer.initialCapacity m.host.memory with
    ⟨memory, hr, -, hbooks⟩ | ⟨fault, memory, hr, hbooks⟩
  · rw [leftBy_of_ok (enterQuoted_of_granted hr)]
    have htaken : (⟨{ m.progress with
        accumulator := some m.host.memory.buffers.length, mode := .quoted },
        { m.host with memory := memory }⟩ : Machine).custody = m.custody.take := by
      simp [Machine.custody, Custody.take, Memory.givenBack_of_handOut hbooks,
        Memory.length_givenBack]
    rw [htaken]
    exact .take _
  · rw [leftBy_of_error (enterQuoted_of_refused hr)]
    have hkept := custody_of_givenBack m.progress (Memory.givenBack_of_books hbooks)
    rw [hkept]
    exact .stay _

/-! ## Pulls -/

/-- While a scan holds on to its buffer, the custody does not change. -/
theorem uses_custody {C : Custody → Prop} : s.Uses fun m => C m.custody where
  same := by
    intro m m' h hm
    simpa only [Machine.custody, h.held, h.closed, h.memory] using hm
  clone text := by
    intro m hm
    rw [leftBy_onMemory, custody_of_givenBack _ (Memory.givenBack_of_books
      (Memory.books_clone s.allocator text _).symm)]
    exact hm
  append b text := by
    rintro m ⟨hm, -⟩
    rw [leftBy_onMemory, custody_of_givenBack _ (Memory.givenBack_of_books
      (Memory.books_append b text _).symm)]
    exact hm

theorem upkeep_step (s : Scanner) (v : Custody) : s.Upkeep fun m => Custody.Step v m.custody where
  toUses := uses_custody (C := Custody.Step v)
  leave := fun m hm => hm.gives (s.moves_leaveQuoted m)

/-- The buffer that a pull gives back is the one that it has obtained itself, or held before. -/
theorem moves_pull (s : Scanner) : Moves Machine.custody Custody.Step s.pull := by
  intro m
  let before (m' : Machine) : Prop := m'.custody = m.custody
  have hstay : ∀ m', before m' → Custody.Step m.custody m'.custody := by
    intro m' hm'
    rw [hm']
    exact .stay _
  have henter : Leads (Holding before m.progress.accumulator)
      (fun m' => Custody.Step m.custody m'.custody) s.enterQuoted := by
    rintro m' ⟨hm', -⟩
    rw [← hm']
    exact s.moves_enterQuoted m'
  exact (uses_custody (C := (· = m.custody))).pull (s.upkeep_step m.custody) hstay henter m ⟨rfl, rfl⟩

end Scanner

end MiniLex
