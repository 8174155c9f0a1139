import MiniLex.Proofs.Memory.Step

/-!
# How often a recorder is asked

Steps of memory that do not ask for a call leave it at never having been asked
for (`NeverAsked.step`). Allocators that take back what they handed out
(`Allocator.LetsGo`) have a context go with one call: `releaseContext_of_letsGo`.
-/

namespace MiniLex

/-- How often a recorder was asked for this, whether it granted it or not. -/
def Recorder.times (r : Recorder) (call : Call) : Nat := r.calls.countP (·.call = call)

/-- An allocator takes contexts and buffers back from now on. A recorder may have refused to before,
and refuse anything else. -/
def Allocator.LetsGo : Allocator → Prop
  | .heap | .arena _ => True
  | .recorder r => ∀ before call, r.calls <:+ before →
    call.method = .release ∨ call.method = .releaseContext → r.refuses before call = false

namespace Recorder

variable {r : Recorder} {call call' : Call}

theorem times_note_self (r : Recorder) (call : Call) :
    (r.note call).times call = r.times call + 1 := by
  simp [times, note]

theorem times_note_of_ne (r : Recorder) (h : call' ≠ call) :
    (r.note call').times call = r.times call := by
  simp [times, note, h]

theorem letsGo_note (h : (Allocator.recorder r).LetsGo) (call : Call) :
    (Allocator.recorder (r.note call)).LetsGo :=
  fun before call' hbefore => h before call' ((List.suffix_cons _ _).trans hbefore)

end Recorder

namespace Memory

open Relation (ReflTransGen)

variable {m m' : Memory} {a : AllocatorId} {call : Call} {r : Recorder} {n : Nat}
  {asks : AllocatorId → Call → Prop} {free : AllocatorId → Prop}

/-- This allocator, if it is a recorder, was not asked for this. -/
def NeverAsked (m : Memory) (a : AllocatorId) (call : Call) : Prop :=
  ∀ r, m.allocator a = .recorder r → r.times call = 0

/-- This allocator is a recorder, and was asked for this so often. -/
def Asked (m : Memory) (a : AllocatorId) (call : Call) (n : Nat) : Prop :=
  ∃ r, m.allocator a = .recorder r ∧ r.times call = n

theorem NeverAsked.of_imp (h : m.NeverAsked a call)
    (hr : ∀ r, m'.allocator a = .recorder r → m.allocator a = .recorder r) :
    m'.NeverAsked a call := fun r ha => h r (hr r ha)

theorem recorder_of_setArena {a' : AllocatorId} {y : Arena}
    (h : (m.setAllocator a' (.arena y)).allocator a = .recorder r) :
    m.allocator a = .recorder r := by
  by_cases ha : a' = a
  · subst ha
    by_cases hlt : a' < m.allocators.length
    · rw [allocator_setAllocator_self _ hlt] at h
      cases h
    · have hsame : m.setAllocator a' (.arena y) = m := by
        rw [setAllocator, List.set_eq_of_length_le (Nat.le_of_not_lt hlt)]
      rwa [hsame] at h
  · rwa [allocator_setAllocator_of_ne m _ ha] at h

theorem recorder_of_charge {a' : AllocatorId} {change : Int}
    (h : (m.charge a' change).allocator a = .recorder r) : m.allocator a = .recorder r := by
  unfold charge at h
  split at h
  · exact recorder_of_setArena h
  · exact h
  · exact h

theorem NeverAsked.step (h : m.NeverAsked a call) (hc : ¬asks a call) (hstep : Step asks free m m') :
    m'.NeverAsked a call := by
  cases hstep with
  | arena => exact h.of_imp fun _ => recorder_of_setArena
  | @note a' r' call' ha' hasks =>
    intro r hr
    by_cases ha : a' = a
    · subst ha
      rw [allocator_replaced (by simp [ha'])] at hr
      cases hr
      have hne : call' ≠ call := fun heq => hc (heq ▸ hasks)
      rw [Recorder.times_note_of_ne _ hne]
      exact h r' ha'
    · rw [allocator_setAllocator_of_ne m _ ha] at hr
      exact h r hr
  | touch | addBuffer => exact h
  | handOut capacity => exact h.of_imp fun _ hr => recorder_of_charge hr
  | resize capacity => exact h.of_imp fun _ hr => recorder_of_charge hr
  | charge change => exact h.of_imp fun _ hr => recorder_of_charge hr
  | @join z _ hz =>
    intro r hr
    rcases allocator_join m z a with hsame | ⟨-, hnew⟩
    · exact h r (hsame ▸ hr)
    · simp [Recorder.times, hz r (hnew ▸ hr)]

/-! ## Allocators that let go -/

/-- A buffer is taken back, without a call that lets a context go. -/
theorem release_of_letsGo (b : BufferId) (i : ScanId) (h : (m.allocator a).LetsGo) :
    ∃ m', release a b m = .ok () m' ∧ (m'.allocator a).LetsGo ∧
      ∀ n, m.Asked a (.releaseContext i) n → m'.Asked a (.releaseContext i) n := by
  rw [release, run_bind_get]
  cases ha : m.allocator a with
  | heap =>
    refine ⟨_, rfl, ?_, fun n hn => hn⟩
    show (m.allocator a).LetsGo
    exact h
  | arena x =>
    refine ⟨_, rfl, ?_, ?_⟩
    · show ((m.setAllocator a (.arena (x.dropBuffer b))).allocator a).LetsGo
      rw [allocator_replaced (by simp [ha])]
      trivial
    · rintro n ⟨r, hr, -⟩
      rw [ha] at hr
      cases hr
  | recorder r =>
    rw [ha] at h
    have hr := h r.calls (.release b) List.suffix_rfl (.inl rfl)
    have hself : (m.setAllocator a (.recorder (r.note (.release b)))).allocator a =
        .recorder (r.note (.release b)) := allocator_replaced (by simp [ha]) _
    refine ⟨_, (run_bind_ok (note_run hr)).trans rfl, ?_, ?_⟩
    · show ((m.setAllocator a (.recorder (r.note (.release b)))).allocator a).LetsGo
      rw [hself]
      exact Recorder.letsGo_note h _
    · rintro n ⟨r', hr', hn⟩
      rw [ha] at hr'
      cases hr'
      exact ⟨_, hself, (Recorder.times_note_of_ne r (by simp)).trans hn⟩

/-- A context is let go, with one call. -/
theorem releaseContext_of_letsGo (i : ScanId) (h : (m.allocator a).LetsGo) :
    ∃ m', releaseContext a i m = .ok () m' ∧
      ∀ n, m.Asked a (.releaseContext i) n → m'.Asked a (.releaseContext i) (n + 1) := by
  rw [releaseContext, run_bind_get]
  cases ha : m.allocator a with
  | heap | arena x =>
    refine ⟨_, rfl, ?_⟩
    rintro n ⟨r, hr, -⟩
    rw [ha] at hr
    cases hr
  | recorder r =>
    rw [ha] at h
    refine ⟨_, note_run (h r.calls (.releaseContext i) List.suffix_rfl (.inr rfl)), ?_⟩
    rintro n ⟨r', hr', hn⟩
    rw [ha] at hr'
    cases hr'
    exact ⟨_, allocator_replaced (by simp [ha]) _, by rw [Recorder.times_note_self, hn]⟩

end Memory

end MiniLex
