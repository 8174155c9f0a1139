import MiniLex.Proofs.Memory.Service

/-!
# What granted operations have done

An allocator may refuse any call. An operation that succeeds in spite of that
has done what was asked of it, whatever the allocator:

* `clone_ok`: the copy of a text is the text;
* `allocate_ok`, `append_ok`: a buffer holds what was appended to it (`Holds`).
-/

namespace MiniLex

namespace Memory

variable {m m' : Memory} {a : AllocatorId} {b : BufferId} {t u : Text}

/-- A buffer is not given back, and this is the text in it. -/
structure Holds (m : Memory) (b : BufferId) (t : Text) : Prop where
  valid : b < m.buffers.length
  unreleased : (m.buffer b).released = false
  text : (m.buffer b).text = t

theorem requireOpen_ok {x : Arena} (h : requireOpen x m = .ok () m') : m' = m := by
  unfold requireOpen at h
  split at h
  · cases h
  · cases h
    rfl

theorem note_ok {r : Recorder} {call : Call} (h : note a r call m = .ok () m') :
    m'.buffers = m.buffers := by
  unfold note at h
  rw [run_bind_modify] at h
  split at h
  · cases h
  · cases h
    rfl

theorem clone_ok {copy : Text} (h : clone a t m = .ok copy m') : copy = t := by
  unfold clone at h
  rw [run_bind_get] at h
  cases ha : m.allocator a with
  | heap =>
    rw [ha] at h
    cases h
    rfl
  | arena x =>
    rw [ha] at h
    obtain ⟨_, m₁, _, h⟩ := of_bind_ok h
    cases h
    rfl
  | recorder r =>
    rw [ha] at h
    obtain ⟨_, m₁, _, h⟩ := of_bind_ok h
    cases h
    rfl

theorem addBuffer_ok {capacity : Int} (h : addBuffer a capacity m = .ok b m') :
    m'.Holds b [] := by
  cases h
  exact ⟨by simp, by simp [buffer, Buffer.fresh], by simp [buffer, Buffer.fresh]⟩

theorem allocate_ok {capacity : Int} (h : allocate a capacity m = .ok b m') : m'.Holds b [] := by
  unfold allocate at h
  rw [run_bind_get] at h
  cases ha : m.allocator a with
  | heap =>
    rw [ha] at h
    exact addBuffer_ok h
  | arena x =>
    rw [ha] at h
    obtain ⟨_, m₁, _, h⟩ := of_bind_ok h
    obtain ⟨_, m₂, _, h⟩ := of_bind_ok h
    exact addBuffer_ok h
  | recorder r =>
    rw [ha] at h
    obtain ⟨_, m₁, _, h⟩ := of_bind_ok h
    exact addBuffer_ok h

/-- Growing a buffer changes none yet. -/
theorem grow_ok {needed capacity : Int} (h : grow a b needed m = .ok capacity m') :
    m'.buffers = m.buffers := by
  unfold grow at h
  rw [run_bind_get] at h
  cases ha : m.allocator a with
  | heap =>
    rw [ha] at h
    cases h
    rfl
  | arena x =>
    rw [ha] at h
    obtain ⟨_, m₁, hopen, h⟩ := of_bind_ok h
    obtain rfl := requireOpen_ok hopen
    split at h
    · cases h
    · cases h
      rfl
  | recorder r =>
    rw [ha] at h
    obtain ⟨_, m₁, hnote, h⟩ := of_bind_ok h
    cases h
    exact note_ok hnote

/-- Changing a buffer without giving it back changes what it holds. -/
theorem Holds.update {f : Buffer → Buffer} (h : m.Holds b t)
    (hr : ∀ x, (f x).released = x.released) (hf : ∀ x, x.text = t → (f x).text = u) :
    (m.updateBuffer b f).Holds b u := by
  refine ⟨by simpa [updateBuffer] using h.valid, ?_, ?_⟩
  · rw [buffer_updateBuffer_self f h.valid, hr, h.unreleased]
  · rw [buffer_updateBuffer_self f h.valid, hf _ h.text]

theorem Holds.congr (h : m.Holds b t) (hb : m'.buffers = m.buffers) : m'.Holds b t := by
  have hbuffer : m'.buffer b = m.buffer b := by rw [buffer, hb]; rfl
  exact ⟨hb ▸ h.valid, hbuffer ▸ h.unreleased, hbuffer ▸ h.text⟩

theorem Holds.length (h : m.Holds b t) : (m.buffer b).length = t.length := by
  rw [Buffer.length_eq, h.text]

theorem Holds.append_ok (h : m.Holds b t) (ha : append b u m = .ok () m') :
    m'.Holds b (t ++ u) := by
  have hadd : ∀ {m : Memory}, m.Holds b t →
      (m.updateBuffer b fun x => x.extend u).Holds b (t ++ u) :=
    fun h => h.update (fun _ => rfl) fun x hx => by rw [Buffer.text_extend, hx]
  unfold append at ha
  rw [run_bind_get] at ha
  simp only [h.unreleased, Bool.false_eq_true, ↓reduceIte] at ha
  split at ha
  · rename_i hu
    cases ha
    rwa [hu, List.append_nil]
  split at ha
  · obtain ⟨capacity, m₁, hgrow, ha⟩ := of_bind_ok ha
    cases ha
    exact hadd ((h.congr (grow_ok hgrow)).update (fun _ => rfl) fun x hx => hx)
  · cases ha
    exact hadd h

end Memory

end MiniLex
