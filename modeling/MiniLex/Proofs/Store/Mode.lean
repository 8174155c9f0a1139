import MiniLex.Proofs.Store.Tending

/-!
# Mode and buffer

A scan holds a buffer just when it is in quoted mode (`Progress.Matched`). Both
change together: on entering quoted mode once the buffer is there, on leaving it
once the buffer is given back. So it does not matter which requests an allocator
refuses, or when (`Scanner.tends_matched`), and every program keeps all its scans
so (`mode_matches_buffer`). By bootstrap rules neither ever changes
(`Scanner.pull_bootstrap`).
-/

namespace MiniLex

/-- A buffer is held just in quoted mode. -/
def Progress.Matched (p : Progress) : Prop := p.mode = .quoted ↔ p.accumulator.isSome

theorem Progress.Matched.mode_normal {p : Progress} (h : p.Matched) (ha : p.accumulator = none) :
    p.mode = .normal := by
  cases hm : p.mode with
  | normal => rfl
  | quoted => simpa [ha] using h.mp hm

namespace Scanner

open ScanM

variable {s : Scanner} {m : Machine}

theorem matched_enterQuoted (hm : m.progress.Matched) :
    (leftBy s.enterQuoted m).progress.Matched := by
  rcases s.enterQuoted_left m with ⟨b, hleft⟩ | hleft <;> rw [hleft]
  · simp [Progress.Matched]
  · exact hm

theorem matched_leaveQuoted (hm : m.progress.Matched) :
    (leftBy s.leaveQuoted m).progress.Matched := by
  rcases s.leaveQuoted_left m with ⟨ha, hleft⟩ | ⟨b, -, hleft | hleft⟩ <;> rw [hleft]
  · simp [Progress.Matched, ha]
  · simp [Progress.Matched]
  · exact hm

/-- Whatever is done with a scan, and whatever fails. -/
theorem tends_matched (s : Scanner) : s.Tends fun m => m.progress.Matched where
  same h hm := by
    unfold Progress.Matched
    rwa [h.mode, h.held]
  clone text m hm := by
    rw [leftBy_onMemory]
    exact hm
  append b text m hm := by
    rw [leftBy_onMemory]
    exact hm.1
  leave _ hm := matched_leaveQuoted hm
  enter _ hm := matched_enterQuoted hm
  shut hm _ := hm

/-- A pull by bootstrap rules changes neither the mode nor the buffer, also if it fails. -/
theorem pull_bootstrap (hl : s.rules = some .bootstrap) :
    Keeps (fun m => (m.progress.mode, m.progress.accumulator)) s.pull := by
  intro m
  have huses : s.Uses fun m' => (m.progress.mode, m.progress.accumulator) =
      (m'.progress.mode, m'.progress.accumulator) := {
    same := fun h hm => by rwa [h.mode, h.held]
    clone := fun text m hm => by
      rw [leftBy_onMemory]
      exact hm
    append := fun b text m hm => by
      rw [leftBy_onMemory]
      exact hm.1 }
  refine huses.pull_of_readToken (fun _ h => h) ?_ m rfl
  simp only [readToken, hl]
  exact leads_of_holding fun _ => huses.readBootstrap

end Scanner

namespace Store

variable {st : Store} {i : ScanId}

/-- All scans of a store are such. -/
def Matched (st : Store) : Prop := ∀ i, (st.scan i).progress.Matched

theorem matched_putMachine {m : Machine} (h : st.Matched) (hi : i < st.scans.length) :
    (st.putMachine i m).Matched ↔ m.progress.Matched := by
  refine ⟨fun hm => ?_, fun hm j => ?_⟩
  · have hself := hm i
    rwa [scan_putMachine_self m hi] at hself
  · by_cases hj : j = i
    · subst hj
      rwa [scan_putMachine_self m hi]
    · rw [scan_putMachine_of_ne m hj]
      exact h j

theorem Matched.of_scans {st' : Store} (h : st.Matched) (hscans : st'.scans = st.scans) :
    st'.Matched := by
  intro i
  rw [scan, hscans]
  exact h i

theorem tended_matched : Tended Matched where
  same hscans _ h := h.of_scans hscans
  tends {st i} h hi := by
    have hmachine : (fun m => (st.putMachine i m).Matched) = fun m => m.progress.Matched :=
      funext fun m => propext (matched_putMachine h hi)
    rw [hmachine]
    exact (st.scan i).scanner.tends_matched
  setArena _ _ h := h.of_scans rfl
  markReleased _ h := h.of_scans rfl

theorem Matched.start (h : st.Matched) (e : Ambient) (rules : Option Language) (r : Request) :
    (leftBy (start e rules r) st).Matched := by
  rcases (leftBy_start e rules r st).2 with hscans | hscans
  · intro i
    rcases scan_of_append hscans i with hi | hi
    · rw [hi]
      exact h i
    · simp [hi, Progress.Matched, Progress.initial]
  · exact h.of_scans hscans

theorem matched_after (ops : List Operation) : (initial.after ops).Matched := by
  refine invariant_after (fun st op h => ?_) ops ?_
  · refine tended_matched.perform h (fun hhand => h.of_scans (Operation.scans_of_byHand hhand))
      (fun e rules r _ => h.start e rules r) fun i hd _ hi => h.of_scans ?_
    rw [leftBy_onScan, putMachine]
    exact List.modify_eq_self hi
  · intro i
    simp [initial, scan, Progress.Matched, default, Progress.initial]

/-- Whatever a program has done, and whatever its allocators have refused, each of its scans is in
quoted mode just when it holds a buffer. A pull by standby rules that finds no buffer held and
returns a token leaves the scan in normal mode without one, and a pull by bootstrap rules changes
neither, also if it fails. -/
theorem mode_matches_buffer (ops : List Operation) (i : ScanId) :
    let st := initial.after ops
    ((st.scan i).progress.mode = .quoted ↔ (st.scan i).progress.accumulator.isSome) ∧
    ((st.scan i).scanner.rules = some .standby → (st.scan i).progress.accumulator = none →
      ∀ token st', onScan i Scanner.pull st = .ok token st' →
        (st'.scan i).progress.mode = .normal ∧ (st'.scan i).progress.accumulator = none) ∧
    ((st.scan i).scanner.rules = some .bootstrap →
      ((leftBy (onScan i Scanner.pull) st).scan i).progress.mode = (st.scan i).progress.mode ∧
      ((leftBy (onScan i Scanner.pull) st).scan i).progress.accumulator =
        (st.scan i).progress.accumulator) := by
  intro st
  have hmatched : st.Matched := matched_after ops
  refine ⟨hmatched i, fun _ ha token st' hr => ?_, fun hl => ?_⟩
  · have hmatched' : st'.Matched := by
      have hpulled := tended_matched.pull i st hmatched
      rwa [leftBy_of_ok hr] at hpulled
    have hi : i < st.scans.length := by
      refine Nat.lt_of_not_le fun hle => ?_
      rw [onScan_pull_of_closed (closed_of_le hle)] at hr
      cases hr
    obtain ⟨m, hm, rfl⟩ := onScan_ok hr
    have hheld := Scanner.Upkeep.held_of_pull_ok ha hm
    have hself := scan_putMachine_self m hi
    refine ⟨(hmatched' i).mode_normal ?_, ?_⟩ <;> rw [hself] <;> exact hheld
  · have hi : i < st.scans.length := by
      refine Nat.lt_of_not_le fun hle => ?_
      have hnone : st.scan i = default := by simp [scan, hle]
      rw [hnone] at hl
      cases hl
    have hkept := Scanner.pull_bootstrap hl ⟨(st.scan i).progress, st.host⟩
    rw [leftBy_onScan, scan_putMachine_self _ hi]
    exact ⟨(congrArg Prod.fst hkept).symm, (congrArg Prod.snd hkept).symm⟩

/-- A refused copy leaves a standby scan in quoted mode. Once it has left it by hand, the next token
is read in normal mode. A bootstrap scan refuses its only character. -/
theorem mode_matches_buffer_refused_copy :
    let ops : List Operation := [.newRecorder (Recorder.refuseNth [("clone", 1)]),
      .start .initial (some .standby) ⟨['"', 'a', '"', ' ', 'b'], some 1, .nothing⟩,
      .start .initial (some .bootstrap) ⟨['+'], some 1, .nothing⟩, .handle 0 .pull]
    let left := initial.after (ops ++ [.handle 0 .leaveQuoted])
    (((initial.after ops).scan 0).progress.accumulator = some 0 ∧
      ((initial.after ops).scan 0).progress.mode = .quoted) ∧
    (∃ st', onScan 0 Scanner.pull left = .ok ⟨.standby .name, some ['b'], 4, 5, none⟩ st' ∧
      (st'.scan 0).progress.mode = .normal ∧ (st'.scan 0).progress.accumulator = none) ∧
    ((leftBy (onScan 1 Scanner.pull) left).scan 1).progress.mode = .normal := by
  intro ops left
  obtain ⟨hquoted, -, -⟩ := mode_matches_buffer ops 0
  obtain ⟨-, hstandby, -⟩ := mode_matches_buffer (ops ++ [.handle 0 .leaveQuoted]) 0
  obtain ⟨-, -, hbootstrap⟩ := mode_matches_buffer (ops ++ [.handle 0 .leaveQuoted]) 1
  have hheld : ((initial.after ops).scan 0).progress.accumulator = some 0 := by decide +kernel
  have hreturned : ∃ st', onScan 0 Scanner.pull left =
      .ok ⟨.standby .name, some ['b'], 4, 5, none⟩ st' := ⟨_, rfl⟩
  obtain ⟨st', hr⟩ := hreturned
  have hnone : (left.scan 0).progress.accumulator = none := by decide +kernel
  refine ⟨⟨hheld, hquoted.mpr (by rw [hheld]; rfl)⟩, ⟨st', hr, hstandby rfl hnone _ st' hr⟩, ?_⟩
  have hnormal : (left.scan 1).progress.mode = .normal := by decide +kernel
  rw [← hnormal]
  exact (hbootstrap rfl).1

end Store

end MiniLex
