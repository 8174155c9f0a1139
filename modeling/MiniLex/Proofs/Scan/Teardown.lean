import MiniLex.Proofs.Scan.Custody

/-!
# What a closed scan has given back

A caller pulls tokens, switches quoted mode on and off, and goes on after each
failure. Of the buffers that the scan obtained meanwhile, it holds one at most
when it is closed, and closing gives that one back. What is missing then are the
buffers that were displaced, and no others: `close_gives_back`.
-/

namespace MiniLex

/-- What a caller does with a scan, other than closing it. -/
inductive Use where
  | pull
  | enterQuoted
  | leaveQuoted
  deriving DecidableEq

namespace Scanner

open ScanM

variable {s : Scanner} {m m' : Machine} {u : Use} {before : Memory} {lost : List BufferId}

/-- The machine once a scan was used, whether that failed or not. -/
def afterUse (s : Scanner) (m : Machine) : Use → Machine
  | .pull => leftBy s.pull m
  | .enterQuoted => leftBy s.enterQuoted m
  | .leaveQuoted => leftBy s.leaveQuoted m

/-- The machine once a scan was used several times. -/
def afterUses (s : Scanner) (m : Machine) (uses : List Use) : Machine := uses.foldl s.afterUse m

/-- The buffers that are displaced while a scan is used several times. -/
def displaced (s : Scanner) (m : Machine) : List Use → List BufferId
  | [] => []
  | u :: uses => m.custody.displaced (s.afterUse m u).custody ++ s.displaced (s.afterUse m u) uses

theorem step_afterUse (s : Scanner) (m : Machine) (u : Use) :
    Custody.Step m.custody (s.afterUse m u).custody := by
  cases u with
  | pull => exact moves_pull s m
  | enterQuoted => exact moves_enterQuoted s m
  | leaveQuoted => exact (moves_leaveQuoted s m).step

theorem accounts_afterUses (uses : List Use) (ha : Custody.Accounts before lost m.custody) :
    Custody.Accounts before (lost ++ s.displaced m uses) (s.afterUses m uses).custody := by
  induction uses generalizing m lost with
  | nil => rwa [displaced, List.append_nil]
  | cons u uses ih =>
    have hrest := ih (ha.step (s.step_afterUse m u))
    rwa [List.append_assoc] at hrest

theorem closed_afterUses (s : Scanner) (m : Machine) (uses : List Use) :
    (s.afterUses m uses).progress.closed = m.progress.closed := by
  induction uses generalizing m with
  | nil => rfl
  | cons u uses ih => exact (ih _).trans (s.step_afterUse m u).closed

/-- Nothing that a scan has obtained is missing at first. -/
theorem accounts_of_held_none (h : m.progress.accumulator = none) :
    Custody.Accounts m.host.memory [] m.custody := by
  have hheld : m.custody.held = none := h
  refine ⟨?_, fun b => ?_, fun b hb => ?_, nofun⟩
  · simp [Machine.custody, Memory.givenBack]
  · simp [hheld, live_custody_iff]
  · simp [hheld] at hb

/-! ## Closing -/

theorem custody_of_close_ok (ho : m.progress.closed = false) (hr : s.close m = .ok () m') :
    m'.custody = { m.custody.give with closed := true } := by
  have hopen : ¬m.progress.closed = true := by simp [ho]
  rw [close, run_bind_ok (progress_run m), if_neg hopen] at hr
  obtain ⟨_, m₁, hrelease, hr⟩ := of_bind_ok hr
  rw [release, run_bind_ok (progress_run m), if_neg hopen] at hrelease
  obtain ⟨_, m₂, hleave, hrelease⟩ := of_bind_ok hrelease
  rw [run_bind_ok (update_run _ _)] at hrelease
  have hgiven : m₂.custody = m.custody.give := by
    rcases s.leaveQuoted_cases m with ⟨m₃, h₃, hcustody⟩ | ⟨e, m₃, h₃, -⟩
    · rw [hleave] at h₃
      cases h₃
      exact hcustody
    · rw [hleave] at h₃
      cases h₃
  obtain ⟨memory, hcontext, rfl⟩ := onMemory_ok hrelease
  have hbooks := Memory.books_releaseContext s.allocator s.id m₂.host.memory
  rw [leftBy_of_ok hcontext] at hbooks
  cases hr
  rw [← hgiven]
  exact custody_of_givenBack _ (Memory.givenBack_of_discharge hbooks)

/-- A closed scan that holds no buffer obtains none, unless it is put in quoted mode. -/
theorem custody_afterUse_of_closed (hc : m.progress.closed = true)
    (hh : m.progress.accumulator = none) (hu : u ≠ .enterQuoted) :
    (s.afterUse m u).custody = m.custody := by
  cases u with
  | pull => exact congrArg Machine.custody (leftBy_of_error (pull_of_closed hc))
  | enterQuoted => exact absurd rfl hu
  | leaveQuoted =>
    rcases moves_leaveQuoted s m with hw | hw
    · exact hw
    · exact hw.trans (Custody.give_of_none hh)

theorem custody_afterUses_of_closed (uses : List Use) (hc : m.progress.closed = true)
    (hh : m.progress.accumulator = none) (hu : .enterQuoted ∉ uses) :
    (s.afterUses m uses).custody = m.custody ∧ s.displaced m uses = [] := by
  induction uses generalizing m with
  | nil => exact ⟨rfl, rfl⟩
  | cons u uses ih =>
    obtain ⟨hne, hrest⟩ := not_or.mp (mt List.mem_cons.mpr hu)
    have hsame := custody_afterUse_of_closed (s := s) hc hh (Ne.symm hne)
    have hc' : (s.afterUse m u).progress.closed = true := (congrArg Custody.closed hsame).trans hc
    have hh' : (s.afterUse m u).progress.accumulator = none :=
      (congrArg Custody.held hsame).trans hh
    obtain ⟨hstays, hdisplaced⟩ := ih hc' hh' hrest
    refine ⟨hstays.trans hsame, ?_⟩
    rw [displaced, hdisplaced, hsame, Custody.displaced, if_pos rfl]
    rfl

/-- When a scan is closed, whatever was done with it before and whatever failed, it holds no buffer,
and has given back all buffers that it obtained but for those that were displaced. It obtains no
buffer any more, unless it is put in quoted mode again. -/
theorem close_gives_back (s : Scanner) (h : Host) (uses : List Use)
    (hr : s.close (s.afterUses ⟨.initial, h⟩ uses) = .ok () m) :
    m.progress.accumulator = none ∧
      (∀ b, m.host.memory.Live b ↔ h.memory.Live b ∨ b ∈ s.displaced ⟨.initial, h⟩ uses) ∧
      (∀ b ∈ s.displaced ⟨.initial, h⟩ uses, h.memory.buffers.length ≤ b) ∧
      ∀ later, let m' := s.afterUses m later
        (∀ b, m'.host.memory.Live b ↔
          m.host.memory.Live b ∨ b ∈ s.displaced m later ∨ m'.progress.accumulator = some b) ∧
        (.enterQuoted ∉ later → m'.progress.accumulator = none ∧ s.displaced m later = [] ∧
          m'.host.memory.buffers.length = m.host.memory.buffers.length) := by
  have hopen : (s.afterUses ⟨.initial, h⟩ uses).progress.closed = false :=
    s.closed_afterUses ⟨.initial, h⟩ uses
  have hm := custody_of_close_ok hopen hr
  have hclosed : m.progress.closed = true := congrArg Custody.closed hm
  have hheld : m.progress.accumulator = none :=
    (congrArg Custody.held hm).trans (Custody.held_give _)
  -- The accounts of the uses before closing.
  have hstart := accounts_of_held_none (m := ⟨.initial, h⟩) rfl
  have hused := (accounts_afterUses (s := s) uses hstart).give
  have hgiven : ∀ b, m.host.memory.Live b ↔
      (s.afterUses ⟨.initial, h⟩ uses).custody.give.Live b := by
    intro b
    rw [← live_custody_iff, hm]
    rfl
  have hlater := fun later => accounts_afterUses (s := s) later (accounts_of_held_none hheld)
  refine ⟨hheld, fun b => ?_, fun b hb => hused.obtained b (.inl hb), fun later => ?_⟩
  · rw [hgiven, hused.live_iff b, Custody.held_give]
    simp
  · refine ⟨fun b => ?_, fun hu => ?_⟩
    · rw [← live_custody_iff]
      exact (hlater later).live_iff b
    · obtain ⟨hsame, hdisplaced⟩ := custody_afterUses_of_closed (s := s) later hclosed hheld hu
      refine ⟨(congrArg Custody.held hsame).trans hheld, hdisplaced, ?_⟩
      rw [← Memory.length_givenBack, ← Memory.length_givenBack]
      exact congrArg (fun v : Custody => v.givenBack.length) hsame

/-- The copy of a quoted name is refused, and the caller leaves quoted mode before it goes on. -/
theorem close_after_leaving :
    let s : Scanner := ⟨0, some .standby, ['"', 'a', '"'], .nothing, 1, false, none⟩
    let h : Host :=
      ⟨⟨[.heap, .recorder (.fresh fun before _ => before.length = 1)], []⟩, [], []⟩
    let uses : List Use := [.pull, .leaveQuoted]
    s.displaced ⟨.initial, h⟩ uses = [] ∧
      ∃ m, s.close (s.afterUses ⟨.initial, h⟩ uses) = .ok () m ∧
        m.progress.accumulator = none ∧ m.host.memory.buffers.length = 1 ∧
        ∀ b, m.host.memory.Live b ↔
          h.memory.Live b ∨ b ∈ s.displaced ⟨.initial, h⟩ uses := by
  intro s h uses
  obtain ⟨m, hr, hlength⟩ : ∃ m, s.close (s.afterUses ⟨.initial, h⟩ uses) = .ok () m ∧
    m.host.memory.buffers.length = 1 := ⟨_, rfl, rfl⟩
  obtain ⟨hheld, hlive, -, -⟩ := close_gives_back s h uses hr
  exact ⟨by decide +kernel, m, hr, hheld, hlength, hlive⟩

/-- The copy of a quoted name is refused, and the caller pulls the next one. The buffer of the first
is not given back when the scan is closed. -/
theorem close_after_displacing :
    let s : Scanner := ⟨0, some .standby, ['"', '"', ' ', '"', '"'], .nothing, 1, false, none⟩
    let h : Host :=
      ⟨⟨[.heap, .recorder (.fresh fun before _ => before.length = 1)], []⟩, [], []⟩
    let uses : List Use := [.pull, .pull]
    ∃ m, s.close (s.afterUses ⟨.initial, h⟩ uses) = .ok () m ∧
      m.host.memory.Live 0 ∧ ¬h.memory.Live 0 ∧ s.displaced ⟨.initial, h⟩ uses = [0] := by
  intro s h uses
  have hgiven : (match s.close (s.afterUses ⟨.initial, h⟩ uses) with
      | .ok _ m => m.host.memory.givenBack
      | .error _ _ => []) = [false, true] := by
    decide +kernel
  cases hr : s.close (s.afterUses ⟨.initial, h⟩ uses) with
  | error e m =>
    rw [hr] at hgiven
    cases hgiven
  | ok _ m =>
    rw [hr] at hgiven
    refine ⟨m, rfl, ?_, ?_, by decide +kernel⟩
    · rw [Memory.live_iff, show m.host.memory.givenBack = [false, true] from hgiven]
      rfl
    · rw [Memory.live_iff]
      decide

end Scanner

end MiniLex
