import MiniLex.Proofs.Bootstrap.Pull
import MiniLex.Proofs.Scan.Runs

/-!
# Line numbers of bootstrap tokens

A bootstrap scan counts line ends in two places, in the gap before a token and
inside its text. Between two pulls it has counted all line ends before the
cursor (`LinesCounted`), so tokens and refused characters carry the line on
which they stand: `exactLines_outcome` for one pull, `pulls_exactLines` for
every run of pulls.
-/

namespace MiniLex.Scanner

open Bootstrap

variable {s : Scanner} {p q : Progress} {hosts : List Host}

/-- An open scan has its cursor inside the text, and has counted the line ends before it. -/
structure LinesCounted (s : Scanner) (p : Progress) : Prop where
  isOpen : p.closed = false
  pos_le : p.pos ≤ s.source.length
  lineCount : p.lineCount = Text.lineEnds (s.source.take p.pos)

/-- The lines of an outcome are exact: that of a token for where the token starts, and that of a
refused character and the line count for where the cursor is. -/
structure ExactLines (s : Scanner) (o : Outcome) : Prop where
  lineCount : o.progress.lineCount = Text.lineEnds (s.source.take o.progress.pos)
  token : ∀ t, o.answer = .ok t → t.line = some (1 + Text.lineEnds (s.source.take t.start))
  failure : ∀ e, o.answer = .error e →
    ∃ c, e = .illegalCharacter (1 + Text.lineEnds (s.source.take o.progress.pos)) c s.sourceName

theorem linesCounted_initial (s : Scanner) : s.LinesCounted .initial :=
  ⟨rfl, Nat.zero_le _, rfl⟩

/-- The line of an offset behind the cursor, once all line ends before the cursor are counted. -/
theorem LinesCounted.lineAt_eq (hp : s.LinesCounted p) {i : Nat} (h : p.pos ≤ i) :
    s.lineAt p i = 1 + Text.lineEnds (s.source.take i) := by
  rw [lineAt, hp.lineCount, ← Text.lineEnds_take_eq_add s.source h, Nat.add_comm]

theorem LinesCounted.of_reaches (hp : s.LinesCounted p) {stop : Nat} (hq : s.Reaches p stop q)
    (hle : p.pos ≤ stop) (hstop : stop ≤ s.source.length) : s.LinesCounted q := by
  refine ⟨by rw [hq.closed, hp.isOpen], by rwa [hq.pos], ?_⟩
  rw [hq.lineCount, hp.lineCount, ← Text.lineEnds_take_eq_add s.source hle, hq.pos]

theorem Reaches.lineCount_le {stop : Nat} (hq : s.Reaches p stop q) :
    p.lineCount ≤ q.lineCount := by
  rw [hq.lineCount]
  exact Nat.le_add_right _ _

/-- A pull has exact lines and counts on from where the last one stopped. -/
theorem exactLines_outcome (hl : s.rules = some .bootstrap) (hp : s.LinesCounted p) :
    s.LinesCounted (s.outcome p).progress ∧ s.ExactLines (s.outcome p) ∧
      p.lineCount ≤ (s.outcome p).progress.lineCount := by
  obtain ⟨f, hf, hshow⟩ := exists_finds_shows hl hp.isOpen hp.pos_le
  generalize s.outcome p = o at hshow
  cases hshow with
  | token hq =>
    obtain ⟨hgap, hin⟩ := hf.gap_of_token none
    have hstart := hgap.le
    have hc := hp.of_reaches hq (Nat.le_trans hstart hin.start_le) hin.stop_le
    refine ⟨hc, ⟨hc.lineCount, fun t ht => ?_, nofun⟩, hq.lineCount_le⟩
    obtain rfl := Except.ok.inj ht
    rw [hp.lineAt_eq hstart]
  | @illegal c i q hq =>
    obtain ⟨hgap, hchar⟩ := hf.gap_of_illegal
    have hlt := (List.getElem?_eq_some_iff.mp hchar).1
    have hc := hp.of_reaches hq hgap.le (Nat.le_of_lt hlt)
    refine ⟨hc, ⟨hc.lineCount, nofun, fun e he => ⟨c, ?_⟩⟩, hq.lineCount_le⟩
    obtain rfl := Except.error.inj he
    rw [hp.lineAt_eq hgap.le, hq.pos]

theorem lineCount_le_of_mem_pulls (hl : s.rules = some .bootstrap)
    (hs : ∀ h ∈ hosts, h.memory.Serves s.allocator) (hp : s.LinesCounted p) :
    ∀ o ∈ s.pulls p hosts, p.lineCount ≤ o.progress.lineCount := by
  refine pulls_induction (I := fun q => s.LinesCounted q ∧ p.lineCount ≤ q.lineCount) hs
    (fun q hq => ?_) p ⟨hp, Nat.le_refl _⟩
  obtain ⟨hc, -, hle⟩ := exactLines_outcome hl hq.1
  have hle' := Nat.le_trans hq.2 hle
  exact ⟨⟨hc, hle'⟩, hle'⟩

theorem pairwise_lineCount_pulls (hl : s.rules = some .bootstrap)
    (hs : ∀ h ∈ hosts, h.memory.Serves s.allocator) (hp : s.LinesCounted p) :
    (p.lineCount :: (s.pulls p hosts).map (·.progress.lineCount)).Pairwise (· ≤ ·) := by
  induction hosts generalizing p with
  | nil => exact List.pairwise_singleton _ _
  | cons h hosts ih =>
    have hs' : ∀ h' ∈ hosts, h'.memory.Serves s.allocator := fun h' hh =>
      hs h' (List.mem_cons_of_mem h hh)
    have hle := lineCount_le_of_mem_pulls hl hs hp
    obtain ⟨hc, -⟩ := exactLines_outcome hl hp
    refine List.pairwise_cons.mpr ⟨List.forall_mem_map.mpr hle, ?_⟩
    rw [pulls_cons (hs h List.mem_cons_self), List.map_cons]
    exact ih hs' hc

/-- In every run of a bootstrap scan all lines are exact, and line counts never go down. -/
theorem pulls_exactLines (hl : s.rules = some .bootstrap)
    (hs : ∀ h ∈ hosts, h.memory.Serves s.allocator) :
    (∀ o ∈ s.pulls .initial hosts, s.ExactLines o) ∧
      (0 :: (s.pulls .initial hosts).map (·.progress.lineCount)).Pairwise (· ≤ ·) := by
  refine ⟨?_, pairwise_lineCount_pulls hl hs (linesCounted_initial s)⟩
  refine pulls_induction (I := s.LinesCounted) hs (fun q hq => ?_) _ (linesCounted_initial s)
  obtain ⟨hc, he, -⟩ := exactLines_outcome hl hq
  exact ⟨hc, he⟩

/-- A string with a line end inside, and behind it a character that no rule accepts there. -/
theorem pulls_string_over_lines :
    let s : Scanner := ⟨0, some .bootstrap, ['\'', '\n', '\'', '#'], .nothing, 0, false, none⟩
    (∀ o ∈ s.pulls .initial [.initial, .initial], s.ExactLines o) ∧
      (s.pulls .initial [.initial, .initial]).map (·.progress.lineCount) = [1, 1] := by
  intro s
  have hs : ∀ h ∈ [Host.initial, Host.initial], h.memory.Serves s.allocator := by
    intro h hh
    simp only [List.mem_cons, List.not_mem_nil, or_false, or_self] at hh
    subst hh
    trivial
  exact ⟨(pulls_exactLines rfl hs).1, rfl⟩

end MiniLex.Scanner
