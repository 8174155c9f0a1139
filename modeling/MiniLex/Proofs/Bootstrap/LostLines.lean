import MiniLex.Proofs.Bootstrap.Pull
import MiniLex.Proofs.Scan.Refused
import MiniLex.Proofs.Scan.Runs

/-!
# Line ends that are lost with their tokens

The line ends inside a token are counted once the token is made. If the copy of
its value is refused, the cursor is behind the token already, and these line
ends are never counted (`lostText`). All other line ends are, so every line is
exact but for those lost so far: `CountsBut.pull` for one pull,
`lineCount_add_lostLines` for every run of pulls with whatever allocators.
-/

namespace MiniLex.Scanner

open Bootstrap

variable {s : Scanner} {p q : Progress} {h : Host} {lost : Nat}

/-- The progress that pulls leave, one after the other, each of which finds one of these hosts. -/
def afterPulls (s : Scanner) (p : Progress) : List Host → Progress
  | [] => p
  | h :: hosts => s.afterPulls (Outcome.ofResult (s.pull ⟨p, h⟩)).progress hosts

/-- The text of the token that a pull loses. It is what the cursor has passed behind the gap if the
pull was refused memory, and nothing if it was not. -/
def lostText (s : Scanner) (p : Progress) (o : Outcome) : Text :=
  match o.answer with
  | .error (.allocation _) => s.source.slice (gapEnd s.source p.pos) o.progress.pos
  | _ => []

/-- The number of line ends in the tokens that pulls lose. -/
def lostLines (s : Scanner) (p : Progress) : List Host → Nat
  | [] => 0
  | h :: hosts =>
    let o := Outcome.ofResult (s.pull ⟨p, h⟩)
    (s.lostText p o).lineEnds + s.lostLines o.progress hosts

/-- An open scan has its cursor inside the text, and has counted the line ends before it but for a
number of them. -/
structure CountsBut (s : Scanner) (lost : Nat) (p : Progress) : Prop where
  isOpen : p.closed = false
  pos_le : p.pos ≤ s.source.length
  lineCount : p.lineCount + lost = Text.lineEnds (s.source.take p.pos)

theorem CountsBut.lineAt_add (hp : s.CountsBut lost p) {i : Nat} (hi : p.pos ≤ i) :
    s.lineAt p i + lost = 1 + Text.lineEnds (s.source.take i) := by
  have hcount := hp.lineCount
  rw [lineAt, Text.lineEnds_take_eq_add s.source hi]
  omega

theorem CountsBut.of_reaches (hp : s.CountsBut lost p) {stop : Nat} (hq : s.Reaches p stop q)
    (hle : p.pos ≤ stop) (hstop : stop ≤ s.source.length) : s.CountsBut lost q := by
  refine ⟨hq.closed.trans hp.isOpen, by rwa [hq.pos], ?_⟩
  have hcount := hp.lineCount
  rw [hq.lineCount, hq.pos, Text.lineEnds_take_eq_add s.source hle]
  omega

/-- A lexeme that stands behind the gap is inside the text. -/
theorem add_width_le_of_lexeme (hp : p.pos ≤ s.source.length) {l : Lexeme}
    (hread : Reading.read (s.source.drop (s.afterGap p).pos) = .lexeme l) :
    (s.afterGap p).pos + l.width ≤ s.source.length := by
  have hfinds := finds_finding hp
  have hpos : gapEnd s.source p.pos = (s.afterGap p).pos := rfl
  rw [finding, hpos, hread] at hfinds
  exact (hfinds.gap_of_token none).2.stop_le

/-- A lexeme that is lost leaves the scan behind it, with no line ends counted but those of the gap
before it. -/
theorem CountsBut.of_lost_lexeme (hp : s.CountsBut lost p) {l : Lexeme}
    (hread : Reading.read (s.source.drop (s.afterGap p).pos) = .lexeme l) :
    let q := (s.afterGap p).advance l.width
    s.CountsBut (lost + (s.source.slice (gapEnd s.source p.pos) q.pos).lineEnds) q := by
  intro q
  have hgap := hp.of_reaches (reaches_afterGap s p) (le_gapEnd _ _) (gapEnd_le_length hp.pos_le)
  have hcount := hgap.lineCount
  have hpos : (s.afterGap p).pos = gapEnd s.source p.pos := rfl
  have hle : gapEnd s.source p.pos ≤ q.pos := Nat.le_add_right _ _
  refine ⟨hgap.isOpen, add_width_le_of_lexeme hp.pos_le hread, ?_⟩
  have hlines : q.lineCount = (s.afterGap p).lineCount := rfl
  rw [Text.lineEnds_take_eq_add s.source hle, hlines, ← hpos]
  omega

/-- A pull counts all line ends but those of the token that it loses, and its lines are exact but
for those lost before. -/
theorem CountsBut.pull (hl : s.rules = some .bootstrap) (hp : s.CountsBut lost p) (h : Host) :
    let o := Outcome.ofResult (s.pull ⟨p, h⟩)
    s.CountsBut (lost + (s.lostText p o).lineEnds) o.progress ∧
      (∀ t, o.answer = .ok t →
        ∃ line, t.line = some line ∧ line + lost = 1 + Text.lineEnds (s.source.take t.start)) ∧
      ∀ line c name, o.answer = .error (.illegalCharacter line c name) →
        line + lost = 1 + Text.lineEnds (s.source.take o.progress.pos) := by
  obtain ⟨f, hf, hshow⟩ := exists_finds_shows hl hp.isOpen hp.pos_le
  cases hr : s.pull ⟨p, h⟩ with
  | ok token m =>
    rw [pull_ok hr] at hshow
    cases hshow with
    | token hq =>
      obtain ⟨hgap, hin⟩ := hf.gap_of_token none
      have hstart := hgap.le
      refine ⟨hp.of_reaches hq (Nat.le_trans hstart hin.start_le) hin.stop_le, ?_, nofun⟩
      intro t ht
      obtain rfl := Except.ok.inj ht
      exact ⟨_, rfl, hp.lineAt_add hstart⟩
  | error e m =>
    rcases pull_bootstrap_error hl hp.isOpen hr with hout | ⟨fault, l, rfl, hread, hm⟩
    · rw [hout] at hshow
      cases hshow with
      | illegal hq =>
        obtain ⟨hgap, hchar⟩ := hf.gap_of_illegal
        have hlt := (List.getElem?_eq_some_iff.mp hchar).1
        refine ⟨hp.of_reaches hq hgap.le (Nat.le_of_lt hlt), nofun, ?_⟩
        intro line c name he
        obtain ⟨rfl, -, -⟩ := Failure.illegalCharacter.inj (Except.error.inj he)
        show s.lineAt p _ + lost = 1 + Text.lineEnds (s.source.take m.progress.pos)
        rw [hq.pos]
        exact hp.lineAt_add hgap.le
    · refine ⟨?_, nofun, nofun⟩
      show s.CountsBut (lost + (s.source.slice (gapEnd s.source p.pos) m.progress.pos).lineEnds)
        m.progress
      rw [hm]
      exact hp.of_lost_lexeme hread

theorem CountsBut.afterPulls (hl : s.rules = some .bootstrap) (hosts : List Host)
    (hp : s.CountsBut lost p) :
    s.CountsBut (lost + s.lostLines p hosts) (s.afterPulls p hosts) := by
  induction hosts generalizing p lost with
  | nil => exact hp
  | cons h hosts ih =>
    have hnext := ih (hp.pull hl h).1
    rwa [Nat.add_assoc] at hnext

/-- After every run of pulls, some of which may have been refused memory, the line count is the
number of line ends before the cursor less those in the tokens that were lost. What is pulled next
has the line on which it stands less the same number. So lines are exact until a token with a line
end in it is lost, and no longer. -/
theorem lineCount_add_lostLines (hl : s.rules = some .bootstrap) (hosts : List Host) :
    let p := s.afterPulls .initial hosts
    let lost := s.lostLines .initial hosts
    p.lineCount + lost = Text.lineEnds (s.source.take p.pos) ∧
      (p.lineCount = Text.lineEnds (s.source.take p.pos) ↔ lost = 0) ∧
      ∀ h, (∀ t m, s.pull ⟨p, h⟩ = .ok t m →
          ∃ line, t.line = some line ∧ line + lost = 1 + Text.lineEnds (s.source.take t.start)) ∧
        ∀ line c name m, s.pull ⟨p, h⟩ = .error (.illegalCharacter line c name) m →
          line + lost = 1 + Text.lineEnds (s.source.take m.progress.pos) := by
  intro p lost
  have hinitial : s.CountsBut 0 .initial := ⟨rfl, Nat.zero_le _, rfl⟩
  have hp := hinitial.afterPulls hl hosts
  rw [Nat.zero_add] at hp
  have hcount : p.lineCount + lost = Text.lineEnds (s.source.take p.pos) := hp.lineCount
  refine ⟨hcount, by omega, fun h => ?_⟩
  obtain ⟨-, htoken, hillegal⟩ := hp.pull hl h
  refine ⟨fun t m hr => ?_, fun line c name m hr => ?_⟩
  · exact htoken t (by rw [hr]; rfl)
  · have hline := hillegal line c name (by rw [hr]; rfl)
    rwa [hr] at hline

/-- The copy of a string over two lines is refused, once. -/
theorem lineCount_of_lost_string :
    let s : Scanner := ⟨0, some .bootstrap, ['\'', '\n', '\'', 'c'], .nothing, 1, false, none⟩
    let h : Host := ⟨⟨[.heap, .recorder (.fresh fun before _ => before.isEmpty)], []⟩, [], []⟩
    s.lostLines .initial [h] = 1 ∧
      (s.afterPulls .initial [h]).lineCount + s.lostLines .initial [h] =
        Text.lineEnds (s.source.take (s.afterPulls .initial [h]).pos) ∧
      (s.afterPulls .initial [h]).pos = 3 := by
  intro s h
  exact ⟨rfl, (lineCount_add_lostLines (s := s) rfl [h]).1, rfl⟩

/-- Once the copy of a string over two lines is refused, the line count is not that of the cursor,
and a word on the second line is said to be on the first. -/
theorem line_wrong_of_lost_string :
    let s : Scanner := ⟨0, some .bootstrap, ['\'', '\n', '\'', 'c'], .nothing, 1, false, none⟩
    let h : Host := ⟨⟨[.heap, .recorder (.fresh fun before _ => before.isEmpty)], []⟩, [], []⟩
    ∃ m, s.pull ⟨.initial, h⟩ = .error (.allocation (.refused .clone)) m ∧
      ¬m.progress.lineCount = Text.lineEnds (s.source.take m.progress.pos) ∧
      ∃ m', s.pull m = .ok ⟨.bootstrap .ident, some ['c'], 3, 4, some 1⟩ m' ∧
        ¬1 = 1 + Text.lineEnds (s.source.take 3) := by
  intro s h
  exact ⟨_, rfl, by decide, _, rfl, by decide⟩

end MiniLex.Scanner
