import MiniLex.Proofs.Bootstrap.LongestMatch
import MiniLex.Proofs.Scan.Totality

/-!
# Pulling bootstrap tokens

A pull of an open bootstrap scan answers with what the longest-match rules find
from its cursor on (`pull_iff_finds`). What it does to the progress of the scan
depends on where the find ends, and on nothing else: `Shows` says so once for
tokens and for refused characters alike.
-/

namespace MiniLex.Scanner

open Bootstrap

variable {s : Scanner} {p q : Progress} {h : Host}

/-- The line on which an offset behind the cursor lies. -/
def lineAt (s : Scanner) (p : Progress) (i : Nat) : Nat :=
  p.lineCount + (s.source.slice p.pos i).lineEnds + 1

/-- A scan gets from one progress to another whose cursor is at this offset. The line ends on the way
are counted, and a scan that was open stays so. -/
structure Reaches (s : Scanner) (p : Progress) (stop : Nat) (q : Progress) : Prop where
  pos : q.pos = stop
  lineCount : q.lineCount = p.lineCount + (s.source.slice p.pos stop).lineEnds
  closed : q.closed = p.closed

/-- An outcome shows what is found: a token is returned, with the cursor behind it, and a character
is refused, with the cursor on it. -/
inductive Shows (s : Scanner) (p : Progress) : Finding → Outcome → Prop
  | token {kind : TokenKind} {value : Option Text} {start stop : Nat} {q : Progress} :
    s.Reaches p stop q →
    Shows s p (.token kind value start stop)
      ⟨.ok ⟨kind, value, start, stop, some (s.lineAt p start)⟩, q⟩
  | illegal {c : Char} {i : Nat} {q : Progress} :
    s.Reaches p i q →
    Shows s p (.illegal c i) ⟨.error (.illegalCharacter (s.lineAt p i) c s.sourceName), q⟩

theorem reaches_afterGap (s : Scanner) (p : Progress) :
    s.Reaches p (gapEnd s.source p.pos) (s.afterGap p) :=
  ⟨rfl, by rw [← gap_eq_slice]; rfl, rfl⟩

theorem Reaches.line_eq (h : s.Reaches p q.pos q) : q.line = s.lineAt p q.pos := by
  rw [Progress.line, h.lineCount, lineAt]

theorem lineOf_bootstrap (hl : s.rules = some .bootstrap) (p : Progress) :
    s.lineOf p = some p.line := by
  simp [lineOf, tracksLines, hl, Language.tracksLines]

/-- The outcome of a bootstrap pull shows what reading finds. -/
theorem shows_bootstrapOutcome (hl : s.rules = some .bootstrap) (p : Progress) :
    s.Shows p (finding s.source p.pos) (s.bootstrapOutcome p) := by
  have hq := reaches_afterGap s p
  have hle := le_gapEnd s.source p.pos
  have hpos : gapEnd s.source p.pos = (s.afterGap p).pos := hq.pos.symm
  simp only [finding, bootstrapOutcome]
  rw [hpos] at hq hle ⊢
  generalize s.afterGap p = q at hq hle
  cases Reading.read (s.source.drop q.pos) with
  | atEnd =>
    simp only [endToken, lineOf_bootstrap hl, hq.line_eq]
    exact .token ⟨rfl, hq.lineCount, hq.closed⟩
  | illegal c =>
    simp only [hq.line_eq]
    exact .illegal hq
  | lexeme l =>
    simp only [lexemeToken, lineOf_bootstrap hl, hq.line_eq]
    refine .token ⟨rfl, ?_, hq.closed⟩
    rw [Text.lineEnds_slice_add _ hle (Nat.le_add_right _ l.width), ← Nat.add_assoc,
      ← hq.lineCount]
    rfl

/-- The outcome of a pull of an open bootstrap scan shows what reading finds from its cursor on. -/
theorem shows_outcome (hl : s.rules = some .bootstrap) (ho : p.closed = false) :
    s.Shows p (finding s.source p.pos) (s.outcome p) := by
  have hout : s.outcome p = s.bootstrapOutcome p := by
    simp [outcome, ho, readOutcome, hl]
  rw [hout]
  exact shows_bootstrapOutcome hl p

theorem exists_finds_shows (hl : s.rules = some .bootstrap) (ho : p.closed = false)
    (hp : p.pos ≤ s.source.length) :
    ∃ f, Finds s.source p.pos f ∧ s.Shows p f (s.outcome p) :=
  ⟨_, finds_finding hp, shows_outcome hl ho⟩

/-- A pull of an open bootstrap scan is a longest-match lexer: it returns a token, with the cursor
behind it, where the rules find that token, and refuses a character, with the cursor on it, where
they find that no rule matches anything. One of the two is always found. A token that begins with an
apostrophe is the longest text that matches the rule for strings there. -/
theorem pull_iff_finds (hl : s.rules = some .bootstrap) (ho : p.closed = false)
    (hp : p.pos ≤ s.source.length) (hs : h.memory.Serves s.allocator) :
    (∃ f, Finds s.source p.pos f) ∧
    (∀ kind value start stop, Finds s.source p.pos (.token kind value start stop) ↔
      ∃ line m, s.pull ⟨p, h⟩ = .ok ⟨kind, value, start, stop, some line⟩ m ∧
        m.progress.pos = stop) ∧
    (∀ c i, Finds s.source p.pos (.illegal c i) ↔
      ∃ line m, s.pull ⟨p, h⟩ = .error (.illegalCharacter line c s.sourceName) m ∧
        m.progress.pos = i) ∧
    (∀ token m, s.pull ⟨p, h⟩ = .ok token m → s.source[token.start]? = some apostrophe →
      LongestMatch s.source token.start .string (s.source.slice token.start token.stop)) := by
  obtain ⟨f, hf, hshow⟩ := exists_finds_shows hl ho hp
  obtain ⟨h', hr, -⟩ := pull_run hs p
  have huniq : ∀ f', Finds s.source p.pos f' → f' = f := by
    intro f' hf'
    rw [(finds_iff hp).mp hf', (finds_iff hp).mp hf]
  generalize s.outcome p = o at hshow hr
  refine ⟨⟨f, hf⟩, fun kind value start stop => ⟨fun hf' => ?_, ?_⟩,
    fun c i => ⟨fun hf' => ?_, ?_⟩, ?_⟩
  · obtain rfl := huniq _ hf'
    cases hshow with
    | token hq => exact ⟨_, _, hr, hq.pos⟩
  · intro ⟨line, m, hm, hpos⟩
    rw [hr] at hm
    cases hshow with
    | token hq => cases hm; exact hf
    | illegal _ => cases hm
  · obtain rfl := huniq _ hf'
    cases hshow with
    | illegal hq => exact ⟨_, _, hr, hq.pos⟩
  · intro ⟨line, m, hm, hpos⟩
    rw [hr] at hm
    cases hshow with
    | token _ => cases hm
    | illegal hq =>
      cases hm
      rw [← hpos, hq.pos]
      exact hf
  · intro token m hm hc
    rw [hr] at hm
    cases hshow with
    | token _ => cases hm; exact hf.longest_string hc
    | illegal _ => cases hm

/-- A string that never closes: its longest part that ends in an apostrophe is found. -/
theorem finds_unclosed_string :
    Finds ['\'', 'a', '\'', '\'', 'b'] 0 (.token (.bootstrap .ident) (some ['a']) 0 3) := by
  let s : Scanner :=
    ⟨0, some .bootstrap, ['\'', 'a', '\'', '\'', 'b'], .nothing, Memory.sharedHeap, false, none⟩
  have hfinds := pull_iff_finds (s := s) (p := .initial) (h := .initial) rfl rfl (by decide) trivial
  exact (hfinds.2.1 _ _ _ _).mpr ⟨1, _, rfl, rfl⟩

end MiniLex.Scanner
