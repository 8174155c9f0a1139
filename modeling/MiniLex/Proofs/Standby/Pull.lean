import MiniLex.Proofs.Scan.Totality
import MiniLex.Proofs.Standby.Reading

/-!
# Pulling standby tokens

A pull of an open standby scan never fails where the allocator does not: it
skips blanks, and returns the token that the rules of standby lists give behind
them (`pull_reads`). What it does to the progress of the scan is said once, in
`Advances`; an error is kept only if a quoted name never ends.
-/

namespace MiniLex.Standby

/-- At an offset begins a quoted name that never ends. -/
def Unclosed (source : Text) (p : Nat) : Prop :=
  ∃ inside value, source.drop p = '"' :: inside ∧ Doubled.Decodes '"' inside value

variable {source : Text} {p : Nat} {body : Doubled.Body}

theorem unclosed_iff_of_quoted (h : Reading.read (source.drop p) = .quoted body) :
    Unclosed source p ↔ body.isClosed = false := by
  obtain ⟨rest, hd, rfl⟩ := exists_quote_of_quoted h
  constructor
  · intro ⟨inside, value, hd', hdec⟩
    rw [hd] at hd'
    rw [(List.cons.inj hd').2]
    exact (Doubled.Body.read_of_decodes hdec).1
  · intro hclosed
    exact ⟨rest, _, hd, (Doubled.Body.decodes_of_isClosed_eq_false hclosed).1⟩

theorem not_unclosed (h : ∀ body, Reading.read (source.drop p) ≠ .quoted body) :
    ¬Unclosed source p := by
  intro ⟨inside, value, hd, _⟩
  exact h _ (read_quote hd)

end MiniLex.Standby

namespace MiniLex.Scanner

open Standby

variable {s : Scanner} {p : Progress} {h : Host}

/-- A scan gets from one progress to another by the token that stands at an offset. -/
structure Advances (s : Scanner) (p : Progress) (start : Nat) (token : Token) (q : Progress) :
    Prop where
  blanks : s.source.LongestRun Blank p.pos start
  reads : Reads s.source start token
  pos : q.pos = token.stop
  mode : p.mode = .normal → q.mode = .normal
  accumulator : p.accumulator = none → q.accumulator = none
  closed : q.closed = p.closed
  lineCount : q.lineCount = p.lineCount
  /-- The first error is kept. -/
  error_unclosed : Unclosed s.source start → q.error = p.error.or (some ⟨unterminated, []⟩)
  error_same : ¬Unclosed s.source start → q.error = p.error

/-- What does not begin a quoted name leaves everything but the cursor and the text matched last. -/
theorem advances_of_not_quoted {start : Nat} {token : Token} (text : Text)
    (hb : s.source.LongestRun Blank p.pos start) (hr : Reads s.source start token)
    (hn : ¬Unclosed s.source start) :
    s.Advances p start token { p with pos := token.stop, lastText := text } :=
  ⟨hb, hr, rfl, fun hm => hm, fun ha => ha, rfl, rfl, fun hu => absurd hu hn, fun _ => rfl⟩

theorem advances_of_quoted {start : Nat} {token : Token} {closed : Bool}
    (hb : s.source.LongestRun Blank p.pos start) (hr : Reads s.source start token)
    (hu : Unclosed s.source start ↔ closed = false) :
    s.Advances p start token (afterBody closed token.stop p) := by
  refine ⟨hb, hr, rfl, fun _ => rfl, fun _ => rfl, rfl, rfl, fun h => ?_, fun h => ?_⟩
  · rw [afterBody, hu.mp h]
    rfl
  · rw [afterBody, eq_true_of_ne_false (mt hu.mpr h)]
    rfl

/-- The outcome of a standby pull is the token that is read behind the blanks. -/
theorem exists_advances (hl : s.rules = some .standby) (ho : p.closed = false)
    (hp : p.pos ≤ s.source.length) :
    ∃ start token q, s.outcome p = ⟨.ok token, q⟩ ∧ s.Advances p start token q := by
  have hb := Text.longestRun_takeWhile isBlank_iff hp
  have hout : s.outcome p = s.standbyOutcome p := by
    simp [outcome, ho, readOutcome, hl]
  have hskip : s.afterBlanks p =
    { p with pos := p.pos + ((s.source.drop p.pos).takeWhile isBlank).length } := rfl
  generalize p.pos + ((s.source.drop p.pos).takeWhile isBlank).length = start at hb hskip
  have hr := reads_tokenAt hb.le_length
  rw [hout, standbyOutcome, hskip]
  refine ⟨start, tokenAt s.source start, ?_⟩
  generalize htoken : tokenAt s.source start = token at hr
  rw [tokenAt] at htoken
  dsimp only
  cases hread : Reading.read (s.source.drop start) with
  | atEnd =>
    rw [hread] at htoken
    subst htoken
    refine ⟨_, ?_, advances_of_not_quoted [] hb hr (not_unclosed (by simp [hread]))⟩
    simp only [endToken, lineOf_standby hl]
    rfl
  | lexeme l =>
    rw [hread] at htoken
    subst htoken
    refine ⟨_, ?_, advances_of_not_quoted (s.source.slice start (start + l.width)) hb hr
      (not_unclosed (by simp [hread]))⟩
    simp only [lexemeToken, lineOf_standby hl]
    rfl
  | quoted body =>
    rw [hread] at htoken
    subst htoken
    refine ⟨_, ?_, advances_of_quoted hb hr (unclosed_iff_of_quoted hread)⟩
    cases hclosed : body.isClosed
    · simp only [bodyToken, hclosed]
      rfl
    · simp only [bodyToken, hclosed]
      rfl

/-- A pull of an open standby scan that is in normal mode never fails. It skips the blanks at its
cursor and returns the only token that the rules of standby lists give behind them. The cursor is
then behind that token, and the scan in normal mode again. An error is kept only where a quoted name
never ends, and only if none is kept already. -/
theorem pull_reads (hl : s.rules = some .standby) (ho : p.closed = false) (hm : p.mode = .normal)
    (ha : p.accumulator = none) (hp : p.pos ≤ s.source.length)
    (hs : h.memory.Serves s.allocator) :
    ∃ start token m, s.pull ⟨p, h⟩ = .ok token m ∧
      s.source.LongestRun Blank p.pos start ∧
      (∀ t, Reads s.source start t ↔ t = token) ∧
      m.progress.pos = token.stop ∧ m.progress.mode = .normal ∧ m.progress.accumulator = none ∧
      m.progress.closed = false ∧ m.progress.lineCount = p.lineCount ∧
      (Unclosed s.source start → m.progress.error = p.error.or (some ⟨unterminated, []⟩)) ∧
      (¬Unclosed s.source start → m.progress.error = p.error) := by
  obtain ⟨start, token, q, hout, hq⟩ := exists_advances hl ho hp
  obtain ⟨h', hr, -⟩ := pull_run hs p
  rw [hout] at hr
  have hle := hq.blanks.le_length
  have htoken := (reads_iff hle).mp hq.reads
  refine ⟨start, token, ⟨q, h'⟩, hr, hq.blanks, fun t => ?_, hq.pos, hq.mode hm, hq.accumulator ha,
    hq.closed.trans ho, hq.lineCount, hq.error_unclosed, hq.error_same⟩
  rw [reads_iff hle, htoken]

/-- A quoted name that ends in a doubled quote never ends; an open arena serves its buffer. -/
theorem pull_unclosed_name :
    let s : Scanner := ⟨0, some .standby, [' ', '"', 'a', '"', '"'], .nothing, 1, false, none⟩
    let h : Host := ⟨⟨[.heap, .arena (.fresh Arena.defaultName)], []⟩, [], []⟩
    ∃ m, s.pull ⟨.initial, h⟩ = .ok ⟨.standby .junk, none, 1, 5, none⟩ m ∧
      m.progress.error = some ⟨unterminated, []⟩ := by
  intro s h
  obtain ⟨start, token, m, hr, hb, ht, -, -, -, -, -, he, -⟩ :=
    pull_reads (s := s) (p := .initial) (h := h) rfl rfl rfl rfl (Nat.zero_le _) rfl
  have hstart : s.source.LongestRun Blank 0 1 :=
    Text.longestRun_takeWhile isBlank_iff (Nat.zero_le _)
  obtain rfl := hb.unique hstart
  have hdec : Doubled.Decodes '"' ['a', '"', '"'] ['a', '"'] := .char (by decide) (.pair .nil)
  obtain rfl := (ht _).mp (.unclosed rfl hdec)
  exact ⟨m, hr, he ⟨_, _, rfl, hdec⟩⟩

end MiniLex.Scanner
