import MiniLex.Proofs.Scan.Exchange
import MiniLex.Proofs.Standby.OpenName

/-!
# The first error of a standby scan

Whoever consumes the tokens of a standby scan reports errors of its own, and the
scan itself reports a quoted name that never ends. Each report is worded by the
token that was returned last (`wording`), and the first one is kept for good.

* `Scanner.lastText_eq_near`, `message_near`: the text that a pull leaves as the
  one matched last words what is reported next by the token that it returns;
* `Reported.step`: one call, by the consumer or from an arena that tears the
  scan down, adds to the reports so far at most the one that it makes;
* `first_error_kept`: what every call of a run finds, leaves and answers.
-/

namespace MiniLex

namespace Standby

variable {source : Text} {t : Token}

/-- How an error is worded that is reported once this token has been returned, and no other since,
or before any token has. -/
def wording (source : Text) (complaint : String) : Option Token → String
  | none => complaint ++ " at end of input"
  | some t =>
    if t.kind.isEnd = true ∨ IsOpenName source t then complaint ++ " at end of input"
    else if t.kind = .standby .name ∧ source[t.start]? = some '"' then
      complaint ++ " at or near \"\"\""
    else
      complaint ++ " at or near \"" ++ String.ofList (source.slice t.start t.stop) ++ "\""

/-- The text at which an error shows behind a token. -/
def near (source : Text) (t : Token) : Text :=
  if t.kind.isEnd = true ∨ IsOpenName source t then []
  else if t.kind = .standby .name ∧ source[t.start]? = some '"' then ['"']
  else source.slice t.start t.stop

/-- The message of an error behind a token is worded by that token. -/
theorem message_near (hin : t.StandsIn source) (complaint : String) :
    Diagnostic.message ⟨complaint, near source t⟩ = wording source complaint (some t) := by
  rw [wording, near]
  split
  · rfl
  rename_i hopen
  split
  · rw [Diagnostic.message, if_neg (List.cons_ne_nil _ _), String.append_assoc, String.append_assoc]
    rfl
  · have hk : t.kind.isEnd = false := Bool.eq_false_iff.mpr (not_or.mp hopen).1
    have hlt := hin.takes hk
    refine if_neg (List.ne_nil_of_length_pos ?_)
    rw [Text.length_slice hin.stop_le]
    exact Nat.sub_pos_of_lt hlt

end Standby

namespace Scanner

open Standby

variable {s : Scanner} {p q : Progress} {t : Token}

/-! ## The text matched last -/

/-- The text that a standby pull leaves as the one matched last, by what is read behind blanks. -/
theorem lastText_of_outcome (hl : s.rules = some .standby) (ho : p.closed = false) :
    (s.outcome p).progress.lastText =
      match Reading.read (s.source.drop (s.afterBlanks p).pos) with
      | .atEnd => []
      | .lexeme l => s.source.slice (s.afterBlanks p).pos ((s.afterBlanks p).pos + l.width)
      | .quoted body => if body.isClosed then ['"'] else [] := by
  have hout : s.outcome p = s.standbyOutcome p := by simp [outcome, ho, readOutcome, hl]
  rw [hout, standbyOutcome]
  dsimp only
  cases Reading.read (s.source.drop (s.afterBlanks p).pos) <;> rfl

/-- A pull leaves the text at which an error shows behind its token as the one matched last. -/
theorem lastText_eq_near (hl : s.rules = some .standby) (ho : p.closed = false)
    (hout : s.outcome p = ⟨.ok t, q⟩) (hq : s.Advances p t.start t q) :
    q.lastText = near s.source t := by
  have hlast := lastText_of_outcome hl ho
  have hstart : (s.afterBlanks p).pos = t.start := by
    have hp : p.pos ≤ s.source.length := Nat.le_trans hq.blanks.le hq.blanks.le_length
    exact (Text.longestRun_takeWhile isBlank_iff hp).unique hq.blanks
  have ht := hq.reads.eq_tokenAt
  rw [hout, hstart] at hlast
  rw [tokenAt] at ht
  rw [near]
  cases hread : Reading.read (s.source.drop t.start) with
  | atEnd =>
    simp only [hread] at ht hlast
    rw [hlast, if_pos (.inl (by rw [ht]; rfl))]
  | lexeme l =>
    simp only [hread] at ht hlast
    have hnot : s.source[t.start]? ≠ some '"' := by
      intro hquote
      rw [read_quote (Text.drop_eq_cons hquote)] at hread
      cases hread
    have hk : t.kind.isEnd ≠ true := by
      intro hk
      rw [hq.reads.standsIn.2.atEnd hk, List.drop_length] at hread
      cases hread
    have hstop : t.stop = t.start + l.width := congrArg Token.stop ht
    rw [hlast, if_neg (not_or.mpr ⟨hk, fun h => hnot h.2⟩), if_neg fun h => hnot h.2, hstop]
  | quoted body =>
    simp only [hread] at ht hlast
    obtain ⟨rest, hd, -⟩ := exists_quote_of_quoted hread
    have hquote := Text.getElem?_of_drop_eq_cons hd
    cases hclosed : body.isClosed with
    | true =>
      simp only [hclosed, ↓reduceIte] at ht hlast
      have hk : t.kind = .standby .name := congrArg Token.kind ht
      rw [hlast, if_neg (by simp [hk, IsOpenName, TokenKind.isEnd]), if_pos ⟨hk, hquote⟩]
    | false =>
      simp only [hclosed, Bool.false_eq_true, ↓reduceIte] at ht hlast
      rw [hlast, if_pos (.inr ⟨congrArg Token.kind ht, hquote⟩)]

end Scanner

/-! ## Reports, one after the other -/

namespace Exchange

/-- The message of the error that is reported, if one is, where this token has been returned last:
by the consumer, or by the scan itself if it returns a quoted name that never ends. -/
def report? (source : Text) (last : Option Token) (x : Exchange) : Option String :=
  match x.dealing.complaint? with
  | some complaint => some (Standby.wording source complaint last)
  | none =>
    x.token?.bind fun t =>
      if Standby.IsOpenName source t then
        some (Standby.wording source Scanner.unterminated (some t))
      else none

/-- The token that has been returned last after several exchanges. -/
def lastToken (last : Option Token) : List Exchange → Option Token
  | [] => last
  | x :: xs => lastToken (x.token?.or last) xs

/-- The messages of all errors that are reported in several exchanges. -/
def reports (source : Text) (last : Option Token) : List Exchange → List String
  | [] => []
  | x :: xs => (x.report? source last).toList ++ reports source (x.token?.or last) xs

theorem reports_append (source : Text) (last : Option Token) (xs ys : List Exchange) :
    reports source last (xs ++ ys) =
      reports source last xs ++ reports source (lastToken last xs) ys := by
  induction xs generalizing last with
  | nil => rfl
  | cons x xs ih => rw [List.cons_append, reports, ih, reports, lastToken, List.append_assoc]

end Exchange

/-! ## The reports so far -/

namespace Scanner

open ScanM Standby

variable {s : Scanner} {p : Progress} {h : Host} {last : Option Token} {messages : List String}
  {x : Exchange}

/-- A scan that has returned this token last keeps the first of these messages, and the text matched
last is that by which the next report is worded. -/
structure Reported (s : Scanner) (last : Option Token) (messages : List String) (p : Progress) :
    Prop where
  pos_le : p.pos ≤ s.source.length
  near : ∀ complaint, Diagnostic.message ⟨complaint, p.lastText⟩ = wording s.source complaint last
  error : p.error.map Diagnostic.message = messages.head?

theorem reported_initial (s : Scanner) : s.Reported none [] .initial :=
  ⟨Nat.zero_le _, fun _ => rfl, rfl⟩

/-- An error that is reported now is worded by the token that has been returned last. It is kept if
it is the first. -/
theorem Reported.record (hp : s.Reported last messages p) (complaint : String) :
    s.Reported last (messages ++ [wording s.source complaint last])
      { p with error := p.error.or (some ⟨complaint, p.lastText⟩) } := by
  refine ⟨hp.pos_le, hp.near, ?_⟩
  rw [Option.map_or, hp.error, List.head?_append, Option.map_some, hp.near]
  rfl

/-- Closing the scan reports nothing, and the text matched last stays. -/
theorem Reported.shut (hp : s.Reported last messages p) :
    s.Reported last (messages ++ []) p.shut := by
  rw [List.append_nil]
  exact ⟨p.shut_pos ▸ hp.pos_le, p.shut_lastText ▸ hp.near, p.shut_error ▸ hp.error⟩

/-- A token that is pulled words the next report. If it is a quoted name that never ends, it is
reported itself. -/
theorem Reported.pull (hl : s.rules = some .standby) (ho : p.closed = false)
    (hp : s.Reported last messages p) :
    ∃ t q, s.outcome p = ⟨.ok t, q⟩ ∧
      s.Reported (some t) (messages ++ (if IsOpenName s.source t then
        some (wording s.source unterminated (some t)) else none).toList) q := by
  obtain ⟨start, t, q, hout, hq⟩ := exists_advances hl ho hp.pos_le
  obtain ⟨rfl, hin⟩ := hq.reads.standsIn
  have hpos : q.pos ≤ s.source.length := hq.pos ▸ hin.stop_le
  have hnear : ∀ complaint, Diagnostic.message ⟨complaint, q.lastText⟩ =
      wording s.source complaint (some t) := by
    intro complaint
    rw [lastText_eq_near hl ho hout hq, message_near hin]
  refine ⟨t, q, hout, hpos, hnear, ?_⟩
  have hopen := unclosed_iff_isOpenName hq.reads
  split
  · rename_i hname
    have hmessage : Diagnostic.message ⟨unterminated, []⟩ =
        wording s.source unterminated (some t) := by
      rw [wording, if_pos (.inr hname)]
      rfl
    rw [hq.error_unclosed (hopen.mpr hname), Option.map_or, hp.error, List.head?_append,
      Option.map_some, hmessage]
    rfl
  · rename_i hname
    rw [hq.error_same (mt hopen.mp hname), hp.error, Option.toList_none, List.append_nil]

/-- One thing that is done with a scan adds to the reports at most the one that it makes. -/
theorem Reported.step (hl : s.rules = some .standby) (hp : s.Reported last messages p)
    (hs : p.closed = false → h.memory.Serves s.allocator) (d : Dealing) :
    let x := s.exchange ⟨p, h⟩ d
    s.Reported (x.token?.or last) (messages ++ (x.report? s.source last).toList)
      x.left.progress := by
  intro x
  obtain ⟨hanswer, hleft⟩ := exchange_eq hs d
  have hdealing : x.dealing = d := rfl
  have htoken : x.token? = Exchange.tokenOf (s.dealt p d).answer := congrArg _ hanswer
  rw [hleft, Exchange.report?, hdealing, htoken]
  cases d with
  | release => exact hp.shut
  | demand d =>
    cases d with
    | recordError complaint | noteError complaint => exact hp.record complaint
    | close | finish => exact hp.shut
    | pull =>
      rw [dealt]
      cases hc : p.closed with
      | true =>
        rw [effect, outcome_of_closed hc]
        rw [← List.append_nil messages] at hp
        exact hp
      | false =>
        obtain ⟨t, q, hout, hq⟩ := hp.pull hl hc
        rw [effect_pull hout]
        exact hq

/-- Before each exchange of a run the scan keeps the first of the messages that have been reported
so far. -/
theorem Reported.run (hl : s.rules = some .standby) (calls : List (Dealing × Host))
    (hp : s.Reported last messages p)
    (hs : ∀ x ∈ s.exchanges p calls, x.found.progress.closed = false →
      x.found.host.memory.Serves s.allocator)
    {earlier later : List Exchange} (hx : s.exchanges p calls = earlier ++ x :: later) :
    x = s.exchange x.found x.dealing ∧
      s.Reported (Exchange.lastToken last earlier)
        (messages ++ Exchange.reports s.source last earlier) x.found.progress := by
  induction calls generalizing p last messages earlier with
  | nil => cases earlier <;> cases hx
  | cons call calls ih =>
    obtain ⟨d, h⟩ := call
    obtain ⟨hhead, htail⟩ := List.forall_mem_cons.mp hs
    cases earlier with
    | nil =>
      obtain ⟨rfl, -⟩ := List.cons.inj hx
      rw [Exchange.reports, List.append_nil]
      exact ⟨rfl, hp⟩
    | cons y earlier =>
      obtain ⟨rfl, hrest⟩ := List.cons.inj hx
      rw [Exchange.reports, ← List.append_assoc]
      exact ih (hp.step hl hhead d) htail hrest

/-- Of all errors that the consumer of a standby scan reports, and that the scan reports itself, the
first is kept, worded by the token that was returned last before it. Every exchange of a run finds
and leaves the scan with the first message reported until then; this is none before any is. A
further report answers that it is not kept, and changes nothing. Finishing the scan answers the
error that is kept. All of this holds for scans that are torn down too. -/
theorem first_error_kept (hl : s.rules = some .standby) (calls : List (Dealing × Host))
    (hs : ∀ x ∈ s.exchanges .initial calls, x.found.progress.closed = false →
      x.found.host.memory.Serves s.allocator)
    {earlier later : List Exchange} (hx : s.exchanges .initial calls = earlier ++ x :: later) :
    let before := Exchange.reports s.source none earlier
    x.found.progress.error.map Diagnostic.message = before.head? ∧
      x.left.progress.error.map Diagnostic.message =
        (Exchange.reports s.source none (earlier ++ [x])).head? ∧
      (∀ complaint, x.dealing.complaint? = some complaint →
        x.answer = .ok (.kept before.isEmpty) ∧ (before ≠ [] → x.left = x.found)) ∧
      (x.dealing = .demand .finish →
        x.answer = .ok (.finished x.found.progress.error)) := by
  intro before
  obtain ⟨heq, hfound⟩ := (reported_initial s).run hl calls hs hx
  have hserves := hs x (hx ▸ List.mem_append_right earlier List.mem_cons_self)
  have hstep := hfound.step hl hserves x.dealing
  obtain ⟨hanswer, -⟩ := exchange_eq hserves x.dealing
  obtain ⟨d, ⟨p, h⟩, result⟩ := x
  rw [List.nil_append] at hfound hstep
  rw [← heq] at hstep hanswer
  have hempty : p.error.isNone = before.isEmpty := by
    have herror : p.error.map Diagnostic.message = before.head? := hfound.error
    rw [← Option.isNone_map (f := Diagnostic.message), herror]
    cases before <;> rfl
  refine ⟨hfound.error, ?_, fun complaint hd => ?_, fun hd => ?_⟩
  · rw [Exchange.reports_append, Exchange.reports, Exchange.reports, List.append_nil]
    exact hstep.error
  · dsimp only at hd hanswer
    constructor
    · rw [hanswer, ← hempty]
      rcases complaint?_eq_some hd with rfl | rfl <;> rfl
    · intro hne
      rw [heq]
      refine exchange_of_kept hd fun hnone => hne ?_
      rw [hnone] at hempty
      exact List.isEmpty_iff.mp hempty.symm
  · dsimp only at hd hanswer
    subst hd
    exact hanswer

/-- The consumer reports an error behind a quoted name that ends, before the scan reports one that
does not, and again once the scan is torn down, twice. -/
theorem first_error_kept_quoted_name :
    let s : Scanner := ⟨0, some .standby, ['"', 'a', '"', ' ', '"'], .nothing, 0, false, none⟩
    let dealings : List Dealing := [.demand .pull, .demand (.recordError "syntax error"),
      .demand .pull, .release, .release, .demand (.recordError "late"), .demand .finish]
    let xs := s.exchanges .initial (dealings.map fun d => (d, .initial))
    Exchange.reports s.source none xs = ["syntax error at or near \"\"\"",
        "unterminated quoted identifier at end of input", "late at end of input"] ∧
      ∃ x, xs = xs.take 6 ++ [x] ∧ x.dealing = .demand .finish ∧
        x.answer = .ok (.finished x.found.progress.error) ∧
        x.found.progress.error.map Diagnostic.message =
          some "syntax error at or near \"\"\"" := by
  intro s dealings xs
  have hs : ∀ x ∈ xs, x.found.progress.closed = false →
      x.found.host.memory.Serves s.allocator := by
    intro x hx _
    have hhosts : xs.map (fun x => x.found.host) = List.replicate 7 .initial := rfl
    have hhost : x.found.host = .initial :=
      List.eq_of_mem_replicate (hhosts ▸ List.mem_map_of_mem hx)
    rw [hhost]
    exact trivial
  obtain ⟨x, hx, hd⟩ : ∃ x, xs = xs.take 6 ++ [x] ∧ x.dealing = .demand .finish :=
    ⟨_, rfl, rfl⟩
  obtain ⟨herror, -, -, hfinish⟩ := first_error_kept rfl _ hs hx
  have hreports : (Exchange.reports s.source none (xs.take 6)).head? =
      some "syntax error at or near \"\"\"" := by
    decide +kernel
  exact ⟨by decide +kernel, x, hx, hd, hfinish hd, herror.trans hreports⟩

end Scanner

end MiniLex
