import MiniLex.Proofs.Scan.Deeds
import MiniLex.Proofs.Scan.Division
import MiniLex.Proofs.Scan.Refused
import MiniLex.Proofs.Scan.Runs
import MiniLex.Proofs.Scan.Usage

/-!
# Where a scan comes to a standstill

A scan does not get past the end of its source, nor past a character that no
rule accepts (`Outcome.IsTerminal`). It stands there (`Scanner.Stands`): what is
before that place is skipped already, so a pull has nothing to skip
(`afterGap_afterGap`, `afterBlanks_afterBlanks`).

* `pull_again`: pulled again, it answers the same, and neither its progress nor
  the memory changes, whatever allocator it has;
* `exists_standstill`: where the allocator never fails, it gets there after at
  most as many pulls as characters are left, and one more;
* `pulls_standstill`: both for a scan from its start.
-/

namespace MiniLex

/-- An outcome that a scan does not get past: the end token, or a character that no rule accepts. -/
def Outcome.IsTerminal (o : Outcome) : Prop :=
  match o.answer with
  | .ok token => token.kind.isEnd = true
  | .error (.illegalCharacter ..) => True
  | .error _ => False

/-! ## Lexemes are not the end -/

theorem Bootstrap.isEnd_of_lexeme {source : Text} {i : Nat} {l : Lexeme}
    (h : Reading.read (source.drop i) = .lexeme l) : l.kind.isEnd = false := by
  obtain ⟨r, w, kind, -, -, hk, hg, -⟩ := longestMatch_of_lexeme h
  rw [hk]
  exact beq_false_of_ne hg.ne_endOfInput

theorem Standby.isEnd_wordLexeme (word : Text) : (wordLexeme word).kind.isEnd = false := by
  simp only [wordLexeme, Kind.ofKeyword?]
  split
  · rename_i h
    split at h
    · cases h
      rfl
    split at h <;> cases h
    rfl
  · rfl

theorem Standby.isEnd_charLexeme (c : Char) : (charLexeme c).kind.isEnd = false := by
  simp only [charLexeme, Kind.ofMark?]
  split
  · rfl
  split
  · rename_i h
    split at h
    · cases h
      rfl
    split at h
    · cases h
      rfl
    split at h <;> cases h
    rfl
  · rfl

theorem Standby.isEnd_of_lexeme {t : Text} {l : Lexeme} (h : Reading.read t = .lexeme l) :
    l.kind.isEnd = false := by
  cases t with
  | nil => cases h
  | cons c cs =>
    rw [Reading.read] at h
    split at h
    · cases h
    split at h
    · cases h
      exact isEnd_wordLexeme _
    split at h <;> cases h
    · rfl
    · exact isEnd_charLexeme c

namespace Scanner

open ScanM

variable {s : Scanner} {l : Language} {p : Progress} {o : Outcome} {h h₁ : Host}

/-! ## Nothing is left to skip -/

/-- Behind a gap no other one begins. -/
theorem afterGap_afterGap (s : Scanner) (p : Progress) :
    s.afterGap (s.afterGap p) = s.afterGap p := by
  have hpos : (s.afterGap p).pos = Bootstrap.gapEnd s.source p.pos := rfl
  have hnil : Bootstrap.gap (.at s.source (s.afterGap p).pos)
      (s.source.drop (s.afterGap p).pos) = [] := by
    rw [Bootstrap.gap_eq_slice, hpos,
      Bootstrap.gapEnd_eq_self (Bootstrap.not_gapPiece_gapEnd s.source p.pos), Text.slice,
      Nat.sub_self, List.take_zero]
  generalize s.afterGap p = q at hnil
  simp only [afterGap, hnil]
  rfl

/-- Behind blanks no other one stands. -/
theorem afterBlanks_afterBlanks (s : Scanner) (p : Progress) :
    s.afterBlanks (s.afterBlanks p) = s.afterBlanks p := by
  have hdrop : s.source.drop (s.afterBlanks p).pos =
      (s.source.drop p.pos).dropWhile Standby.isBlank :=
    Text.drop_add_of_drop_eq_append List.takeWhile_append_dropWhile.symm
  have hnil : (s.source.drop (s.afterBlanks p).pos).takeWhile Standby.isBlank = [] := by
    have hnext := List.head?_dropWhile_not Standby.isBlank (s.source.drop p.pos)
    rw [← hdrop] at hnext
    cases hd : s.source.drop (s.afterBlanks p).pos with
    | nil => rfl
    | cons c cs =>
      rw [hd] at hnext
      exact List.takeWhile_cons_of_neg (by simpa using hnext)
  generalize s.afterBlanks p = q at hnil
  rw [afterBlanks, hnil]
  rfl

/-! ## What a standstill is -/

/-- A terminal outcome is one of three: each language has the end of its source, and the bootstrap
language the characters that no rule accepts. -/
inductive Stands (s : Scanner) (p : Progress) : Outcome → Prop
  | bootstrapEnd :
    s.rules = some .bootstrap →
    Bootstrap.Reading.read (s.source.drop (s.afterGap p).pos) = .atEnd →
    Stands s p ⟨.ok (s.endToken (.bootstrap .endOfInput) (s.afterGap p)),
      (s.afterGap p).withLastText []⟩
  | illegal {c : Char} :
    s.rules = some .bootstrap →
    Bootstrap.Reading.read (s.source.drop (s.afterGap p).pos) = .illegal c →
    Stands s p ⟨.error (.illegalCharacter (s.afterGap p).line c s.sourceName), s.afterGap p⟩
  | standbyEnd :
    s.rules = some .standby →
    Standby.Reading.read (s.source.drop (s.afterBlanks p).pos) = .atEnd →
    Stands s p ⟨.ok (s.endToken (.standby .endOfInput) (s.afterBlanks p)),
      (s.afterBlanks p).withLastText []⟩

theorem open_of_isTerminal (ho : (s.outcome p).IsTerminal) : p.closed = false := by
  refine Bool.eq_false_iff.mpr fun hc => ?_
  rw [outcome_of_closed hc] at ho
  exact ho

theorem stands_of_isTerminal (ho : (s.outcome p).IsTerminal) : s.Stands p (s.outcome p) := by
  have hopen := open_of_isTerminal ho
  rw [outcome, if_neg (by simp [hopen]), readOutcome] at ho ⊢
  split at ho
  · rename_i hl
    rw [bootstrapOutcome] at ho ⊢
    cases hread : Bootstrap.Reading.read (s.source.drop (s.afterGap p).pos) with
    | atEnd => exact .bootstrapEnd hl hread
    | illegal c => exact .illegal hl hread
    | lexeme l =>
      simp only [hread] at ho
      exact absurd ho (by simp [Outcome.IsTerminal, lexemeToken, Bootstrap.isEnd_of_lexeme hread])
  · rename_i hl
    rw [standbyOutcome] at ho ⊢
    cases hread : Standby.Reading.read (s.source.drop (s.afterBlanks p).pos) with
    | atEnd => exact .standbyEnd hl hread
    | lexeme l =>
      simp only [hread] at ho
      exact absurd ho (by simp [Outcome.IsTerminal, lexemeToken, Standby.isEnd_of_lexeme hread])
    | quoted body =>
      simp only [hread, Outcome.IsTerminal, bodyToken] at ho
      cases hclosed : body.isClosed <;> simp only [hclosed] at ho <;> cases ho
  · cases ho

/-- The same stands behind what is skipped. -/
theorem Stands.outcome_eq (ho : s.Stands p o) (hopen : p.closed = false) : s.outcome p = o := by
  rw [outcome, if_neg (by simp [hopen]), readOutcome]
  cases ho with
  | bootstrapEnd hl hread => simp only [hl, bootstrapOutcome, hread]
  | illegal hl hread => simp only [hl, bootstrapOutcome, hread]
  | standbyEnd hl hread => simp only [hl, standbyOutcome, hread]

/-- A standstill is one from the progress that it leaves. -/
theorem Stands.again (ho : s.Stands p o) : s.Stands o.progress o := by
  cases ho with
  | bootstrapEnd hl hread =>
    have hgap : s.afterGap ((s.afterGap p).withLastText []) = (s.afterGap p).withLastText [] :=
      congrArg (Progress.withLastText []) (s.afterGap_afterGap p)
    have hstands := Stands.bootstrapEnd (p := (s.afterGap p).withLastText []) hl (by rwa [hgap])
    rwa [hgap] at hstands
  | illegal hl hread =>
    have hstands := Stands.illegal (p := s.afterGap p) hl (by rwa [afterGap_afterGap])
    rwa [afterGap_afterGap] at hstands
  | standbyEnd hl hread =>
    have hblanks : s.afterBlanks ((s.afterBlanks p).withLastText []) =
        (s.afterBlanks p).withLastText [] :=
      congrArg (Progress.withLastText []) (s.afterBlanks_afterBlanks p)
    have hstands := Stands.standbyEnd (p := (s.afterBlanks p).withLastText []) hl (by rwa [hblanks])
    rwa [hblanks] at hstands

theorem Stands.closed_eq (ho : s.Stands p o) : o.progress.closed = p.closed := by
  cases ho <;> rfl

/-! ## Pulls at a standstill -/

/-- An end token is logged at most. -/
theorem pull_of_end {token : Token} {q : Progress} (hopen : p.closed = false)
    (hread : s.readToken ⟨p, h⟩ = .ok token ⟨q, h⟩) (hk : token.kind.isEnd = true) :
    ∃ h', s.pull ⟨p, h⟩ = .ok token ⟨q, h'⟩ ∧ h'.memory = h.memory ∧ h'.ledgers = h.ledgers := by
  rw [pull, run_bind_ok (progress_run _), if_neg (by simp [hopen])]
  cases ht : s.tracing with
  | true =>
    exact ⟨h.report (.tokenRead s.name token), (run_bind_ok hread).trans (by simp only [hk]; rfl),
      rfl, rfl⟩
  | false => exact ⟨h, (run_bind_ok hread).trans (by simp only [hk]; rfl), rfl, rfl⟩

/-- Whatever allocator a scan has that stands, a pull asks it for nothing. An end token is not
counted either. -/
theorem Stands.pull_eq (ho : s.Stands p o) (hopen : p.closed = false) (h : Host) :
    ∃ h', s.pull ⟨p, h⟩ = o.on h' ∧ h'.memory = h.memory ∧
      ∀ token, o.answer = .ok token → h'.ledgers = h.ledgers := by
  have hout := ho.outcome_eq hopen
  cases ho with
  | bootstrapEnd hl hread =>
    have hgap : s.skipGap ⟨p, h⟩ = .ok () ⟨s.afterGap p, h⟩ := rfl
    have hend : s.readToken ⟨p, h⟩ = .ok (s.endToken (.bootstrap .endOfInput) (s.afterGap p))
        ⟨(s.afterGap p).withLastText [], h⟩ := by
      simp only [readToken, hl]
      rw [readBootstrap, run_bind_ok hgap, run_bind_ok (progress_run _)]
      simp only [hread]
      rfl
    obtain ⟨h', hr, hmemory, hledgers⟩ := pull_of_end hopen hend rfl
    exact ⟨h', hr, hmemory, fun _ _ => hledgers⟩
  | illegal hl hread =>
    obtain ⟨h', hr, hmemory⟩ := pull_of_failure (congrArg Outcome.answer hout) h
    rw [hout] at hr
    exact ⟨h', hr, hmemory, fun token hok => absurd hok (by simp)⟩
  | standbyEnd hl hread =>
    have hblanks : s.skipBlanks ⟨p, h⟩ = .ok () ⟨s.afterBlanks p, h⟩ := rfl
    have hend : s.readToken ⟨p, h⟩ = .ok (s.endToken (.standby .endOfInput) (s.afterBlanks p))
        ⟨(s.afterBlanks p).withLastText [], h⟩ := by
      simp only [readToken, hl]
      rw [readStandby, run_bind_ok hblanks, run_bind_ok (progress_run _)]
      simp only [hread]
      rfl
    obtain ⟨h', hr, hmemory, hledgers⟩ := pull_of_end hopen hend rfl
    exact ⟨h', hr, hmemory, fun _ _ => hledgers⟩

/-- A pull that refuses a character has the outcome that its scan determines, whatever the
allocator. -/
theorem outcome_of_refused {line : Nat} {c : Char} {name : Setting} {q : Progress}
    (hr : s.pull ⟨p, h⟩ = .error (.illegalCharacter line c name) ⟨q, h₁⟩) :
    s.outcome p = ⟨.error (.illegalCharacter line c name), q⟩ := by
  have hopen : p.closed = false := open_of_pull (m := ⟨p, h⟩) (by rw [hr]; nofun)
  have hread := readToken_of_pull_error hopen hr
  cases hl : s.rules with
  | none =>
    simp only [readToken, hl] at hread
    cases hread
  | some l =>
    cases l with
    | bootstrap =>
      rcases pull_bootstrap_error hl hopen hr with hout | ⟨fault, l, hfault, -⟩
      · exact hout
      · cases hfault
    | standby =>
      simp only [readToken, hl] at hread
      obtain ⟨fault, hfault⟩ := readStandby_isAllocation _ _ _ hread
      cases hfault

/-- A terminal outcome of a pull is the one that its scan determines. -/
theorem outcome_of_pull (hr : s.pull ⟨p, h⟩ = o.on h₁) (ho : o.IsTerminal) : s.outcome p = o := by
  obtain ⟨answer, q⟩ := o
  cases answer with
  | ok token => exact pull_ok hr
  | error failure =>
    cases failure with
    | illegalCharacter line c name => exact outcome_of_refused hr
    | allocation _ | scannerClosed _ | noRules | unknownLanguage _ | unknownKind _ => cases ho

/-- Pulled again, a scan that is at a standstill answers the same and changes nothing of its
progress or of the memory. -/
theorem pull_again (hr : s.pull ⟨p, h⟩ = o.on h₁) (ho : o.IsTerminal) (h₂ : Host) :
    ∃ h₃, s.pull ⟨o.progress, h₂⟩ = o.on h₃ ∧ h₃.memory = h₂.memory ∧
      ∀ token, o.answer = .ok token → h₃.ledgers = h₂.ledgers := by
  obtain rfl := outcome_of_pull hr ho
  have hstands := stands_of_isTerminal ho
  exact hstands.again.pull_eq (hstands.closed_eq.trans (open_of_isTerminal ho)) h₂

/-- All later pulls have the outcome of the one that brought the scan to a standstill. -/
theorem pulls_again (hr : s.pull ⟨p, h⟩ = o.on h₁) (ho : o.IsTerminal) (hosts : List Host) :
    s.pulls o.progress hosts = List.replicate hosts.length o := by
  induction hosts with
  | nil => rfl
  | cons h₂ hosts ih =>
    obtain ⟨h₃, hr₂, -⟩ := pull_again hr ho h₂
    rw [pulls, hr₂, Outcome.ofResult_on, ih, List.length_cons, List.replicate_succ]

/-! ## Coming to a standstill -/

/-- An outcome from which an open scan goes on is a token behind which less of the source is left. -/
theorem of_not_isTerminal (hl : s.rules = some l) (hopen : p.closed = false)
    (hp : p.pos ≤ s.source.length) (ho : ¬(s.outcome p).IsTerminal) :
    (s.outcome p).progress.closed = false ∧ p.pos < (s.outcome p).progress.pos ∧
      (s.outcome p).progress.pos ≤ s.source.length := by
  rcases outcome_cases hl hopen hp with ⟨token, q, hout⟩ | ⟨-, line, c, q, hout⟩
  · obtain ⟨hgap, hin, hpos, hclosed⟩ := gap_of_outcome hl hopen hp hout
    rw [hout] at ho ⊢
    have hk : token.kind.isEnd = false := Bool.eq_false_iff.mpr ho
    dsimp only
    rw [hpos]
    exact ⟨hclosed, Nat.lt_of_le_of_lt (l.le_of_gap _ _ _ hgap) (hin.takes hk), hin.stop_le⟩
  · rw [hout] at ho
    exact absurd trivial ho

/-- Where the allocator never fails, an open scan comes to a standstill after at most as many pulls
as characters are left, and one more. -/
theorem exists_standstill {hosts : List Host} (hl : s.rules = some l) (hopen : p.closed = false)
    (hp : p.pos ≤ s.source.length) (hs : ∀ h ∈ hosts, h.memory.Serves s.allocator)
    (hn : s.source.length < p.pos + hosts.length) :
    ∃ ahead o, ahead.length + p.pos ≤ s.source.length ∧ (∀ a ∈ ahead, ¬a.IsTerminal) ∧
      o.IsTerminal ∧
      s.pulls p hosts = ahead ++ List.replicate (hosts.length - ahead.length) o := by
  induction hosts generalizing p with
  | nil =>
    rw [List.length_nil] at hn
    omega
  | cons h hosts ih =>
    obtain ⟨h', hr, -⟩ := pull_run (hs h List.mem_cons_self) p
    rw [pulls_cons (hs h List.mem_cons_self)]
    by_cases ho : (s.outcome p).IsTerminal
    · refine ⟨[], s.outcome p, by simpa using hp, fun _ ha => absurd ha List.not_mem_nil, ho, ?_⟩
      rw [pulls_again hr ho, List.nil_append, List.length_nil, List.length_cons, Nat.sub_zero,
        List.replicate_succ]
    · obtain ⟨hclosed, hlt, hle⟩ := of_not_isTerminal hl hopen hp ho
      rw [List.length_cons] at hn
      obtain ⟨ahead, o, hlen, hahead, hlast, hpulls⟩ :=
        ih hclosed hle (fun h' hh => hs h' (List.mem_cons_of_mem h hh)) (by omega)
      refine ⟨s.outcome p :: ahead, o, ?_, List.forall_mem_cons.mpr ⟨ho, hahead⟩, hlast, ?_⟩
      · rw [List.length_cons]
        omega
      · rw [hpulls, List.length_cons, List.length_cons, Nat.add_sub_add_right, List.cons_append]

/-- Answers at a standstill are stable. A pull of an open scan that returns the end token, or that
fails at a character that no rule accepts, does so again and again, with the same token or the same
failure and the same progress, and without a request for memory. An end token is not counted. Where
the allocator never fails, a scan that starts comes to such an answer after no more pulls than its
source has characters, and one. -/
theorem pulls_standstill (hl : s.rules = some l) :
    (∀ p h o h₁, s.pull ⟨p, h⟩ = o.on h₁ → o.IsTerminal →
      (∀ hosts, s.pulls o.progress hosts = List.replicate hosts.length o) ∧
      ∀ h₂, ∃ h₃, s.pull ⟨o.progress, h₂⟩ = o.on h₃ ∧ h₃.memory = h₂.memory ∧
        ∀ token, o.answer = .ok token → h₃.ledgers = h₂.ledgers) ∧
    ∀ hosts, (∀ h ∈ hosts, h.memory.Serves s.allocator) → s.source.length < hosts.length →
      ∃ ahead o, ahead.length ≤ s.source.length ∧ (∀ a ∈ ahead, ¬a.IsTerminal) ∧ o.IsTerminal ∧
        s.pulls .initial hosts = ahead ++ List.replicate (hosts.length - ahead.length) o := by
  refine ⟨fun p h o h₁ hr ho => ⟨pulls_again hr ho, pull_again hr ho⟩, fun hosts hs hn => ?_⟩
  exact exists_standstill (p := .initial) hl rfl (Nat.zero_le _) hs
    (hn.trans_eq (Nat.zero_add _).symm)

/-- A word, and behind a comment a character that no rule accepts. The first pull that refuses it
skips the comment, the later ones begin on the character. -/
theorem pulls_standstill_behind_comment :
    let s : Scanner := ⟨0, some .bootstrap, ['a', '\n', '#', '\n', ';'], .nothing,
      Memory.sharedHeap, false, none⟩
    let o : Outcome := ⟨.error (.illegalCharacter 3 ';' .nothing),
      ⟨4, 2, .normal, none, none, ['a'], false⟩⟩
    s.pulls o.progress [.initial, .initial, .initial] = [o, o, o] ∧
      ∃ ahead o', ahead.length ≤ 5 ∧ o'.IsTerminal ∧
        s.pulls .initial (List.replicate 7 .initial) =
          ahead ++ List.replicate (7 - ahead.length) o' := by
  intro s o
  have hserves : ∀ h ∈ List.replicate 7 Host.initial, h.memory.Serves s.allocator := by
    intro h hh
    rw [List.eq_of_mem_replicate hh]
    trivial
  obtain ⟨hagain, hsettles⟩ := pulls_standstill (s := s) (l := .bootstrap) rfl
  have hrefused : s.pull ⟨⟨1, 0, .normal, none, none, ['a'], false⟩, .initial⟩ = o.on
      (Host.report (.characterRefused ';' 3 4) .initial) := rfl
  obtain ⟨hpulls, -⟩ := hagain _ _ o _ hrefused trivial
  obtain ⟨ahead, o', hlen, -, hlast, hrun⟩ := hsettles _ hserves (by decide)
  exact ⟨hpulls _, ahead, o', hlen, hlast, hrun⟩

end Scanner

end MiniLex
