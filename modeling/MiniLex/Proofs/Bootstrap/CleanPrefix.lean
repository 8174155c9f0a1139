import MiniLex.Proofs.Bootstrap.Lines
import MiniLex.Proofs.Bootstrap.Truncation
import MiniLex.Proofs.Store.Tokenize

/-!
# What stands before a refused character

A bootstrap scan that refuses a character has passed the longest first part of
its source that can be tokenized. That part gives the tokens that were returned
before, and every longer part fails on the same character:
`tokenize_take_of_refused`.

A scan follows the rules from its cursor on: `collectUpTo_passes` for the tokens
that it passes, `collect_of_end` and `collect_of_illegal` for what it comes to.
`passes_of_pulls` goes back from a run of pulls to what its scan has passed.
-/

namespace MiniLex

namespace Scanner

open Bootstrap

variable {s : Scanner} {p q : Progress} {h : Host} {hosts : List Host} {tokens : List Token}
  {before : List Outcome} {c : Char} {i j line : Nat}

/-! ## A scan follows the rules -/

theorem outcome_of_token {kind : TokenKind} {value : Option Text} {start stop : Nat}
    (hl : s.rules = some .bootstrap) (hp : s.LinesCounted p)
    (hf : Finds s.source p.pos (.token kind value start stop)) :
    ∃ q, s.outcome p = ⟨.ok (tokenOf s.source kind value start stop), q⟩ ∧
      s.LinesCounted q ∧ q.pos = stop := by
  obtain ⟨f, hf', hshow⟩ := exists_finds_shows hl hp.isOpen hp.pos_le
  rw [(finds_iff hp.pos_le).mp hf', ← (finds_iff hp.pos_le).mp hf] at hshow
  obtain ⟨hgap, hin⟩ := hf.gap_of_token none
  generalize s.outcome p = o at hshow
  cases hshow with
  | token hq =>
    rw [hp.lineAt_eq hgap.le]
    exact ⟨_, rfl, hp.of_reaches hq (Nat.le_trans hgap.le hin.start_le) hin.stop_le, hq.pos⟩

theorem outcome_of_illegal (hl : s.rules = some .bootstrap) (hp : s.LinesCounted p)
    (hf : Finds s.source p.pos (.illegal c i)) :
    ∃ q, s.outcome p = ⟨.error (.illegalCharacter (1 + Text.lineEnds (s.source.take i)) c
      s.sourceName), q⟩ := by
  obtain ⟨f, hf', hshow⟩ := exists_finds_shows hl hp.isOpen hp.pos_le
  rw [(finds_iff hp.pos_le).mp hf', ← (finds_iff hp.pos_le).mp hf] at hshow
  have hle := hf.gap_of_illegal.1.le
  generalize s.outcome p = o at hshow
  cases hshow with
  | illegal hq =>
    rw [hp.lineAt_eq hle]
    exact ⟨_, rfl⟩

/-- Where the allocator never fails, a scan collects the tokens that the rules give from its cursor
on, and goes on behind them. -/
theorem collectUpTo_passes (hl : s.rules = some .bootstrap) (hp : s.LinesCounted p)
    (hs : h.memory.Serves s.allocator) (hpass : Passes s.source p.pos tokens j) (n : Nat) :
    ∃ q h', s.LinesCounted q ∧ q.pos = j ∧ h'.memory.Serves s.allocator ∧
      s.collectUpTo (tokens.length + n) ⟨p, h⟩ =
        (do return tokens ++ (← s.collectUpTo n)) ⟨q, h'⟩ := by
  generalize hi : p.pos = i at hpass
  induction hpass generalizing p h with
  | nil i =>
    refine ⟨p, h, hp, hi, hs, ?_⟩
    simp
  | @cons i j kind value start stop tokens hf hk hrest ih =>
    subst hi
    obtain ⟨q, hout, hq, hpos⟩ := outcome_of_token hl hp hf
    obtain ⟨h₁, hr, hs₁⟩ := pull_run hs p
    obtain ⟨q', h', hq', hpos', hs', hrun⟩ := ih hq hs₁ hpos
    refine ⟨q', h', hq', hpos', hs', ?_⟩
    have hk' : (tokenOf s.source kind value start stop).kind.isEnd = false := hk
    rw [hout] at hr
    rw [List.length_cons, Nat.add_right_comm, collectUpTo, run_bind_ok hr]
    simp only [hk', Bool.false_eq_true, ↓reduceIte]
    cases hn : s.collectUpTo n ⟨q', h'⟩ with
    | ok rest m =>
      rw [run_bind_ok hn] at hrun ⊢
      rw [run_bind_ok hrun]
      rfl
    | error failure m =>
      rw [run_bind_error hn] at hrun ⊢
      rw [run_bind_error hrun]

/-- A scan that starts collects the tokens that the rules give from the start of its source on. It
may collect one more then at least, as each of them takes a character. -/
theorem collect_passes (hl : s.rules = some .bootstrap) (hs : h.memory.Serves s.allocator)
    (hpass : Passes s.source 0 tokens j) :
    ∃ n q h', s.LinesCounted q ∧ q.pos = j ∧ h'.memory.Serves s.allocator ∧
      s.collect ⟨.initial, h⟩ = (do return tokens ++ (← s.collectUpTo (n + 1))) ⟨q, h'⟩ := by
  have hlength := hpass.length_add_le
  have hj := hpass.le_length (Nat.zero_le _)
  have hn : s.source.length + 1 = tokens.length + (s.source.length - tokens.length + 1) := by
    omega
  rw [collect, hn]
  exact ⟨_, collectUpTo_passes (p := .initial) hl (linesCounted_initial s) hs hpass _⟩

/-- Where the rules give the end of the source behind these tokens, all of them are collected. -/
theorem collect_of_end (hl : s.rules = some .bootstrap) (hs : h.memory.Serves s.allocator)
    (hpass : Passes s.source 0 tokens j)
    (hend : Finds s.source j (.token (.bootstrap .endOfInput) none i i)) :
    ∃ m, s.collect ⟨.initial, h⟩ =
        .ok (tokens ++ [tokenOf s.source (.bootstrap .endOfInput) none i i]) m ∧
      m.host.memory.Serves s.allocator := by
  obtain ⟨n, q, h', hq, rfl, hs', hrun⟩ := collect_passes hl hs hpass
  obtain ⟨q', hout, -⟩ := outcome_of_token hl hq hend
  obtain ⟨h₂, hr, hs₂⟩ := pull_run hs' q
  rw [hout] at hr
  have hlast : s.collectUpTo (n + 1) ⟨q, h'⟩ =
      .ok [tokenOf s.source (.bootstrap .endOfInput) none i i] ⟨q', h₂⟩ := by
    rw [collectUpTo, run_bind_ok hr]
    rfl
  rw [hrun, run_bind_ok hlast]
  exact ⟨_, rfl, hs₂⟩

/-- Where the rules give a character behind these tokens that none of them accepts, it is refused. -/
theorem collect_of_illegal (hl : s.rules = some .bootstrap) (hs : h.memory.Serves s.allocator)
    (hpass : Passes s.source 0 tokens j) (hf : Finds s.source j (.illegal c i)) :
    ∃ m, s.collect ⟨.initial, h⟩ =
        .error (.illegalCharacter (1 + Text.lineEnds (s.source.take i)) c s.sourceName) m ∧
      m.host.memory.Serves s.allocator := by
  obtain ⟨n, q, h', hq, rfl, hs', hrun⟩ := collect_passes hl hs hpass
  obtain ⟨q', hout⟩ := outcome_of_illegal hl hq hf
  obtain ⟨h₂, hr, hs₂⟩ := pull_run hs' q
  rw [hout] at hr
  rw [hrun, collectUpTo, run_bind_error (run_bind_error hr)]
  exact ⟨_, rfl, hs₂⟩

/-! ## What a run of pulls has passed -/

/-- Pulls that return tokens until a character is refused have passed these tokens. -/
theorem passes_of_pulls (hl : s.rules = some .bootstrap) (hp : s.LinesCounted p)
    (hs : ∀ h ∈ hosts, h.memory.Serves s.allocator)
    (hrun : s.pulls p hosts = before ++ [⟨.error (.illegalCharacter line c s.sourceName), q⟩])
    (hbefore : before.map Outcome.answer = tokens.map .ok) :
    ∃ j, Passes s.source p.pos tokens j ∧ Finds s.source j (.illegal c q.pos) ∧
      line = 1 + Text.lineEnds (s.source.take q.pos) := by
  induction hosts generalizing p before tokens with
  | nil => simp [pulls] at hrun
  | cons h hosts ih =>
    rw [pulls_cons (hs h List.mem_cons_self)] at hrun
    obtain ⟨f, hf, hshow⟩ := exists_finds_shows hl hp.isOpen hp.pos_le
    obtain ⟨hnext, -⟩ := exactLines_outcome hl hp
    generalize s.outcome p = o at hrun hshow hnext
    cases before with
    | nil =>
      obtain rfl : tokens = [] := by simpa using hbefore.symm
      obtain ⟨rfl, -⟩ := List.cons.inj hrun
      cases hshow with
      | illegal hq =>
        rw [hq.pos, hp.lineAt_eq hf.gap_of_illegal.1.le]
        exact ⟨_, .nil _, hf, rfl⟩
    | cons o' before =>
      obtain ⟨rfl, hrest⟩ := List.cons.inj hrun
      cases tokens with
      | nil => cases hbefore
      | cons t tokens =>
        obtain ⟨hanswer, hanswers⟩ := List.cons.inj hbefore
        cases hshow with
        | illegal _ => cases hanswer
        | @token kind value start stop q' hq =>
          obtain ⟨j, hpass, hill, hline⟩ :=
            ih hnext (fun h' hh => hs h' (List.mem_cons_of_mem h hh)) hrest hanswers
          obtain rfl := Except.ok.inj hanswer
          obtain ⟨hgap, hin⟩ := hf.gap_of_token none
          rw [hp.lineAt_eq hgap.le]
          have hpos : q'.pos = stop := hq.pos
          dsimp only at hpass
          rw [hpos] at hpass
          refine ⟨j, .cons hf ?_ hpass, hill, hline⟩
          -- Nothing is refused behind the end token, where no character stands.
          refine Bool.eq_false_iff.mpr fun hk => ?_
          have hstart : start = s.source.length := hin.atEnd hk
          have hstop : start ≤ stop := hin.start_le
          have hle := hill.gap_of_illegal.1.le
          have hlt := (List.getElem?_eq_some_iff.mp hill.gap_of_illegal.2).1
          have hj := hpass.le
          omega

end Scanner

namespace Store

open Bootstrap

variable {e : Ambient} {r : Request} {st : Store} {source : Text} {tokens : List Token} {c : Char}
  {i j : Nat}

/-- A source in which the rules give the end behind these tokens is tokenized into all of them. -/
theorem tokenize_of_end
    (hs : st.host.memory.Serves (r.scanner e (some .bootstrap) st.scans.length).allocator)
    (hpass : Passes r.source 0 tokens j)
    (hend : Finds r.source j (.token (.bootstrap .endOfInput) none i i)) :
    ∃ st', tokenize e .bootstrap r st =
      .ok (tokens ++ [tokenOf r.source (.bootstrap .endOfInput) none i i]) st' := by
  obtain ⟨h, hsh, hcollect⟩ := tokenize_of_collect hs
  obtain ⟨m, hm, hsm⟩ := Scanner.collect_of_end (s := r.scanner e (some .bootstrap) _) rfl hsh
    hpass hend
  exact (hcollect m hsm).1 _ hm

/-- A source in which the rules give a character that none of them accepts is not tokenized. -/
theorem tokenize_of_illegal
    (hs : st.host.memory.Serves (r.scanner e (some .bootstrap) st.scans.length).allocator)
    (hpass : Passes r.source 0 tokens j) (hf : Finds r.source j (.illegal c i)) :
    ∃ st', tokenize e .bootstrap r st =
      .error (.illegalCharacter (1 + Text.lineEnds (r.source.take i)) c
        (r.sourceName.orElse e.config.sourceName)) st' := by
  obtain ⟨h, hsh, hcollect⟩ := tokenize_of_collect hs
  obtain ⟨m, hm, hsm⟩ := Scanner.collect_of_illegal (s := r.scanner e (some .bootstrap) _) rfl hsh
    hpass hf
  exact (hcollect m hsm).2 _ hm

/-- If a bootstrap scan returns tokens and then refuses a character, the part of its source before
that character is tokenized: it has the same tokens, and the end token on the line of the character.
Every longer part is refused for the same character on the same line. -/
theorem tokenize_take_of_refused {s : Scanner} {hosts : List Host} {before : List Outcome}
    {line : Nat} {q : Progress} (hl : s.rules = some .bootstrap)
    (hs : ∀ h ∈ hosts, h.memory.Serves s.allocator)
    (hrun : s.pulls .initial hosts =
      before ++ [⟨.error (.illegalCharacter line c s.sourceName), q⟩])
    (hbefore : before.map Outcome.answer = tokens.map .ok) :
    ∀ (e : Ambient) (r : Request) (st : Store),
      st.host.memory.Serves (r.scanner e (some .bootstrap) st.scans.length).allocator →
      (r.source = s.source.take q.pos → ∃ st', tokenize e .bootstrap r st =
        .ok (tokens ++ [⟨.bootstrap .endOfInput, none, q.pos, q.pos, some line⟩]) st') ∧
      ∀ n, q.pos < n → r.source = s.source.take n → ∃ st', tokenize e .bootstrap r st =
        .error (.illegalCharacter line c (r.sourceName.orElse e.config.sourceName)) st' := by
  obtain ⟨j, hpass, hill, rfl⟩ :=
    Scanner.passes_of_pulls hl (Scanner.linesCounted_initial s) hs hrun hbefore
  have hj : j ≤ q.pos := hill.gap_of_illegal.1.le
  have hlines : ∀ n, q.pos ≤ n → (s.source.take n).take q.pos = s.source.take q.pos :=
    fun n hn => by rw [List.take_take, Nat.min_eq_left hn]
  intro e r st hst
  refine ⟨fun hr => ?_, fun n hn hr => ?_⟩
  · have hend := tokenize_of_end hst (hr ▸ hpass.take hj) (hr ▸ hill.end_take)
    rwa [tokenOf, hr, hlines _ (Nat.le_refl _)] at hend
  · have hrefused := tokenize_of_illegal hst
      (hr ▸ hpass.take (Nat.le_trans hj (Nat.le_of_lt hn))) (hr ▸ hill.illegal_take hn)
    rwa [hr, hlines n (Nat.le_of_lt hn)] at hrefused

/-- A word, and on the next line a string that never closes. -/
theorem tokenize_take_of_open_string :
    (∃ st', tokenize .initial .bootstrap ⟨['a', '\n'], none, .nothing⟩ .initial =
      .ok [⟨.bootstrap .ident, some ['a'], 0, 1, some 1⟩,
        ⟨.bootstrap .endOfInput, none, 2, 2, some 2⟩] st') ∧
    ∃ st', tokenize .initial .bootstrap ⟨['a', '\n', '\''], none, .nothing⟩ .initial =
      .error (.illegalCharacter 2 '\'' .nothing) st' := by
  let s : Scanner := ⟨0, some .bootstrap, ['a', '\n', '\'', 'b'], .nothing, 0, false, none⟩
  have hs : ∀ h ∈ [Host.initial, Host.initial], h.memory.Serves s.allocator := by
    intro h hh
    simp only [List.mem_cons, List.not_mem_nil, or_false, or_self] at hh
    subst hh
    trivial
  obtain ⟨before, q, hrun, hbefore, hq⟩ : ∃ before q, s.pulls .initial [.initial, .initial] =
        before ++ [⟨.error (.illegalCharacter 2 '\'' .nothing), q⟩] ∧
      before.map Outcome.answer = [⟨.bootstrap .ident, some ['a'], 0, 1, some 1⟩].map .ok ∧
      q.pos = 2 := ⟨[_], _, rfl, rfl, rfl⟩
  have hcut := tokenize_take_of_refused rfl hs hrun hbefore .initial
  rw [hq] at hcut
  exact ⟨(hcut ⟨['a', '\n'], none, .nothing⟩ .initial trivial).1 rfl,
    (hcut ⟨['a', '\n', '\''], none, .nothing⟩ .initial trivial).2 3 (by decide) rfl⟩

end Store

end MiniLex
