import MiniLex.Proofs.Bootstrap.CleanPrefix
import MiniLex.Proofs.Bootstrap.Seam
import MiniLex.Proofs.Scan.Refused

/-!
# Bootstrap scans of texts that are joined

A bootstrap scan of two texts with a line end between them goes through the
first of them and then through the second, as scans of each alone do, if that of
the first gets to its end: `tokenize_join_lineEnd`.

The scans of the parts may run on any allocators, so what the rules give in them
is read off their results first (`yields_of_collect_ok`,
`yields_of_collect_illegal`). How it goes together is `Bootstrap.Yields.join`.
-/

namespace MiniLex

namespace Scanner

open Bootstrap

variable {s : Scanner} {p : Progress} {h : Host} {m : Machine} {token : Token}
  {tokens : List Token} {line n : Nat} {c : Char} {name : Setting}

/-! ## What a result says of the rules -/

/-- A token that is returned is the one that the rules give. -/
theorem finds_of_pull_ok (hl : s.rules = some .bootstrap) (hp : s.LinesCounted p)
    (hr : s.pull ⟨p, h⟩ = .ok token m) :
    ∃ kind value start stop, Finds s.source p.pos (.token kind value start stop) ∧
      token = tokenOf s.source kind value start stop ∧ s.LinesCounted m.progress ∧
      m.progress.pos = stop := by
  have hout := pull_ok hr
  have hf := finds_finding hp.pos_le
  generalize finding s.source p.pos = f at hf
  cases f with
  | token kind value start stop =>
    obtain ⟨q, hout', hq, hpos⟩ := outcome_of_token hl hp hf
    obtain ⟨ht, rfl⟩ := Outcome.mk.inj (hout.symm.trans hout')
    exact ⟨kind, value, start, stop, hf, Except.ok.inj ht, hq, hpos⟩
  | illegal c i =>
    obtain ⟨q, hout'⟩ := outcome_of_illegal hl hp hf
    cases (Outcome.mk.inj (hout.symm.trans hout')).1

/-- A character that is refused is the one at which the rules give nothing. -/
theorem finds_of_pull_illegal (hl : s.rules = some .bootstrap) (hp : s.LinesCounted p)
    (hr : s.pull ⟨p, h⟩ = .error (.illegalCharacter line c name) m) :
    ∃ i, Finds s.source p.pos (.illegal c i) ∧ line = 1 + Text.lineEnds (s.source.take i) := by
  have hout : s.outcome p = ⟨.error (.illegalCharacter line c name), m.progress⟩ := by
    rcases pull_bootstrap_error hl hp.isOpen hr with hout | ⟨fault, l, he, -⟩
    · exact hout
    · cases he
  have hf := finds_finding hp.pos_le
  generalize finding s.source p.pos = f at hf
  cases f with
  | token kind value start stop =>
    obtain ⟨q, hout', -⟩ := outcome_of_token hl hp hf
    cases (Outcome.mk.inj (hout.symm.trans hout')).1
  | illegal c' i =>
    obtain ⟨q, hout'⟩ := outcome_of_illegal hl hp hf
    obtain ⟨rfl, rfl, -⟩ :=
      Failure.illegalCharacter.inj (Except.error.inj (Outcome.mk.inj (hout.symm.trans hout')).1)
    exact ⟨i, hf, rfl⟩

/-- If enough tokens are asked for, those that are collected are the ones that the rules give up to
the end. -/
theorem yields_of_collectUpTo_ok (hl : s.rules = some .bootstrap) (hp : s.LinesCounted p)
    (hn : s.source.length < p.pos + n) (hr : s.collectUpTo n ⟨p, h⟩ = .ok tokens m) :
    let len := s.source.length
    ∃ front, tokens = front ++ [tokenOf s.source (.bootstrap .endOfInput) none len len] ∧
      Yields s.source p.pos front (.token (.bootstrap .endOfInput) none len len) := by
  induction n generalizing p h tokens with
  | zero =>
    have hle := hp.pos_le
    omega
  | succ n ih =>
    rw [collectUpTo] at hr
    obtain ⟨token, ⟨q, h₁⟩, hpull, hr⟩ := of_bind_ok hr
    obtain ⟨kind, value, start, stop, hf, rfl, hq, hpos⟩ := finds_of_pull_ok hl hp hpull
    dsimp only at hq hpos
    cases hk : kind.isEnd with
    | true =>
      simp only [tokenOf, hk, ↓reduceIte] at hr
      cases hr
      obtain ⟨rfl, rfl, rfl, rfl⟩ := Finding.token.inj (hf.eq_end hk)
      exact ⟨[], rfl, _, .nil _, hf⟩
    | false =>
      simp only [tokenOf, hk, Bool.false_eq_true, ↓reduceIte] at hr
      obtain ⟨rest, m₂, hrest, hr⟩ := of_bind_ok hr
      cases hr
      obtain ⟨hgap, hin⟩ := hf.gap_of_token none
      have hle : p.pos ≤ start := hgap.le
      have hlt : start < stop := hin.takes hk
      obtain ⟨front, rfl, hyields⟩ := ih hq (by omega) hrest
      rw [hpos] at hyields
      exact ⟨_ :: front, rfl, hyields.cons hf hk⟩

/-- Where collecting tokens ends in a refused character, the rules give tokens and then nothing at
that character. -/
theorem yields_of_collectUpTo_illegal (hl : s.rules = some .bootstrap) (hp : s.LinesCounted p)
    (hr : s.collectUpTo n ⟨p, h⟩ = .error (.illegalCharacter line c name) m) :
    ∃ front i, Yields s.source p.pos front (.illegal c i) ∧
      line = 1 + Text.lineEnds (s.source.take i) := by
  induction n generalizing p h with
  | zero => cases hr
  | succ n ih =>
    rw [collectUpTo] at hr
    rcases of_bind_error hr with hpull | ⟨token, ⟨q, h₁⟩, hpull, hr⟩
    · obtain ⟨i, hf, hline⟩ := finds_of_pull_illegal hl hp hpull
      exact ⟨[], i, ⟨_, .nil _, hf⟩, hline⟩
    obtain ⟨kind, value, start, stop, hf, rfl, hq, hpos⟩ := finds_of_pull_ok hl hp hpull
    dsimp only at hq hpos
    cases hk : kind.isEnd with
    | true =>
      simp only [tokenOf, hk, ↓reduceIte] at hr
      cases hr
    | false =>
      simp only [tokenOf, hk, Bool.false_eq_true, ↓reduceIte] at hr
      rcases of_bind_error hr with hrest | ⟨rest, m₂, -, hr⟩
      · obtain ⟨front, i, hyields, hline⟩ := ih hq hrest
        rw [hpos] at hyields
        exact ⟨_, i, hyields.cons hf hk, hline⟩
      · cases hr

end Scanner

namespace Store

open Bootstrap

variable {e e₁ : Ambient} {r r₁ : Request} {st st₁ st' st₁' : Store} {tokens tokens₁ : List Token}
  {c : Char} {line : Nat} {name : Setting}

/-- A source that is tokenized gives these tokens up to its end. -/
theorem yields_of_tokenize_ok (h : tokenize e .bootstrap r st = .ok tokens st') :
    let len := r.source.length
    ∃ front, tokens = front ++ [tokenOf r.source (.bootstrap .endOfInput) none len len] ∧
      Yields r.source 0 front (.token (.bootstrap .endOfInput) none len len) := by
  obtain ⟨host, m, hm, -⟩ := of_tokenize_ok h
  let s := r.scanner e (some .bootstrap) st.scans.length
  have hn : r.source.length < 0 + (r.source.length + 1) := by omega
  exact Scanner.yields_of_collectUpTo_ok rfl (Scanner.linesCounted_initial s) hn hm

/-- A source that is refused gives tokens up to the character for which it is. -/
theorem yields_of_tokenize_illegal
    (h : tokenize e .bootstrap r st = .error (.illegalCharacter line c name) st') :
    ∃ front i, Yields r.source 0 front (.illegal c i) ∧
      line = 1 + Text.lineEnds (r.source.take i) := by
  obtain ⟨host, m, hm⟩ := of_tokenize_illegal h
  let s := r.scanner e (some .bootstrap) st.scans.length
  exact Scanner.yields_of_collectUpTo_illegal rfl (Scanner.linesCounted_initial s) hm

/-- Two texts with a line end between them are tokenized one after the other, if the first of them
can be tokenized. The tokens of the first, without its end token, come before those of the second,
which stand further on by the length of the first and the line end, and on lines further on by the
line ends there. If the second is refused for a character, both together are, on the line that is
further on by as many. -/
theorem tokenize_join_lineEnd (h₁ : tokenize e₁ .bootstrap r₁ st₁ = .ok tokens₁ st₁')
    (e : Ambient) (r r₂ : Request) (st : Store)
    (hr : r.source = r₁.source ++ '\n' :: r₂.source)
    (hs : st.host.memory.Serves (r.scanner e (some .bootstrap) st.scans.length).allocator) :
    let chars := r₁.source.length + 1
    let lines := r₁.source.lineEnds + 1
    (∀ e₂ st₂ tokens₂ st₂', tokenize e₂ .bootstrap r₂ st₂ = .ok tokens₂ st₂' →
      ∃ st', tokenize e .bootstrap r st =
        .ok (tokens₁.dropLast ++ tokens₂.map (Token.shift chars lines)) st') ∧
    ∀ e₂ st₂ line c name st₂',
      tokenize e₂ .bootstrap r₂ st₂ = .error (.illegalCharacter line c name) st₂' →
      ∃ st', tokenize e .bootstrap r st =
        .error (.illegalCharacter (lines + line) c (r.sourceName.orElse e.config.sourceName))
          st' := by
  intro chars lines
  obtain ⟨front₁, rfl, hyields₁⟩ := yields_of_tokenize_ok h₁
  have hsplit : r.source = (r₁.source ++ ['\n']) ++ r₂.source := by
    rw [hr, List.append_assoc, List.singleton_append]
  have hchars : (r₁.source ++ ['\n']).length = chars := List.length_append
  have htake : r.source.take r₁.source.length = r₁.source := by
    rw [hr, List.take_left]
  have hbefore : r.source.take chars = r₁.source ++ ['\n'] := by
    rw [hsplit, ← hchars, List.take_left]
  have hdrop : r.source.drop chars = r₂.source := by
    rw [hsplit, ← hchars, List.drop_left]
  have hlines : Text.lineEnds (r.source.take chars) = lines := by
    rw [hbefore, Text.lineEnds_append]
    rfl
  have hline : r.source[r₁.source.length]? = some '\n' := by
    rw [hr]
    simp
  have hjoin : ∀ {rest : List Token} {f : Finding}, Yields r₂.source 0 rest f →
      Yields r.source 0 (front₁ ++ rest.map (Token.shift chars lines)) (f.shift chars) := by
    intro rest f hyields₂
    rw [← htake] at hyields₁
    rw [← hdrop] at hyields₂
    rw [← hlines]
    exact hyields₁.join hline rfl hyields₂
  refine ⟨fun e₂ st₂ tokens₂ st₂' h₂ => ?_, fun e₂ st₂ line c name st₂' h₂ => ?_⟩
  · obtain ⟨front₂, rfl, hyields₂⟩ := yields_of_tokenize_ok h₂
    obtain ⟨j, hpass, hend⟩ := hjoin hyields₂
    have htokens := tokenize_of_end hs hpass hend
    rw [List.dropLast_concat, List.map_append, ← List.append_assoc, List.map_singleton, ← hlines,
      ← hdrop, tokenOf_drop]
    rwa [← hlines, ← hdrop] at htokens
  · obtain ⟨front₂, i, hyields₂, rfl⟩ := yields_of_tokenize_illegal h₂
    obtain ⟨j, hpass, hill⟩ := hjoin hyields₂
    have hrefused := tokenize_of_illegal hs hpass hill
    have hat : 1 + Text.lineEnds (r.source.take (chars + i)) =
        lines + (1 + Text.lineEnds (r₂.source.take i)) := by
      rw [List.take_add, Text.lineEnds_append, hlines, hdrop]
      omega
    rwa [hat] at hrefused

/-- A string over a line end, and behind its last apostrophe a comment and a word, or a character
that is refused. -/
theorem tokenize_join_lineEnd_string :
    (∃ st', tokenize .initial .bootstrap
        ⟨['\'', '\n', '\'', '\n', '#', '\n', 'b'], none, .nothing⟩ .initial =
      .ok [⟨.bootstrap .ident, some ['\n'], 0, 3, some 1⟩,
        ⟨.bootstrap .ident, some ['b'], 6, 7, some 4⟩,
        ⟨.bootstrap .endOfInput, none, 7, 7, some 4⟩] st') ∧
    ∃ st', tokenize .initial .bootstrap ⟨['\'', '\n', '\'', '\n', ';'], none, .nothing⟩ .initial =
      .error (.illegalCharacter 3 ';' .nothing) st' := by
  obtain ⟨st₁', h₁⟩ : ∃ st', tokenize .initial .bootstrap ⟨['\'', '\n', '\''], none, .nothing⟩
      .initial = .ok [⟨.bootstrap .ident, some ['\n'], 0, 3, some 1⟩,
        ⟨.bootstrap .endOfInput, none, 3, 3, some 2⟩] st' := ⟨_, rfl⟩
  constructor
  · obtain ⟨st₂', h₂⟩ : ∃ st', tokenize .initial .bootstrap ⟨['#', '\n', 'b'], none, .nothing⟩
        .initial = .ok [⟨.bootstrap .ident, some ['b'], 2, 3, some 2⟩,
          ⟨.bootstrap .endOfInput, none, 3, 3, some 2⟩] st' := ⟨_, rfl⟩
    exact (tokenize_join_lineEnd h₁ .initial ⟨['\'', '\n', '\'', '\n', '#', '\n', 'b'], none, .nothing⟩ _
      .initial rfl trivial).1 _ _ _ _ h₂
  · obtain ⟨st₂', h₂⟩ : ∃ st', tokenize .initial .bootstrap ⟨[';'], none, .nothing⟩ .initial =
        .error (.illegalCharacter 1 ';' .nothing) st' := ⟨_, rfl⟩
    exact (tokenize_join_lineEnd h₁ .initial ⟨['\'', '\n', '\'', '\n', ';'], none, .nothing⟩ _ .initial
      rfl trivial).2 _ _ _ _ _ _ h₂

end Store

end MiniLex
