import MiniLex.Proofs.Standby.Seam
import MiniLex.Proofs.Store.Tokenize

/-!
# Standby scans of lists that are joined

A standby scan of two lists with a blank between them goes through the first of
them and then through the second, as scans of each alone do, if that of the
first keeps no error: `tokenize_join_blank`. The error that it keeps is that of
the second.

What a scan keeps as its error is said for all of its tokens together in
`Records`. It is read off the result of a scan with the tokens that the rules
give (`lists_of_collectUpTo_ok`), whatever the allocator.
-/

namespace MiniLex

namespace Scanner

open Standby

variable {s : Scanner} {p : Progress} {h : Host} {m : Machine} {t : Token} {tokens : List Token}
  {source : Text} {before between after : Option Diagnostic} {n : Nat}

/-- What a scan that has returned these tokens has kept as its error: the one that was kept before,
or else that of a quoted name that never ends. -/
structure Records (source : Text) (tokens : List Token) (before after : Option Diagnostic) :
    Prop where
  unclosed : (∃ t ∈ tokens, Unclosed source t.start) →
    after = before.or (some ⟨unterminated, []⟩)
  same : (∀ t ∈ tokens, ¬Unclosed source t.start) → after = before

theorem Records.cons (hunclosed : Unclosed source t.start →
      between = before.or (some ⟨unterminated, []⟩))
    (hsame : ¬Unclosed source t.start → between = before)
    (h : Records source tokens between after) : Records source (t :: tokens) before after := by
  by_cases ht : Unclosed source t.start
  · -- Once an error is kept, no other takes its place.
    have hkept : after = before.or (some ⟨unterminated, []⟩) := by
      by_cases hrest : ∃ u ∈ tokens, Unclosed source u.start
      · rw [h.unclosed hrest, hunclosed ht, Option.or_assoc, Option.some_or]
      · rw [h.same fun u hu hopen => hrest ⟨u, hu, hopen⟩, hunclosed ht]
    exact ⟨fun _ => hkept, fun hnone => absurd ht (hnone t List.mem_cons_self)⟩
  · refine ⟨fun ⟨u, hu, hopen⟩ => ?_, fun hnone => ?_⟩
    · rcases List.mem_cons.mp hu with rfl | hu
      · exact absurd hopen ht
      · rw [h.unclosed ⟨u, hu, hopen⟩, hsame ht]
    · rw [h.same fun u hu => hnone u (List.mem_cons_of_mem t hu), hsame ht]

theorem records_nil : Records source [] before before :=
  ⟨fun ⟨_, ht, _⟩ => absurd ht List.not_mem_nil, fun _ => rfl⟩

/-- Scans that have gone from no error through as many quoted names that never end, some or none,
have kept the same one. -/
theorem Records.eq {source' : Text} {tokens' : List Token} {after' : Option Diagnostic}
    (h : Records source tokens before after) (h' : Records source' tokens' before after')
    (hiff : (∃ t ∈ tokens, Unclosed source t.start) ↔ ∃ t ∈ tokens', Unclosed source' t.start) :
    after = after' := by
  by_cases hopen : ∃ t ∈ tokens, Unclosed source t.start
  · rw [h.unclosed hopen, h'.unclosed (hiff.mp hopen)]
  · have hopen' := mt hiff.mpr hopen
    rw [h.same fun t ht hu => hopen ⟨t, ht, hu⟩, h'.same fun t ht hu => hopen' ⟨t, ht, hu⟩]

/-- If enough tokens are asked for, those that are collected are the ones that the rules give, and
the error that is kept is theirs. -/
theorem lists_of_collectUpTo_ok (hl : s.rules = some .standby) (ho : p.closed = false)
    (hp : p.pos ≤ s.source.length) (hn : s.source.length < p.pos + n)
    (hr : s.collectUpTo n ⟨p, h⟩ = .ok tokens m) :
    Lists s.source p.pos tokens ∧ Records s.source tokens p.error m.progress.error := by
  induction n generalizing p h tokens with
  | zero => omega
  | succ n ih =>
    rw [collectUpTo] at hr
    obtain ⟨token, ⟨q, h₁⟩, hpull, hr⟩ := of_bind_ok hr
    obtain ⟨start, token', q', hout, hq⟩ := exists_advances hl ho hp
    obtain ⟨ht, rfl⟩ := Outcome.mk.inj ((pull_ok hpull).symm.trans hout)
    obtain rfl := Except.ok.inj ht
    obtain ⟨rfl, hin⟩ := hq.reads.standsIn
    dsimp only at hq
    cases hk : token.kind.isEnd with
    | true =>
      simp only [hk, ↓reduceIte] at hr
      cases hr
      exact ⟨.last hq.blanks hq.reads hk, records_nil.cons hq.error_unclosed hq.error_same⟩
    | false =>
      simp only [hk, Bool.false_eq_true, ↓reduceIte] at hr
      obtain ⟨rest, m₂, hrest, hr⟩ := of_bind_ok hr
      cases hr
      have hle := hq.blanks.le
      have hlt := hin.takes hk
      have hpos := hq.pos
      obtain ⟨hlists, hrecords⟩ := ih (hq.closed.trans ho) (hpos ▸ hin.stop_le) (by omega) hrest
      rw [hpos] at hlists
      exact ⟨.cons hq.blanks hq.reads hk hlists,
        hrecords.cons hq.error_unclosed hq.error_same⟩

end Scanner

namespace Store

open Standby

variable {e₁ e₂ : Ambient} {r r₁ r₂ : Request} {st₁ st₂ st₁' st₂' : Store}
  {tokens₁ tokens₂ : List Token}

/-- The tokens of a list are those that the rules give, and the error that its scan keeps is
theirs. -/
theorem lists_of_tokenize_ok {e : Ambient} {st st' : Store} {tokens : List Token}
    (h : tokenize e .standby r st = .ok tokens st') :
    Lists r.source 0 tokens ∧
      Scanner.Records r.source tokens none (st'.scan st.scans.length).progress.error := by
  obtain ⟨host, m, hm, herror⟩ := of_tokenize_ok h
  have hn : r.source.length < 0 + (r.source.length + 1) := by omega
  rw [herror]
  exact Scanner.lists_of_collectUpTo_ok (p := .initial) rfl rfl (Nat.zero_le _) hn hm

/-- Two lists with a blank between them are tokenized one after the other, if a scan of the first
keeps no error. The tokens of the first, without its end token, come before those of the second,
which stand further on by the length of the first and the blank. The error that the scan keeps is
that of a scan of the second alone. -/
theorem tokenize_join_blank {c : Char}
    (h₁ : tokenize e₁ .standby r₁ st₁ = .ok tokens₁ st₁')
    (herror : (st₁'.scan st₁.scans.length).progress.error = none)
    (h₂ : tokenize e₂ .standby r₂ st₂ = .ok tokens₂ st₂') (hc : Blank c)
    (e : Ambient) (r : Request) (st : Store) (hr : r.source = r₁.source ++ c :: r₂.source)
    (hs : st.host.memory.Serves (r.scanner e (some .standby) st.scans.length).allocator) :
    ∃ st', tokenize e .standby r st =
        .ok (tokens₁.dropLast ++ tokens₂.map (Token.shift (r₁.source.length + 1) 0)) st' ∧
      (st'.scan st.scans.length).progress.error =
        (st₂'.scan st₂.scans.length).progress.error := by
  obtain ⟨hlists₁, hrecords₁⟩ := lists_of_tokenize_ok h₁
  obtain ⟨hlists₂, hrecords₂⟩ := lists_of_tokenize_ok h₂
  have hclosed : ∀ t ∈ tokens₁, ¬Unclosed r₁.source t.start := by
    intro t ht hopen
    rw [hrecords₁.unclosed ⟨t, ht, hopen⟩] at herror
    cases herror
  have htake : r.source.take r₁.source.length = r₁.source := by
    rw [hr, List.take_left]
  have hdrop : r.source.drop (r₁.source.length + 1) = r₂.source := by
    rw [hr, ← List.drop_drop, List.drop_left]
    rfl
  have hblank : r.source[r₁.source.length]? = some c := by
    rw [hr]
    simp
  generalize r₁.source.length = n at htake hdrop hblank ⊢
  rw [← htake] at hlists₁ hclosed
  rw [← hdrop] at hlists₂ hrecords₂
  obtain ⟨st', ⟨tokens, htokens⟩ | ⟨hboot, -⟩⟩ := tokenize_run (e := e) hs
  · obtain ⟨hlists, hrecords⟩ := lists_of_tokenize_ok htokens
    obtain rfl := hlists.unique (hlists₁.join hblank hc hclosed hlists₂)
    refine ⟨st', htokens, hrecords.eq hrecords₂ ?_⟩
    exact exists_unclosed_join_iff hblank hc hlists₁ hclosed hlists₂
  · cases hboot

/-- A quoted name whose last quote is right before the blank, and behind it one that never ends. -/
theorem tokenize_join_blank_quotes :
    ∃ st', tokenize .initial .standby ⟨['"', 'a', '"', '\n', '"', 'b'], none, .nothing⟩ .initial =
        .ok [⟨.standby .name, some ['a'], 0, 3, none⟩, ⟨.standby .junk, none, 4, 6, none⟩,
          ⟨.standby .endOfInput, none, 6, 6, none⟩] st' ∧
      (st'.scan 0).progress.error = some ⟨Scanner.unterminated, []⟩ := by
  obtain ⟨st₁', h₁, herror⟩ : ∃ st', tokenize .initial .standby ⟨['"', 'a', '"'], none, .nothing⟩
      .initial = .ok [⟨.standby .name, some ['a'], 0, 3, none⟩,
        ⟨.standby .endOfInput, none, 3, 3, none⟩] st' ∧
      (st'.scan 0).progress.error = none := ⟨_, rfl, rfl⟩
  obtain ⟨st₂', h₂, herror₂⟩ : ∃ st', tokenize .initial .standby ⟨['"', 'b'], none, .nothing⟩
      .initial = .ok [⟨.standby .junk, none, 0, 2, none⟩,
        ⟨.standby .endOfInput, none, 2, 2, none⟩] st' ∧
      (st'.scan 0).progress.error = some ⟨Scanner.unterminated, []⟩ := ⟨_, rfl, rfl⟩
  have hblank : Blank '\n' := by simp [Blank]
  obtain ⟨st', h, hsame⟩ := tokenize_join_blank h₁ herror h₂ hblank .initial
    ⟨['"', 'a', '"', '\n', '"', 'b'], none, .nothing⟩ .initial rfl trivial
  exact ⟨st', h, hsame.trans herror₂⟩

end Store

end MiniLex
