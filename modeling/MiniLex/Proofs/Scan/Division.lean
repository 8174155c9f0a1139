import MiniLex.Proofs.Bootstrap.Pull
import MiniLex.Proofs.Standby.Pull

/-!
# A scan divides its source

The tokens of a scan up to the end token are cut from its source without a
character being lost or read twice (`collect_ok`). Where the allocator never
fails, a standby scan always gets to the end token, and a bootstrap scan does
unless it refuses a character (`collectUpTo_run`).
-/

namespace MiniLex

/-- A gap in a standby list: any number of blanks. -/
structure Standby.Gap (source : Text) (i j : Nat) : Prop where
  le : i ≤ j
  blank : ∀ k, i ≤ k → k < j → ∃ c, source[k]? = some c ∧ Blank c

/-- What may stand between two tokens of a language. -/
def Language.Gap : Language → Text → Nat → Nat → Prop
  | bootstrap, source => Bootstrap.Gap source
  | standby, source => Standby.Gap source

theorem Language.le_of_gap (l : Language) (source : Text) (i j : Nat) (h : l.Gap source i j) :
    i ≤ j := by
  cases l with
  | bootstrap => exact Bootstrap.Gap.le h
  | standby => exact h.le

namespace Scanner

variable {s : Scanner} {l : Language} {p q : Progress} {h : Host} {m : Machine} {token : Token}
  {tokens : List Token}

/-! ## One token -/

/-- A token that is returned stands behind a gap, and the cursor is behind it. -/
theorem gap_of_outcome (hl : s.rules = some l) (ho : p.closed = false)
    (hp : p.pos ≤ s.source.length) (hout : s.outcome p = ⟨.ok token, q⟩) :
    l.Gap s.source p.pos token.start ∧ token.StandsIn s.source ∧ q.pos = token.stop ∧
      q.closed = false := by
  cases l with
  | bootstrap =>
    obtain ⟨f, hf, hshow⟩ := exists_finds_shows hl ho hp
    rw [hout] at hshow
    cases hshow with
    | token hq =>
      obtain ⟨hgap, hin⟩ := hf.gap_of_token (some (s.lineAt p _))
      exact ⟨hgap, hin, hq.pos, hq.closed.trans ho⟩
  | standby =>
    obtain ⟨start, token', q', hout', hq⟩ := exists_advances hl ho hp
    obtain ⟨ht, rfl⟩ := Outcome.mk.inj (hout.symm.trans hout')
    obtain rfl := Except.ok.inj ht
    obtain ⟨hstart, hin⟩ := hq.reads.standsIn
    have hb := hq.blanks
    exact ⟨⟨hstart ▸ hb.le, fun k hk hk' => hb.all k hk (hstart ▸ hk')⟩, hin, hq.pos,
      hq.closed.trans ho⟩

/-- An open scan returns a token, unless it is a bootstrap scan that refuses a character. -/
theorem outcome_cases (hl : s.rules = some l) (ho : p.closed = false)
    (hp : p.pos ≤ s.source.length) :
    (∃ token q, s.outcome p = ⟨.ok token, q⟩) ∨
      (l = .bootstrap ∧
        ∃ line c q, s.outcome p = ⟨.error (.illegalCharacter line c s.sourceName), q⟩) := by
  cases l with
  | bootstrap =>
    obtain ⟨f, -, hshow⟩ := exists_finds_shows hl ho hp
    generalize s.outcome p = o at hshow
    cases hshow with
    | token _ => exact .inl ⟨_, _, rfl⟩
    | illegal _ => exact .inr ⟨rfl, _, _, _, rfl⟩
  | standby =>
    obtain ⟨start, token, q, hout, -⟩ := exists_advances hl ho hp
    exact .inl ⟨token, q, hout⟩

/-! ## All tokens -/

/-- The tokens of a scan from its cursor on, if enough of them are asked for. -/
theorem collectUpTo_ok {n : Nat} (hl : s.rules = some l) (ho : p.closed = false)
    (hp : p.pos ≤ s.source.length) (hn : s.source.length < p.pos + n)
    (hr : s.collectUpTo n ⟨p, h⟩ = .ok tokens m) :
    Cuts (l.Gap s.source) s.source p.pos tokens := by
  induction n generalizing p h tokens with
  | zero => omega
  | succ n ih =>
    unfold collectUpTo at hr
    obtain ⟨token, ⟨q, h₁⟩, hpull, hr⟩ := of_bind_ok hr
    obtain ⟨hgap, hin, hpos, hopen⟩ := gap_of_outcome hl ho hp (pull_ok hpull)
    cases hk : token.kind.isEnd with
    | true =>
      simp only [hk, ↓reduceIte] at hr
      cases hr
      exact .last hgap hin hk
    | false =>
      simp only [hk, Bool.false_eq_true, ↓reduceIte] at hr
      obtain ⟨rest, m₂, hrest, hr⟩ := of_bind_ok hr
      cases hr
      have hle := l.le_of_gap _ _ _ hgap
      have hlt := hin.takes hk
      have hstop := hin.stop_le
      dsimp only at hpos hopen
      rw [← hpos] at hlt hstop
      refine .cons hgap hin hk ?_
      rw [← hpos]
      exact ih hopen hstop (by omega) hrest

/-- All tokens of a scan that starts. -/
theorem collect_ok (hl : s.rules = some l) (hr : s.collect ⟨.initial, h⟩ = .ok tokens m) :
    Cuts (l.Gap s.source) s.source 0 tokens := by
  refine collectUpTo_ok (p := .initial) hl rfl (Nat.zero_le _) ?_ hr
  exact Nat.lt_of_lt_of_le (Nat.lt_succ_self _) (Nat.le_add_left _ _)

/-- Where the allocator never fails, tokens are collected up to the end token, unless a bootstrap
scan refuses a character. -/
theorem collectUpTo_run (n : Nat) (hl : s.rules = some l) (ho : p.closed = false)
    (hp : p.pos ≤ s.source.length) (hs : h.memory.Serves s.allocator) :
    ∃ m, m.host.memory.Serves s.allocator ∧
      ((∃ tokens, s.collectUpTo n ⟨p, h⟩ = .ok tokens m) ∨
        (l = .bootstrap ∧ ∃ line c,
          s.collectUpTo n ⟨p, h⟩ = .error (.illegalCharacter line c s.sourceName) m)) := by
  induction n generalizing p h with
  | zero => exact ⟨_, hs, .inl ⟨[], rfl⟩⟩
  | succ n ih =>
    unfold collectUpTo
    obtain ⟨h₁, hr, hs₁⟩ := pull_run hs p
    rcases outcome_cases hl ho hp with ⟨token, q, hout⟩ | ⟨hboot, line, c, q, hout⟩
    · obtain ⟨-, hin, hpos, hopen⟩ := gap_of_outcome hl ho hp hout
      rw [hout] at hr
      rw [run_bind_ok hr]
      cases hk : token.kind.isEnd with
      | true => exact ⟨_, hs₁, .inl ⟨[token], rfl⟩⟩
      | false =>
        obtain ⟨m, hsm, hm⟩ := ih hopen (hpos ▸ hin.stop_le) hs₁
        refine ⟨m, hsm, ?_⟩
        rcases hm with ⟨rest, hrest⟩ | ⟨hboot, line, c, hrest⟩
        · exact .inl ⟨token :: rest, run_bind_ok hrest⟩
        · exact .inr ⟨hboot, line, c, run_bind_error hrest⟩
    · rw [hout] at hr
      exact ⟨_, hs₁, .inr ⟨hboot, line, c, run_bind_error hr⟩⟩

end Scanner

end MiniLex
