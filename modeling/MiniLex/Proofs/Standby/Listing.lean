import MiniLex.Proofs.Scan.Division

/-!
# The tokens of a standby list

All tokens that the rules give from an offset on, up to the end token
(`Lists`). There is exactly one such list at every offset of a text
(`exists_lists`, `Lists.unique`), and it is what a scan collects
where the allocator never fails: `collect_lists`.
-/

namespace MiniLex

namespace Standby

variable {source : Text} {i p : Nat} {t : Token} {tokens : List Token}

/-- From an offset on the rules give these tokens, each of them behind blanks. The end token is the
last. -/
inductive Lists (source : Text) : Nat → List Token → Prop
  | last {i : Nat} {t : Token} :
    source.LongestRun Blank i t.start → Reads source t.start t → t.kind.isEnd = true →
    Lists source i [t]
  | cons {i : Nat} {t : Token} {tokens : List Token} :
    source.LongestRun Blank i t.start → Reads source t.start t → t.kind.isEnd = false →
    Lists source t.stop tokens → Lists source i (t :: tokens)

/-- The rules give tokens from every offset on. -/
theorem exists_lists (h : i ≤ source.length) : ∃ tokens, Lists source i tokens := by
  -- Every token but the end token takes a character, so less of the text is left behind it.
  induction hn : source.length - i using Nat.strongRecOn generalizing i with
  | ind n ih =>
    have hb := Text.longestRun_takeWhile isBlank_iff h
    generalize i + ((source.drop i).takeWhile isBlank).length = p at hb
    have hr := reads_tokenAt hb.le_length
    generalize tokenAt source p = t at hr
    obtain ⟨rfl, hin⟩ := hr.standsIn
    cases hk : t.kind.isEnd with
    | true => exact ⟨[t], .last hb hr hk⟩
    | false =>
      have hle := hb.le
      have hlt := hin.takes hk
      have hstop := hin.stop_le
      obtain ⟨tokens, htokens⟩ := ih (source.length - t.stop) (by omega) hstop rfl
      exact ⟨t :: tokens, .cons hb hr hk htokens⟩

/-- Behind the blanks at an offset stands one token only. -/
theorem eq_of_reads {t' : Token} (hb : source.LongestRun Blank i t.start)
    (hr : Reads source t.start t) (hb' : source.LongestRun Blank i t'.start)
    (hr' : Reads source t'.start t') : t = t' := by
  rw [hr.eq_tokenAt, hr'.eq_tokenAt, hb.unique hb']

/-- The rules give no other tokens from an offset on. -/
theorem Lists.unique {tokens' : List Token} (h : Lists source i tokens)
    (h' : Lists source i tokens') : tokens = tokens' := by
  induction h generalizing tokens' with
  | last hb hr hk =>
    cases h' with
    | last hb' hr' _ => rw [eq_of_reads hb hr hb' hr']
    | cons hb' hr' hk' _ =>
      rw [← eq_of_reads hb hr hb' hr', hk] at hk'
      cases hk'
  | cons hb hr hk _ ih =>
    cases h' with
    | last hb' hr' hk' =>
      rw [← eq_of_reads hb hr hb' hr', hk] at hk'
      cases hk'
    | cons hb' hr' _ hrest' =>
      obtain rfl := eq_of_reads hb hr hb' hr'
      rw [ih hrest']

theorem Lists.reads (h : Lists source i tokens) : ∀ t ∈ tokens, Reads source t.start t := by
  induction h with
  | last _ hr _ =>
    intro t ht
    rw [List.mem_singleton.mp ht]
    exact hr
  | cons _ hr _ _ ih => exact List.forall_mem_cons.mpr ⟨hr, ih⟩

/-- The tokens of a list are cut from its text. -/
theorem Lists.cuts (h : Lists source i tokens) : Cuts (Gap source) source i tokens := by
  induction h with
  | last hb hr hk => exact .last ⟨hb.le, hb.all⟩ hr.standsIn.2 hk
  | cons hb hr hk _ ih => exact .cons ⟨hb.le, hb.all⟩ hr.standsIn.2 hk ih

/-- Behind the end token the rules give nothing but the end token again. -/
theorem Lists.of_isEnd (h : Reads source t.start t) (hk : t.kind.isEnd = true) :
    Lists source t.stop [t] := by
  have hin := h.standsIn.2
  have hstart := hin.atEnd hk
  have hstop := hin.stop_eq hk
  have hb : source.LongestRun Blank source.length source.length := by
    refine Text.longestRun_self (Nat.le_refl _) fun c hc => ?_
    exact absurd (List.getElem?_eq_some_iff.mp hc).1 (Nat.lt_irrefl _)
  exact .last (by rwa [hstop, hstart]) h hk

end Standby

namespace Scanner

open Standby

variable {s : Scanner} {p : Progress} {h : Host} {tokens : List Token}

/-- The outcome of a standby pull is the first of the tokens that the rules give from the cursor on.
The others are given from the end of that token on. -/
theorem exists_outcome_of_lists (hl : s.rules = some .standby) (ho : p.closed = false)
    (hlists : Lists s.source p.pos tokens) :
    ∃ t q rest, s.outcome p = ⟨.ok t, q⟩ ∧ s.Advances p t.start t q ∧ t ∈ tokens ∧
      (t.kind.isEnd = true ∧ tokens = [t] ∨
        t.kind.isEnd = false ∧ tokens = t :: rest ∧ Lists s.source t.stop rest) := by
  -- The rules give one token only, so the one of the pull is the first of the list.
  have hsame : ∀ {t : Token}, s.source.LongestRun Blank p.pos t.start → Reads s.source t.start t →
      ∃ q, s.outcome p = ⟨.ok t, q⟩ ∧ s.Advances p t.start t q := by
    intro t hb hr
    obtain ⟨start, t', q, hout, hq⟩ := exists_advances hl ho (Nat.le_trans hb.le hb.le_length)
    obtain rfl := hq.blanks.unique hb
    obtain rfl : t' = t := by
      rw [(reads_iff hb.le_length).mp hq.reads, ← (reads_iff hb.le_length).mp hr]
    exact ⟨q, hout, hq⟩
  cases hlists with
  | last hb hr hk =>
    obtain ⟨q, hout, hq⟩ := hsame hb hr
    exact ⟨_, q, [], hout, hq, List.mem_singleton_self _, .inl ⟨hk, rfl⟩⟩
  | cons hb hr hk hrest =>
    obtain ⟨q, hout, hq⟩ := hsame hb hr
    exact ⟨_, q, _, hout, hq, List.mem_cons_self, .inr ⟨hk, rfl, hrest⟩⟩

/-- Where the allocator never fails, a standby scan collects the tokens that the rules give from its
cursor on. It keeps no error where they have no quoted name that never ends. -/
theorem collectUpTo_lists (hl : s.rules = some .standby) {n : Nat} (hn : tokens.length ≤ n)
    (ho : p.closed = false) (hlists : Lists s.source p.pos tokens)
    (hs : h.memory.Serves s.allocator) :
    ∃ m, s.collectUpTo n ⟨p, h⟩ = .ok tokens m ∧
      ((∀ t ∈ tokens, ¬Unclosed s.source t.start) → m.progress.error = p.error) := by
  induction n generalizing p h tokens with
  | zero =>
    cases hlists <;> cases hn
  | succ n ih =>
    obtain ⟨t, q, rest, hout, hq, hmem, hrest⟩ := exists_outcome_of_lists hl ho hlists
    obtain ⟨h₁, hr, hs₁⟩ := pull_run hs p
    rw [hout] at hr
    unfold collectUpTo
    rw [run_bind_ok hr]
    rcases hrest with ⟨hk, rfl⟩ | ⟨hk, rfl, hrest⟩
    · simp only [hk, ↓reduceIte]
      exact ⟨_, rfl, fun hu => hq.error_same (hu t hmem)⟩
    · have hpos := hq.pos
      have hopen := hq.closed.trans ho
      rw [← hpos] at hrest
      obtain ⟨m, hm, herror⟩ := ih (Nat.le_of_succ_le_succ hn) hopen hrest hs₁
      simp only [hk, Bool.false_eq_true, ↓reduceIte]
      rw [run_bind_ok hm]
      refine ⟨_, rfl, fun hu => ?_⟩
      rw [← hq.error_same (hu t hmem)]
      exact herror fun u hmu => hu u (List.mem_cons_of_mem t hmu)

/-- Where the allocator never fails, a standby scan that starts collects the tokens that the rules
give from the start of its source on. -/
theorem collect_lists (hl : s.rules = some .standby) (hlists : Lists s.source 0 tokens)
    (hs : h.memory.Serves s.allocator) :
    ∃ m, s.collect ⟨.initial, h⟩ = .ok tokens m ∧
      ((∀ t ∈ tokens, ¬Unclosed s.source t.start) → m.progress.error = none) := by
  have hn := hlists.cuts.length_add_le fun _ _ hg => hg.le
  exact collectUpTo_lists (p := .initial) hl hn rfl hlists hs

end Scanner

end MiniLex
