import MiniLex.Proofs.Scan.Demand
import MiniLex.Proofs.Standby.Listing

/-!
# What quoted names reserve

For every quoted name that a standby scan opens (`Opens`), it reserves the least
doubling of the initial capacity that covers the decoded name, whether or not
the name ends and however its text is cut into runs. For other tokens it
reserves nothing. So what a scan reserves in all follows from its tokens:
`Scanner.used_of_lists`.
-/

namespace MiniLex

namespace Standby

variable {source : Text} {p : Nat} {name rest : Text} {body : Doubled.Body}

/-- At an offset a quoted name is opened that stands for this text. It ends at the first quote that
is not one of a pair, or with the whole text if there is none. -/
inductive Opens (source : Text) (p : Nat) (name : Text) : Prop
  | closed {inside rest : Text} : source.drop p = '"' :: (inside ++ '"' :: rest) →
    Doubled.Decodes '"' inside name → rest.head? ≠ some '"' → Opens source p name
  | unclosed {inside : Text} : source.drop p = '"' :: inside →
    Doubled.Decodes '"' inside name → Opens source p name

/-- Behind a quote one name is opened, which is what the body there stands for. -/
theorem opens_iff (h : source.drop p = '"' :: rest) :
    Opens source p name ↔ name = (Doubled.Body.read '"' rest).text '"' := by
  constructor
  · rintro (⟨hd, hdec, hr⟩ | ⟨hd, hdec⟩) <;> obtain ⟨-, rfl⟩ := List.cons.inj (h.symm.trans hd)
    · exact (Doubled.Body.read_append_of_decodes hdec hr).2.1.symm
    · exact (Doubled.Body.read_of_decodes hdec).2.1.symm
  · rintro rfl
    cases hc : (Doubled.Body.read '"' rest).isClosed with
    | true =>
      obtain ⟨inside, after, rfl, hr, hdec, -⟩ := Doubled.Body.exists_decodes_of_isClosed hc
      exact .closed h hdec hr
    | false => exact .unclosed h (Doubled.Body.decodes_of_isClosed_eq_false hc).1

/-- For each of the tokens that begin with a quote, one of these capacities is the least doubling of
the initial one that covers the name opened there. -/
def Reserves (source : Text) (tokens : List Token) (capacities : List Int) : Prop :=
  List.Forall₂ (fun t c => ∃ name, Opens source t.start name ∧
      LeastDoubling Buffer.initialCapacity name.length c)
    (tokens.filter fun t => source[t.start]? = some '"') capacities

/-- A body is read where a quote stands, and only there. -/
theorem quote_of_read (h : Reading.read (source.drop p) = .quoted body) :
    source[p]? = some '"' := by
  obtain ⟨rest, hd, -⟩ := exists_quote_of_quoted h
  exact Text.getElem?_of_drop_eq_cons hd

theorem not_quote_of_read (h : ∀ body, Reading.read (source.drop p) ≠ .quoted body) :
    source[p]? ≠ some '"' :=
  fun hq => h _ (read_quote (Text.drop_eq_cons hq))

end Standby

namespace Scanner

open Standby

variable {s : Scanner} {p : Progress} {tokens : List Token}

/-- A pull reserves what the name needs that is opened behind the blanks, or nothing. -/
theorem usage_of_blanks {start : Nat} (hl : s.rules = some .standby) (ho : p.closed = false)
    (hb : s.source.LongestRun Blank p.pos start) :
    (s.source[start]? = some '"' ∧ ∃ name, Opens s.source start name ∧
      LeastDoubling Buffer.initialCapacity name.length (s.usage p).1) ∨
    (s.source[start]? ≠ some '"' ∧ (s.usage p).1 = 0) := by
  have hle : p.pos ≤ s.source.length := Nat.le_trans hb.le hb.le_length
  have hstart : (s.afterBlanks p).pos = start :=
    (Text.longestRun_takeWhile isBlank_iff hle).unique hb
  rw [usage, if_neg (by simp [ho])]
  simp only [hl, hstart]
  cases hread : Reading.read (s.source.drop start) with
  | atEnd => exact .inr ⟨not_quote_of_read (by simp [hread]), rfl⟩
  | lexeme l =>
    refine .inr ⟨not_quote_of_read (by simp [hread]), ?_⟩
    show l.payload.usage.1 = 0
    cases l.payload <;> rfl
  | quoted body =>
    obtain ⟨rest, hd, rfl⟩ := exists_quote_of_quoted hread
    refine .inl ⟨quote_of_read hread, _, (opens_iff hd).mpr rfl, ?_⟩
    have hreserved : (quotedUsage (Doubled.Body.read '"' rest)).1 =
        capacityFor Buffer.initialCapacity ((Doubled.Body.read '"' rest).text '"').length := by
      rw [quotedUsage]
      split <;> exact Int.add_zero _
    rw [hreserved]
    exact capacityFor_leastDoubling _ (by decide)

/-- What pulling all tokens reserves. -/
theorem used_of_lists (hl : s.rules = some .standby) (ho : p.closed = false)
    (hlists : Lists s.source p.pos tokens) :
    ∃ capacities, Reserves s.source tokens capacities ∧
      (s.used p (List.replicate tokens.length .pull)).1 = capacities.sum := by
  induction hn : tokens.length generalizing p tokens with
  | zero => cases hlists <;> cases hn
  | succ n ih =>
    obtain ⟨t, q, rest, hout, hq, -, hrest⟩ := exists_outcome_of_lists hl ho hlists
    -- What is reserved for the tokens behind this one.
    obtain ⟨after, capacities, htokens, hcapacities, hsum⟩ : ∃ after capacities,
        tokens = t :: after ∧ Reserves s.source after capacities ∧
          (s.used q (List.replicate n .pull)).1 = capacities.sum := by
      rcases hrest with ⟨-, rfl⟩ | ⟨-, rfl, hrest⟩
      · obtain rfl : n = 0 := (Nat.succ.inj hn).symm
        exact ⟨[], [], rfl, .nil, rfl⟩
      · have hpos := hq.pos
        rw [← hpos] at hrest
        obtain ⟨capacities, hcapacities, hsum⟩ :=
          ih (hq.closed.trans ho) hrest (Nat.succ.inj hn)
        exact ⟨rest, capacities, rfl, hcapacities, hsum⟩
    have hused : (s.used p (List.replicate (n + 1) .pull)).1 =
        (s.usage p).1 + capacities.sum := by
      rw [List.replicate_succ, used, effect_pull hout, ← hsum]
      rfl
    subst htokens
    rcases usage_of_blanks hl ho hq.blanks with ⟨hquote, hname⟩ | ⟨hquote, hnone⟩
    · refine ⟨(s.usage p).1 :: capacities, ?_, by rw [hused, List.sum_cons]⟩
      rw [Reserves, List.filter_cons_of_pos (by simpa using hquote)]
      exact .cons hname hcapacities
    · refine ⟨capacities, ?_, by rw [hused, hnone, Int.zero_add]⟩
      rw [Reserves, List.filter_cons_of_neg (by simpa using hquote)]
      exact hcapacities

end Scanner

end MiniLex
