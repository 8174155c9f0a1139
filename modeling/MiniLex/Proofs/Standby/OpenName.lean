import MiniLex.Proofs.Bootstrap.LostLines
import MiniLex.Proofs.Standby.Joining
import MiniLex.Proofs.Standby.Quoting
import MiniLex.Proofs.Standby.Resuming

/-!
# Quoted names that never end, by the number of quotes

A standby scan keeps an error exactly if its source has an odd number of quotes:

* `Reads.even_count_iff`: a token takes an even number of them, but for a
  quoted name that never ends;
* `Lists.even_count_iff`: so the number of all of them is even exactly if every
  quoted name ends;
* `Lists.exists_open`: one that does not is the last token before the end token;
* `exists_prefix_returned`, `records_returned`: what a run of pulls returns where
  the allocator never fails, and the error that it keeps.

`Scanner.open_name_iff_odd` puts these facts together for every run of pulls.
-/

namespace MiniLex

namespace Standby

variable {source : Text} {i p : Nat} {c : Char} {t : Token} {tokens : List Token}

/-! ## Junk that begins with a quote -/

/-- Junk that begins with a quote. -/
def IsOpenName (source : Text) (t : Token) : Prop :=
  t.kind = .standby .junk ∧ source[t.start]? = some '"'

instance (source : Text) (t : Token) : Decidable (IsOpenName source t) :=
  inferInstanceAs (Decidable (_ ∧ _))

theorem Unclosed.getElem? (h : Unclosed source p) : source[p]? = some '"' := by
  obtain ⟨inside, value, hd, -⟩ := h
  exact Text.getElem?_of_drop_eq_cons hd

/-- Junk that begins with a quote is a quoted name that never ends. -/
theorem unclosed_iff_isOpenName (h : Reads source t.start t) :
    Unclosed source t.start ↔ IsOpenName source t := by
  constructor
  · intro ⟨inside, value, hd, hdec⟩
    refine ⟨?_, Text.getElem?_of_drop_eq_cons hd⟩
    rw [h.eq_tokenAt, ← (Reads.unclosed hd hdec).eq_tokenAt]
  · intro ⟨hk, hq⟩
    generalize t.start = p at h hq
    cases h with
    | unclosed hd hdec => exact ⟨_, _, hd, hdec⟩
    | junk hc _ _ hn =>
      rw [hc] at hq
      rw [Option.some.inj hq] at hn
      exact absurd hn (by decide)
    | _ => cases hk

/-! ## The quotes of one token -/

theorem not_nameChar_quote : ¬NameChar '"' := by
  rw [← isNameChar_iff]
  decide

theorem not_digit_quote : ¬Digit '"' := fun h => h.ne_quote rfl

/-- A run of a class of characters that the quote is not in has no quotes. -/
theorem even_count_of_longestRun {P : Char → Prop} {start stop : Nat} (hP : ¬P '"')
    (h : source.LongestRun P start stop) : Even ((source.slice start stop).count '"') := by
  rw [List.count_eq_zero.mpr fun hmem => hP (h.of_mem_slice hmem)]
  exact Even.zero

theorem even_count_of_getElem? (h : source[p]? = some c) (hc : c ≠ '"') :
    Even ((source.slice p (p + 1)).count '"') := by
  rw [Text.slice_of_getElem? h, List.count_singleton, if_neg (by simpa using hc)]
  exact Even.zero

/-- The quotes of a quoted name that ends are those around it, and pairs. -/
theorem even_count_of_quoted {inside value rest : Text}
    (h : source.drop p = '"' :: (inside ++ '"' :: rest)) (hdec : Doubled.Decodes '"' inside value) :
    Even ((source.slice p (p + (inside.length + 2))).count '"') := by
  have hsplit : source.drop p = ('"' :: (inside ++ ['"'])) ++ rest := by rw [h]; simp
  have hslice := Text.slice_of_drop_eq_append hsplit
  rw [List.length_cons, List.length_append, List.length_singleton] at hslice
  rw [hslice, List.count_cons_self, List.count_append, List.count_singleton_self, Nat.add_assoc]
  exact hdec.even_count.add ⟨1, rfl⟩

/-- One that never ends has one quote more. -/
theorem not_even_count_of_unclosed (h : Unclosed source p) :
    ¬Even ((source.drop p).count '"') := by
  obtain ⟨inside, value, hd, hdec⟩ := h
  rw [hd, List.count_cons_self, Nat.even_add_one, not_not]
  exact hdec.even_count

/-- A token takes an even number of quotes, unless it is a quoted name that never ends. -/
theorem Reads.even_count_iff (h : Reads source p t) :
    Even ((source.slice p t.stop).count '"') ↔ ¬Unclosed source p := by
  by_cases hu : Unclosed source p
  · rw [stop_of_unclosed h hu, Text.slice_length]
    exact iff_of_false (not_even_count_of_unclosed hu) (not_not_intro hu)
  refine iff_of_true ?_ hu
  cases h with
  | atEnd hp => simp [Text.slice]
  | any _ _ hr _ | first _ _ hr _ | name _ _ hr _ _ =>
    exact even_count_of_longestRun not_nameChar_quote hr
  | number _ _ hr => exact even_count_of_longestRun not_digit_quote hr
  | star hc | comma hc | leftParen hc | rightParen hc =>
    exact even_count_of_getElem? hc (by decide)
  | quoted hd hdec _ => exact even_count_of_quoted hd hdec
  | unclosed hd hdec => exact absurd ⟨_, _, hd, hdec⟩ hu
  | junk hc _ _ hn =>
    simp only [List.mem_cons, List.not_mem_nil, or_false, not_or] at hn
    exact even_count_of_getElem? hc hn.2.2.2.2

/-- Junk that is not a quoted name takes no quote. -/
theorem Reads.not_mem_of_junk (h : Reads source p t) (hk : t.kind = .standby .junk)
    (hu : ¬Unclosed source p) : '"' ∉ source.slice p t.stop := by
  cases h with
  | unclosed hd hdec => exact absurd ⟨_, _, hd, hdec⟩ hu
  | junk hc _ _ hn =>
    simp only [List.mem_cons, List.not_mem_nil, or_false, not_or] at hn
    rw [Text.slice_of_getElem? hc, List.mem_singleton]
    exact Ne.symm hn.2.2.2.2
  | _ => cases hk

/-! ## The quotes of a list -/

/-- The number of quotes from an offset on is even exactly if every quoted name ends there. By
induction on the tokens: the blanks before a token have no quotes, and the parity of what is behind
it is that of the whole, unless it takes the rest of the text. -/
theorem Lists.even_count_iff (h : Lists source i tokens) :
    Even ((source.drop i).count '"') ↔ ∀ t ∈ tokens, ¬Unclosed source t.start := by
  have hblank : ¬Blank '"' := fun hb => hb.ne_quote rfl
  have hskip : ∀ {i : Nat} {t : Token}, source.LongestRun Blank i t.start →
      Reads source t.start t →
      (Even ((source.drop i).count '"') ↔
        (¬Unclosed source t.start ↔ Even ((source.drop t.stop).count '"'))) := by
    intro i t hb hr
    have hgap := even_count_of_longestRun hblank hb
    rw [Text.drop_eq_slice_append source hb.le, List.count_append, Nat.even_add, iff_true_left hgap,
      Text.drop_eq_slice_append source hr.standsIn.2.start_le, List.count_append, Nat.even_add,
      hr.even_count_iff]
  have hnone : Even ((source.drop source.length).count '"') := by simp
  induction h with
  | @last i t hb hr hk =>
    rw [hskip hb hr, hr.standsIn.2.stop_eq hk, iff_true_right hnone, List.forall_mem_singleton]
  | @cons i t tokens hb hr hk _ ih =>
    rw [hskip hb hr, List.forall_mem_cons]
    by_cases hu : Unclosed source t.start
    · rw [stop_of_unclosed hr hu]
      simp only [hu, not_true_eq_false, false_iff, false_and, iff_false, not_not]
      exact hnone
    · rw [iff_true_left hu]
      exact ih.trans (and_iff_right hu).symm

/-- It is odd exactly if one never ends. -/
theorem Lists.odd_count_iff (h : Lists source 0 tokens) :
    Odd (source.count '"') ↔ ∃ t ∈ tokens, Unclosed source t.start := by
  rw [← Nat.not_even_iff_odd, ← List.drop_zero (l := source), h.even_count_iff]
  simp only [List.drop_zero, not_forall, not_not, exists_prop]

/-- End tokens are no quoted names. -/
theorem exists_unclosed_append_iff {ends : List Token}
    (hreads : ∀ t ∈ ends, Reads source t.start t) (hends : ∀ t ∈ ends, t.kind.isEnd = true) :
    (∃ t ∈ tokens ++ ends, Unclosed source t.start) ↔
      ∃ t ∈ tokens, Unclosed source t.start := by
  constructor
  · intro ⟨t, ht, hu⟩
    rcases List.mem_append.mp ht with hmem | hmem
    · exact ⟨t, hmem, hu⟩
    · have hk := ((unclosed_iff_isOpenName (hreads t hmem)).mp hu).1
      have hend := hends t hmem
      rw [hk] at hend
      cases hend
  · intro ⟨t, ht, hu⟩
    exact ⟨t, List.mem_append_left ends ht, hu⟩

/-- A quoted name that never ends is the last token before the end token. -/
theorem Lists.exists_open (h : Lists source i tokens)
    (hu : ∃ t ∈ tokens, Unclosed source t.start) :
    ∃ front t last, tokens = front ++ [t, last] ∧ (∀ u ∈ front, u.kind.isEnd = false) ∧
      last.kind.isEnd = true ∧ t.kind = .standby .junk ∧ Unclosed source t.start ∧
      t.stop = source.length := by
  induction h with
  | @last i t _ hr hk =>
    obtain ⟨u, hmem, hu⟩ := hu
    obtain rfl := List.mem_singleton.mp hmem
    have hlt := (List.getElem?_eq_some_iff.mp hu.getElem?).1
    exact absurd (hr.standsIn.2.atEnd hk) (Nat.ne_of_lt hlt)
  | @cons i t tokens _ hr hk hrest ih =>
    by_cases ht : Unclosed source t.start
    · have hstop := stop_of_unclosed hr ht
      have hjunk : t.kind = .standby .junk := by
        by_contra hne
        exact not_unclosed_of_reads hr hne ht
      rw [hstop] at hrest
      obtain rfl := hrest.unique (lists_atEnd rfl)
      exact ⟨[], t, _, rfl, nofun, rfl, hjunk, ht, hstop⟩
    · have hrest : ∃ u ∈ tokens, Unclosed source u.start := by
        obtain ⟨u, hmem, hu⟩ := hu
        rcases List.mem_cons.mp hmem with rfl | hmem
        · exact absurd hu ht
        · exact ⟨u, hmem, hu⟩
      obtain ⟨front, u, last, rfl, hfront, h⟩ := ih hrest
      exact ⟨t :: front, u, last, rfl, List.forall_mem_cons.mpr ⟨hk, hfront⟩, h⟩

end Standby

namespace Scanner

open Standby

variable {s : Scanner} {p q : Progress} {h : Host} {t : Token} {tokens : List Token}
  {hosts : List Host}

/-! ## What a run of pulls returns -/

/-- A pull whose outcome is a token returns it where the allocator does not fail. -/
theorem run_cons_of_outcome (hs : h.memory.Serves s.allocator) (hout : s.outcome p = ⟨.ok t, q⟩)
    (hosts : List Host) :
    s.returned p (h :: hosts) = t :: s.returned q hosts ∧
      s.afterPulls p (h :: hosts) = s.afterPulls q hosts := by
  obtain ⟨h', hr, -⟩ := pull_run hs p
  rw [hout] at hr
  rw [returned_cons, afterPulls, hr, Outcome.ofResult_on]
  exact ⟨rfl, rfl⟩

/-- Where the allocator never fails, each pull returns a token: those of the list one after the
other, and then the end token again and again. -/
theorem exists_prefix_returned (hl : s.rules = some .standby) (ho : p.closed = false)
    (hlists : Lists s.source p.pos tokens) (hs : ∀ h ∈ hosts, h.memory.Serves s.allocator) :
    (s.returned p hosts).length = hosts.length ∧
      ∃ ends, (∀ t ∈ ends, t.kind.isEnd = true) ∧ s.returned p hosts <+: tokens ++ ends := by
  induction hosts generalizing p tokens with
  | nil => exact ⟨rfl, [], nofun, List.nil_prefix⟩
  | cons h hosts ih =>
    obtain ⟨hh, hhosts⟩ := List.forall_mem_cons.mp hs
    obtain ⟨t, q, rest, hout, hq, hmem, hrest⟩ := exists_outcome_of_lists hl ho hlists
    have hopen := hq.closed.trans ho
    have hread := hlists.reads t hmem
    rw [(run_cons_of_outcome hh hout hosts).1, List.length_cons, List.length_cons]
    rcases hrest with ⟨hk, rfl⟩ | ⟨hk, rfl, hrest⟩
    · have hagain : Lists s.source q.pos [t] := hq.pos ▸ Lists.of_isEnd hread hk
      obtain ⟨hlen, ends, hends, hprefix⟩ := ih hopen hagain hhosts
      exact ⟨congrArg (· + 1) hlen, t :: ends, List.forall_mem_cons.mpr ⟨hk, hends⟩,
        List.cons_prefix_cons.mpr ⟨rfl, hprefix⟩⟩
    · obtain ⟨hlen, ends, hends, hprefix⟩ := ih hopen (hq.pos ▸ hrest) hhosts
      exact ⟨congrArg (· + 1) hlen, ends, hends, List.cons_prefix_cons.mpr ⟨rfl, hprefix⟩⟩

/-- A run that is longer than the source, or in which the end token is returned, returns the whole
list and then end tokens only. -/
theorem exists_returned_eq (hl : s.rules = some .standby) (ho : p.closed = false)
    (hlists : Lists s.source p.pos tokens) (hs : ∀ h ∈ hosts, h.memory.Serves s.allocator)
    (hend : s.source.length < hosts.length ∨ ∃ t ∈ s.returned p hosts, t.kind.isEnd = true) :
    ∃ ends, s.returned p hosts = tokens ++ ends ∧ ∀ t ∈ ends, t.kind.isEnd = true := by
  obtain ⟨hlen, ends, hends, hprefix⟩ := exists_prefix_returned hl ho hlists hs
  have hcuts := hlists.cuts
  have hcount := hcuts.length_add_le fun _ _ hg => hg.le
  obtain ⟨front, last, hfront, -, -, -, hno⟩ := hcuts.exists_end
  -- The run does not stop before the last token of the list.
  have hnot : ¬s.returned p hosts <+: front := by
    intro hsub
    rcases hend with hlt | ⟨t, ht, hk⟩
    · have hle := hsub.length_le
      rw [hfront, List.length_append, List.length_singleton] at hcount
      omega
    · have hk' := (hno t (hsub.subset ht)).1
      rw [hk] at hk'
      cases hk'
  obtain ⟨rest, hrest⟩ := hprefix
  rcases List.append_eq_append_iff.mp hrest with ⟨more, htokens, -⟩ | ⟨more, hreturned, hmore⟩
  · rw [hfront] at htokens
    have hsub : s.returned p hosts <+: front ++ [last] := ⟨more, htokens.symm⟩
    rcases List.prefix_concat_iff.mp hsub with heq | hsub
    · exact ⟨[], by rw [heq, List.append_nil, hfront], nofun⟩
    · exact absurd hsub hnot
  · refine ⟨more, hreturned, fun t ht => hends t ?_⟩
    rw [hmore]
    exact List.mem_append_left rest ht

/-- The error that a run keeps is that of the tokens that it returns. -/
theorem records_returned (hl : s.rules = some .standby) (ho : p.closed = false)
    (hp : p.pos ≤ s.source.length) (hs : ∀ h ∈ hosts, h.memory.Serves s.allocator) :
    Records s.source (s.returned p hosts) p.error (s.afterPulls p hosts).error := by
  induction hosts generalizing p with
  | nil => exact records_nil
  | cons h hosts ih =>
    obtain ⟨hh, hhosts⟩ := List.forall_mem_cons.mp hs
    obtain ⟨start, t, q, hout, hq⟩ := exists_advances hl ho hp
    obtain ⟨rfl, hin⟩ := hq.reads.standsIn
    obtain ⟨hreturned, hafter⟩ := run_cons_of_outcome hh hout hosts
    rw [hreturned, hafter]
    have hpos : q.pos ≤ s.source.length := hq.pos ▸ hin.stop_le
    exact (ih (hq.closed.trans ho) hpos hhosts).cons hq.error_unclosed hq.error_same

/-- A scan that keeps no error before keeps one exactly if it returns a quoted name that never
ends. -/
theorem Records.isSome_iff {source : Text} {error : Option Diagnostic}
    (h : Records source tokens none error) :
    error.isSome = true ↔ ∃ t ∈ tokens, Unclosed source t.start := by
  by_cases hu : ∃ t ∈ tokens, Unclosed source t.start
  · rw [h.unclosed hu]
    exact iff_of_true rfl hu
  · rw [h.same fun t ht hopen => hu ⟨t, ht, hopen⟩]
    exact iff_of_false Bool.false_ne_true hu

/-- A standby scan that gets to the end of its source keeps an error exactly if the source has an
odd number of quotes, where the allocator never fails and nobody else reports an error. The error is
then that of a quoted name that never ends. This is the last token before the end token, junk that
begins with a quote and takes the rest of the source. With an even number of quotes no junk has a
quote in it. A run of more pulls than the source has characters always gets to the end. -/
theorem open_name_iff_odd (hl : s.rules = some .standby)
    (hs : ∀ h ∈ hosts, h.memory.Serves s.allocator) :
    let tokens := s.returned .initial hosts
    let error := (s.afterPulls .initial hosts).error
    let quotes := s.source.count '"'
    (s.source.length < hosts.length → ∃ t ∈ tokens, t.kind.isEnd = true) ∧
    ((∃ t ∈ tokens, t.kind.isEnd = true) →
      (error.isSome = true ↔ Odd quotes) ∧
      (Odd quotes →
        error.map Diagnostic.message = some "unterminated quoted identifier at end of input" ∧
        ∃ front t ends, tokens = front ++ t :: ends ∧ (∀ u ∈ front, u.kind.isEnd = false) ∧
          ends ≠ [] ∧ (∀ u ∈ ends, u.kind.isEnd = true) ∧ t.kind = .standby .junk ∧
          s.source[t.start]? = some '"' ∧ t.stop = s.source.length) ∧
      (Even quotes → ∀ t ∈ tokens, t.kind = .standby .junk →
        '"' ∉ s.source.slice t.start t.stop)) := by
  intro tokens error quotes
  obtain ⟨all, hlists⟩ := exists_lists (Nat.zero_le s.source.length)
  have hrun := exists_returned_eq (p := .initial) hl rfl hlists hs
  constructor
  · intro hlt
    obtain ⟨ends, hreturned, -⟩ := hrun (.inl hlt)
    obtain ⟨front, last, hall, hk, -⟩ := hlists.cuts.exists_end
    exact ⟨last, by simp only [tokens, hreturned, hall]; simp, hk⟩
  intro hend
  obtain ⟨ends, hreturned, hends⟩ := hrun (.inr hend)
  have htokens : tokens = all ++ ends := hreturned
  have hreads : ∀ t ∈ tokens, Reads s.source t.start t :=
    reads_of_mem_returned hl hosts rfl (Nat.zero_le _)
  have hrecords : Records s.source tokens none error :=
    records_returned (p := .initial) hl rfl (Nat.zero_le _) hs
  have hodd : Odd quotes ↔ ∃ t ∈ tokens, Unclosed s.source t.start := by
    rw [htokens] at hreads ⊢
    rw [exists_unclosed_append_iff (fun t ht => hreads t (List.mem_append_right all ht)) hends]
    exact hlists.odd_count_iff
  refine ⟨?_, fun hq => ⟨?_, ?_⟩, fun hq t ht hk => ?_⟩
  · rw [hrecords.isSome_iff, hodd]
  · rw [hrecords.unclosed (hodd.mp hq)]
    rfl
  · obtain ⟨front, t, last, rfl, hfront, hlast, hk, hu, hstop⟩ :=
      hlists.exists_open (hlists.odd_count_iff.mp hq)
    exact ⟨front, t, last :: ends, by rw [htokens]; simp, hfront, List.cons_ne_nil _ _,
      List.forall_mem_cons.mpr ⟨hlast, hends⟩, hk, hu.getElem?, hstop⟩
  · refine (hreads t ht).not_mem_of_junk hk fun hu => ?_
    exact Nat.not_odd_iff_even.mpr hq (hodd.mpr ⟨t, ht, hu⟩)

/-- An odd number of quotes behind a quoted name that ends, and an even number with junk. -/
theorem open_name_iff_odd_five_quotes :
    let s : Scanner :=
      ⟨0, some .standby, ['"', 'a', '"', ',', '"', '"', '"'], .nothing, 0, false, none⟩
    let hosts := List.replicate 8 Host.initial
    (s.returned .initial hosts).map Token.kind =
        [.standby .name, .standby .comma, .standby .junk, .standby .endOfInput,
          .standby .endOfInput, .standby .endOfInput, .standby .endOfInput,
          .standby .endOfInput] ∧
      ((s.afterPulls .initial hosts).error.isSome = true ↔ Odd (s.source.count '"')) ∧
      (s.afterPulls .initial hosts).error.map Diagnostic.message =
        some "unterminated quoted identifier at end of input" := by
  intro s hosts
  have hs : ∀ h ∈ hosts, h.memory.Serves s.allocator := by
    intro h hh
    rw [List.eq_of_mem_replicate hh]
    exact trivial
  obtain ⟨hlong, hend⟩ := open_name_iff_odd (s := s) rfl hs
  obtain ⟨hiff, hodd, -⟩ := hend (hlong (by decide))
  exact ⟨by decide +kernel, hiff, (hodd (by decide)).1⟩

end Scanner

end MiniLex
