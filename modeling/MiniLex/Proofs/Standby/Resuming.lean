import MiniLex.Proofs.Scan.Refused
import MiniLex.Proofs.Scan.Runs
import MiniLex.Proofs.Standby.Listing

/-!
# Standby scans that go on after a failure

A standby scan goes on from wherever a failed pull left its cursor. It then
reads what the rules give there, whatever has been refused before
(`reads_of_mem_returned`). If nothing but copies was refused, that is at the end
of a token always, so a failure loses its token and nothing else:
`returned_of_refused_copies`. What else is refused may leave the cursor inside a
quoted name, the rest of which is then read as a list: `returned_inside_name`.
-/

namespace MiniLex

/-- The token that a pull returns, if it returns one. -/
def Outcome.token? (o : Outcome) : Option Token := o.answer.toOption

namespace Scanner

open Standby

variable {s : Scanner} {p : Progress} {h : Host} {tokens : List Token}

/-- The tokens that pulls return, one after the other, each of which finds one of these hosts. -/
def returned (s : Scanner) (p : Progress) (hosts : List Host) : List Token :=
  (s.pulls p hosts).filterMap Outcome.token?

theorem returned_cons (s : Scanner) (p : Progress) (h : Host) (hosts : List Host) :
    let o := Outcome.ofResult (s.pull ⟨p, h⟩)
    s.returned p (h :: hosts) = o.token?.toList ++ s.returned o.progress hosts := by
  intro o
  have hpulls : s.returned p (h :: hosts) =
    (o :: s.pulls o.progress hosts).filterMap Outcome.token? := rfl
  rw [hpulls, List.filterMap_cons, returned]
  cases o.token? <;> rfl

/-- Every token that is returned is the one that the rules give where it stands. -/
theorem reads_of_mem_returned (hl : s.rules = some .standby) (hosts : List Host)
    (ho : p.closed = false) (hp : p.pos ≤ s.source.length) :
    ∀ t ∈ s.returned p hosts, Reads s.source t.start t := by
  induction hosts generalizing p with
  | nil => nofun
  | cons h hosts ih =>
    rw [returned_cons]
    obtain ⟨start, token, q, hout, hq⟩ := exists_advances hl ho hp
    obtain ⟨rfl, hin⟩ := hq.reads.standsIn
    cases hr : s.pull ⟨p, h⟩ with
    | ok t m =>
      rw [pull_ok hr] at hout
      cases hout
      have hpos : m.progress.pos ≤ s.source.length := hq.pos ▸ hin.stop_le
      have hrest := ih (hq.closed.trans ho) hpos
      exact List.forall_mem_cons.mpr ⟨hq.reads, hrest⟩
    | error e m =>
      obtain ⟨t, q', hout', hm⟩ := pull_standby_error hl ho hr
      rw [hout] at hout'
      cases hout'
      exact ih (hm.closed.trans ho) (Nat.le_trans hm.le_stop hin.stop_le)

/-! ## Copies are refused -/

/-- A pull that fails for nothing but a refused copy loses its token at most. The scan goes on with
the tokens behind it; behind the end token that is the end token again. -/
theorem exists_lists_of_pull (hl : s.rules = some .standby) (ho : p.closed = false)
    (hlists : Lists s.source p.pos tokens) (h : Host) :
    let o := Outcome.ofResult (s.pull ⟨p, h⟩)
    (∀ e, o.answer = .error e → e = .allocation (.refused .clone)) →
      ∃ t later, (o.token? = some t ∨ o.token? = none) ∧
        Lists s.source o.progress.pos later ∧ o.progress.closed = false ∧
        (t.kind.isEnd = true ∧ tokens = [t] ∧ later = [t] ∨
          t.kind.isEnd = false ∧ tokens = t :: later) := by
  intro o hrefused
  obtain ⟨t, q, rest, hout, hq, hmem, hrest⟩ := exists_outcome_of_lists hl ho hlists
  have hread := hlists.reads t hmem
  have hleft : (o.token? = some t ∨ o.token? = none) ∧ o.progress.pos = t.stop ∧
      o.progress.closed = false := by
    cases hr : s.pull ⟨p, h⟩ with
    | ok t' m =>
      obtain ⟨ht, hm⟩ := Outcome.mk.inj (hout.symm.trans (pull_ok hr))
      obtain rfl := Except.ok.inj ht
      have ho' : o = ⟨.ok t, m.progress⟩ := by simp only [o, hr]; rfl
      rw [ho', ← hm]
      exact ⟨.inl rfl, hq.pos, hq.closed.trans ho⟩
    | error e m =>
      have ho' : o = ⟨.error e, m.progress⟩ := by simp only [o, hr]; rfl
      obtain ⟨t', q', hout', hm⟩ := pull_standby_error hl ho hr
      obtain ⟨ht, -⟩ := Outcome.mk.inj (hout.symm.trans hout')
      obtain rfl := Except.ok.inj ht
      have he := hrefused e (by rw [ho'])
      rw [ho']
      exact ⟨.inr rfl, hm.behind he, hm.closed.trans ho⟩
  obtain ⟨htoken, hpos, hclosed⟩ := hleft
  rw [hpos]
  rcases hrest with ⟨hk, rfl⟩ | ⟨hk, rfl, hrest⟩
  · exact ⟨t, [t], htoken, Lists.of_isEnd hread hk, hclosed, .inl ⟨hk, rfl, rfl⟩⟩
  · exact ⟨t, rest, htoken, hrest, hclosed, .inr ⟨hk, rfl⟩⟩

theorem returned_of_lists (hl : s.rules = some .standby) (hosts : List Host)
    (ho : p.closed = false) (hlists : Lists s.source p.pos tokens)
    (hrefused : ∀ o ∈ s.pulls p hosts, ∀ e, o.answer = .error e →
      e = .allocation (.refused .clone)) :
    (∀ t ∈ s.returned p hosts, t ∈ tokens) ∧
      ((s.returned p hosts).filter fun t => !t.kind.isEnd).Sublist tokens := by
  induction hosts generalizing p tokens with
  | nil => exact ⟨nofun, List.nil_sublist _⟩
  | cons h hosts ih =>
    obtain ⟨hhead, htail⟩ := List.forall_mem_cons.mp hrefused
    obtain ⟨t, later, htoken, hlater, hclosed, htokens⟩ := exists_lists_of_pull hl ho hlists h hhead
    obtain ⟨hmem, hsub⟩ := ih hclosed hlater htail
    rw [returned_cons]
    rcases htokens with ⟨hk, rfl, rfl⟩ | ⟨hk, rfl⟩ <;> rcases htoken with ht | ht <;>
      simp only [ht, Option.toList_some, Option.toList_none, List.nil_append, List.singleton_append,
        List.filter_cons, hk, Bool.not_true, Bool.not_false, Bool.false_eq_true, ↓reduceIte]
    -- The end token is returned, or lost; then another one is.
    · exact ⟨List.forall_mem_cons.mpr ⟨List.mem_singleton_self t, hmem⟩, hsub⟩
    · exact ⟨hmem, hsub⟩
    · refine ⟨List.forall_mem_cons.mpr ⟨List.mem_cons_self, fun u hu => ?_⟩, hsub.cons_cons t⟩
      exact List.mem_cons_of_mem t (hmem u hu)
    · exact ⟨fun u hu => List.mem_cons_of_mem t (hmem u hu), hsub.cons t⟩

/-- In a run of pulls of which some are refused a copy, and none fails otherwise, every token that
is returned is one that the scan collects where nothing is refused. They are returned in the same
order, and each once, but for the end token. -/
theorem returned_of_refused_copies (hl : s.rules = some .standby)
    (hs : h.memory.Serves s.allocator) (hosts : List Host)
    (hrefused : ∀ o ∈ s.pulls .initial hosts, ∀ e, o.answer = .error e →
      e = .allocation (.refused .clone)) :
    ∃ tokens m, s.collect ⟨.initial, h⟩ = .ok tokens m ∧
      (∀ t ∈ s.returned .initial hosts, t ∈ tokens) ∧
      ((s.returned .initial hosts).filter fun t => !t.kind.isEnd).Sublist tokens := by
  obtain ⟨tokens, hlists⟩ := exists_lists (Nat.zero_le s.source.length)
  obtain ⟨m, hm, -⟩ := collect_lists hl hlists hs
  exact ⟨tokens, m, hm, returned_of_lists (p := .initial) hl hosts rfl hlists hrefused⟩

/-- A quoted name and a bare one, of which the copy of the first is refused. -/
theorem returned_behind_lost_name :
    let s : Scanner := ⟨0, some .standby, ['"', 'a', '"', 'b'], .nothing, 1, false, none⟩
    let refusing : Host :=
      ⟨⟨[.heap, .recorder (.fresh fun _ call => call.method = .clone)], []⟩, [], []⟩
    let granting : Host := ⟨⟨[.heap, .recorder (.fresh fun _ _ => false)], []⟩, [], []⟩
    let hosts := [refusing, granting]
    s.returned .initial hosts = [⟨.standby .name, some ['b'], 3, 4, none⟩] ∧
      ∃ tokens m, s.collect ⟨.initial, granting⟩ = .ok tokens m ∧
        (∀ t ∈ s.returned .initial hosts, t ∈ tokens) ∧
        ((s.returned .initial hosts).filter fun t => !t.kind.isEnd).Sublist tokens := by
  intro s refusing granting hosts
  have hanswers : (s.pulls .initial hosts).map Outcome.answer =
      [.error (.allocation (.refused .clone)), .ok ⟨.standby .name, some ['b'], 3, 4, none⟩] := by
    decide +kernel
  have hserves : granting.memory.Serves s.allocator := fun _ _ => rfl
  refine ⟨by decide +kernel, returned_of_refused_copies rfl hserves hosts fun o ho e he => ?_⟩
  have hmem := List.mem_map_of_mem (f := Outcome.answer) ho
  rw [hanswers, he] at hmem
  simpa using hmem

/-- Once the buffer for a quoted name is refused, what stands inside the name is returned as a bare
name. No such token is collected where nothing is refused. -/
theorem returned_inside_name :
    let s : Scanner := ⟨0, some .standby, ['"', 'a', '"'], .nothing, 1, false, none⟩
    let refusing : Host :=
      ⟨⟨[.heap, .recorder (.fresh fun before _ => before.isEmpty)], []⟩, [], []⟩
    let granting : Host := ⟨⟨[.heap, .recorder (.fresh fun _ _ => false)], []⟩, [], []⟩
    let inside : Token := ⟨.standby .name, some ['a'], 1, 2, none⟩
    (∃ m m', s.pull ⟨.initial, refusing⟩ = .error (.allocation (.refused .allocate)) m ∧
        s.pull m = .ok inside m') ∧
      ∃ tokens m, s.collect ⟨.initial, granting⟩ = .ok tokens m ∧ inside ∉ tokens := by
  intro s refusing granting inside
  exact ⟨⟨_, _, rfl, rfl⟩, _, _, rfl, by decide⟩

end Scanner

end MiniLex
