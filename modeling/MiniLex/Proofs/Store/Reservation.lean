import MiniLex.Proofs.Memory.Reserved
import MiniLex.Proofs.Standby.Reserving
import MiniLex.Proofs.Store.Interleaving
import MiniLex.Proofs.Store.Steps

/-!
# What programs reserve

As long as the buffers of an arena are handed out by it and grow by appending
only, it has at any time counted the sum of their capacities, whatever else a
program does and whatever fails (`accounted_after`). A standby scan over an open
arena adds what the quoted names of its source need, whether its tokens are
collected or pulled one by one: `charsReserved_eq_sum`.
-/

namespace MiniLex

open Memory (Accounted Counts)

namespace Store

variable {st st' : Store} {a : AllocatorId} {x : Arena} {ops : List Operation} {e : Ambient}
  {l : Language} {r : Request} {tokens : List Token}

/-! ## All that a program does -/

/-- An operation is about what there is. It does not ask this allocator to let a buffer grow without
appending to it, and makes no buffer that this allocator does not know of. -/
def GrowsByAppending (a : AllocatorId) (st : Store) (op : Operation) : Prop :=
  op.Known st ∧ (∀ b needed, op ≠ .grow a b needed) ∧ ∀ capacity, op ≠ .newBuffer a capacity

theorem invariant_accounted (a : AllocatorId) :
    Invariant (fun _ _ => True) (· ≠ a) fun _ m => Accounted a m where
  permits _ _ _ := trivial
  step hstep h := h.step (fun hne => hne rfl) hstep
  shut {_ m i} a' _ h := by
    have hsteps : Relation.ReflTransGen (Memory.Step (fun _ _ => True) (· ≠ a)) m
        (leftBy (Memory.releaseContext a' i) m) := Memory.steps_releaseContext trivial m
    exact Memory.of_steps (K := Accounted a)
      (fun hstep h => h.step (fun hne => hne rfl) hstep) hsteps h

theorem accounted_after (hops : Along (GrowsByAppending a) initial ops) :
    Accounted a (initial.after ops).host.memory := by
  have hallowed := hops.mono (Q := Operation.Allowed (fun _ _ => True) (· ≠ a)) fun st op hop => {
    known := hop.1
    letsGo := fun _ _ _ => trivial
    grows := fun _ b needed hg ha => hop.2.1 b needed (ha ▸ hg)
    adds := fun _ capacity hb ha => hop.2.2 capacity (ha ▸ hb) }
  refine ((invariant_accounted a).after ⟨nofun, fun x hx => ?_⟩ hallowed).2
  cases a <;> cases hx

/-! ## A scan from its start to its end -/

/-- A scan that is started counts nothing. -/
theorem start_counted (hs : st.host.memory.Serves a)
    (ha : (r.scanner e (some l) st.scans.length).allocator = a) :
    ∃ st₁, start e (some l) r st = .ok st.scans.length st₁ ∧ st₁.host.memory.Serves a ∧
      Counts a 0 st.host.memory st₁.host.memory := by
  subst ha
  obtain ⟨memory, hr, hs'⟩ := hs.acquireContext st.scans.length
  obtain ⟨st₁, hstart, -, hmemory⟩ := start_of_acquired hr
  refine ⟨st₁, hstart, ?_, ?_⟩ <;> rw [hmemory]
  · exact hs'
  · exact Memory.acquireContext_counts hr

/-- The tokens that are collected count what as many pulls would. -/
theorem tokenize_counted (hs : st.host.memory.Serves a)
    (ha : (r.scanner e (some .standby) st.scans.length).allocator = a)
    (hlists : Standby.Lists r.source 0 tokens) :
    ∃ st', tokenize e .standby r st = .ok tokens st' ∧
      Counts a ((r.scanner e (some .standby) st.scans.length).used .initial
        (List.replicate tokens.length .pull)) st.host.memory st'.host.memory := by
  obtain ⟨st₁, hstart, hs₁, hcounts₁⟩ := start_counted hs ha
  obtain ⟨-, hscan, hi⟩ := start_ok hstart
  subst ha
  generalize hscanner : r.scanner e (some .standby) st.scans.length = s at *
  have hrules : s.rules = some .standby := by rw [← hscanner]; rfl
  have hsource : Standby.Lists s.source 0 tokens := by rw [← hscanner]; exact hlists
  obtain ⟨m, hm, -⟩ := Scanner.collect_lists hrules hsource hs₁
  obtain ⟨m', hsm, hm'⟩ := Scanner.collectUpTo_run (p := .initial) (h := st₁.host)
    (s.source.length + 1) hrules rfl (Nat.zero_le _) hs₁
  obtain rfl : m = m' := by
    rw [Scanner.collect] at hm
    rcases hm' with ⟨_, hm'⟩ | ⟨hboot, -⟩
    · rw [hm] at hm'
      cases hm'
      rfl
    · cases hboot
  obtain ⟨-, hcounts₂⟩ := Scanner.collectUpTo_pulls hm
  obtain ⟨h', hclose, -, hcounts₃⟩ := Scanner.close_run hsm m.progress
  have hcollect : onScan st.scans.length Scanner.collect st₁ =
      .ok tokens (st₁.putMachine st.scans.length m) := by
    refine onScan_run ?_
    rw [hscan]
    exact hm
  have hclosed : onScan st.scans.length Scanner.close (st₁.putMachine st.scans.length m) =
      .ok () ((st₁.putMachine st.scans.length m).putMachine st.scans.length
        ⟨m.progress.shut, h'⟩) := by
    refine onScan_run ?_
    rw [scan_putMachine_self m hi, hscan]
    exact hclose
  refine ⟨_, (run_bind_ok hstart).trans (run_tryFinally_ok hcollect hclosed), ?_⟩
  have htotal := (hcounts₁.trans hcounts₂).trans hcounts₃
  rwa [zero_add, add_zero] at htotal

/-- Pulled one by one, a scan that has been started answers with these tokens, and counts the same. -/
theorem pulls_counted (hs : st.host.memory.Serves a)
    (ha : (r.scanner e (some .standby) st.scans.length).allocator = a)
    (hlists : Standby.Lists r.source 0 tokens) :
    let turns := turnsOf st.scans.length (List.replicate tokens.length .pull)
    ∃ st₁, start e (some .standby) r st = .ok st.scans.length st₁ ∧
      ofScan st.scans.length (st₁.answers turns) = tokens.map (fun t => .ok (.token t)) ∧
      Counts a ((r.scanner e (some .standby) st.scans.length).used .initial
        (List.replicate tokens.length .pull)) st.host.memory
        (st₁.afterTurns turns).host.memory := by
  intro turns
  obtain ⟨st₁, hstart, hs₁, hcounts₁⟩ := start_counted hs ha
  obtain ⟨-, hscan, hi⟩ := start_ok hstart
  subst ha
  have hfamily : Family st₁ {st.scans.length}
      (r.scanner e (some .standby) st.scans.length).allocator :=
    ⟨hs₁, by simpa using hi, by simp [hscan]⟩
  have hturns : ∀ t ∈ turns, t.1 ∈ ({st.scans.length} : Finset ScanId) := by
    simp [turns, turnsOf]
  obtain ⟨hscans, hcounts₂⟩ := hfamily.run hturns
  obtain ⟨hanswers, -⟩ := hscans _ (Finset.mem_singleton_self _)
  rw [ofScan_turnsOf, hscan] at hanswers
  rw [Finset.sum_singleton, ofScan_turnsOf, hscan] at hcounts₂
  have htotal := hcounts₁.trans hcounts₂
  rw [zero_add] at htotal
  refine ⟨st₁, hstart, ?_, htotal⟩
  obtain ⟨m, hm, -⟩ := Scanner.collect_lists rfl hlists hs₁
  rw [hanswers]
  exact (Scanner.collectUpTo_pulls hm).1

/-- At any time an arena has counted as reserved the capacities of all buffers that it has handed
out, those given back included, if they grow by appending only. What else the program does, and what
of it fails, does not matter. While the arena is open, all tokens of a standby list, collected or
pulled one by one, add to this the least doubling of the initial capacity that covers the name, for
each of the quoted names, also for one that never ends. -/
theorem charsReserved_eq_sum (hops : Along (GrowsByAppending a) initial ops)
    (ha : (initial.after ops).host.memory.allocator a = .arena x) :
    let st := initial.after ops
    x.charsReserved = ((st.host.memory.buffers.filter (·.owner = a)).map Buffer.capacity).sum ∧
    ∀ e r, x.closed = false → (r.scanner e (some .standby) st.scans.length).allocator = a →
      ∃ tokens capacities, Standby.Reserves r.source tokens capacities ∧
        (∃ st' y, tokenize e .standby r st = .ok tokens st' ∧
          st'.host.memory.allocator a = .arena y ∧
          y.charsReserved = x.charsReserved + capacities.sum) ∧
        let turns := turnsOf st.scans.length (List.replicate tokens.length .pull)
        ∃ st₁ y, start e (some .standby) r st = .ok st.scans.length st₁ ∧
          ofScan st.scans.length (st₁.answers turns) = tokens.map (fun t => .ok (.token t)) ∧
          (st₁.afterTurns turns).host.memory.allocator a = .arena y ∧
          y.charsReserved = x.charsReserved + capacities.sum := by
  intro st
  have haccounted : Accounted a st.host.memory := accounted_after hops
  refine ⟨haccounted.counted x ha, fun e r hopen hallocator => ?_⟩
  have hs : st.host.memory.Serves a := by
    rw [Memory.Serves, ha]
    exact hopen
  obtain ⟨tokens, hlists⟩ : ∃ tokens, Standby.Lists r.source 0 tokens :=
    Standby.exists_lists (Nat.zero_le _)
  let s := r.scanner e (some .standby) st.scans.length
  obtain ⟨capacities, hreserves, hsum⟩ :=
    Scanner.used_of_lists (s := s) (p := .initial) rfl rfl hlists
  have hreserved : ∀ {m : Memory},
      Counts a (s.used .initial (List.replicate tokens.length .pull)) st.host.memory m →
      ∃ y, m.allocator a = .arena y ∧ y.charsReserved = x.charsReserved + capacities.sum := by
    intro m hcounts
    obtain ⟨y, hy, husage⟩ := hcounts x ha
    exact ⟨y, hy, (congrArg Prod.fst husage).trans (congrArg (x.charsReserved + ·) hsum)⟩
  refine ⟨tokens, capacities, hreserves, ?_, ?_⟩
  · obtain ⟨st', hr, hcounts⟩ := tokenize_counted hs hallocator hlists
    obtain ⟨y, hy, hyr⟩ := hreserved hcounts
    exact ⟨st', y, hr, hy, hyr⟩
  · obtain ⟨st₁, hstart, hanswers, hcounts⟩ := pulls_counted hs hallocator hlists
    obtain ⟨y, hy, hyr⟩ := hreserved hcounts
    exact ⟨st₁, y, hstart, hanswers, hy, hyr⟩

/-- A buffer of a negative capacity has grown and been given back, and refuses more text. Then two
quoted names are read, the second of which never ends. -/
theorem charsReserved_eq_sum_two_names :
    let ops : List Operation := [.newArena "scope", .allocate 1 (-3), .append 0 ['a', 'b'],
      .release 1 0, .append 0 ['c']]
    let r : Request := ⟨['"', 'a', '"', '"', '"', ' ', '"', 'b'], some 1, .nothing⟩
    let tokens : List Token := [⟨.standby .name, some ['a', '"'], 0, 5, none⟩,
      ⟨.standby .junk, none, 6, 8, none⟩, ⟨.standby .endOfInput, none, 8, 8, none⟩]
    let st := initial.after ops
    ((st.host.memory.buffers.filter (·.owner = 1)).map Buffer.capacity).sum = 2 ∧
      ∃ st' y, tokenize .initial .standby r st = .ok tokens st' ∧
        st'.host.memory.allocator 1 = .arena y ∧ y.charsReserved = 2 + (64 + 64) := by
  intro ops r tokens st
  let x : Arena := ⟨"scope", false, [], [], 2, 0, 0⟩
  have ha : st.host.memory.allocator 1 = .arena x := rfl
  have hops : Along (GrowsByAppending 1) initial ops := by
    refine ⟨⟨?_, nofun, nofun⟩, ⟨?_, nofun, nofun⟩, ⟨?_, nofun, nofun⟩, ⟨?_, nofun, nofun⟩,
      ⟨?_, nofun, nofun⟩, trivial⟩ <;> decide +kernel
  obtain ⟨hcounted, hscan⟩ := charsReserved_eq_sum hops ha
  obtain ⟨tokens', capacities, hreserves, ⟨st', y, hr, hy, hyr⟩, -⟩ := hscan .initial r rfl rfl
  obtain rfl : tokens' = tokens := by
    have hgiven : (match tokenize .initial .standby r (initial.after ops) with
        | .ok ts _ => ts
        | .error _ _ => []) = tokens := by
      decide +kernel
    rwa [hr] at hgiven
  -- Both names fit the initial capacity.
  have hfits : ∀ {p rest name c}, r.source.drop p = '"' :: rest →
      ((Doubled.Body.read '"' rest).text '"').length ≤ 64 → Standby.Opens r.source p name →
      LeastDoubling Buffer.initialCapacity name.length c → c = 64 := by
    intro p rest name c hd hle hname hc
    rw [(Standby.opens_iff hd).mp hname] at hc
    exact hc.unique (leastDoubling_self (Int.ofNat_le.mpr hle))
  have hquoted : (tokens.filter fun t => r.source[t.start]? = some '"') =
      [⟨.standby .name, some ['a', '"'], 0, 5, none⟩, ⟨.standby .junk, none, 6, 8, none⟩] := by
    decide
  rw [Standby.Reserves, hquoted] at hreserves
  obtain _ | ⟨⟨name₁, hname₁, hc₁⟩, _ | ⟨⟨name₂, hname₂, hc₂⟩, _ | _⟩⟩ := hreserves
  obtain rfl := hfits rfl (by decide) hname₁ hc₁
  obtain rfl := hfits rfl (by decide) hname₂ hc₂
  exact ⟨hcounted.symm, st', y, hr, hy, hyr⟩

end Store

end MiniLex
