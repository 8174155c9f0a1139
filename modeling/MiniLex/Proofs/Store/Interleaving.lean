import Mathlib.Algebra.BigOperators.Group.Finset.Piecewise
import MiniLex.Proofs.Scan.Demand
import MiniLex.Proofs.Store.Tokenize

/-!
# Interleaved scans

Scans of a program take turns: each turn demands something of one of them
(`Turn`). Scans that share an allocator that never fails (`Family`) do not see
each other, whatever the order of their turns. A turn has the effect that its
scan determines, and concerns no other scan (`Family.turn`), so what a scan
answers and becomes over all turns follows from its own turns (`Family.run`).
They are those of the same scan in a store of its own (`turns_independent`), and
a common arena has counted the sum of what it counts for each scan alone.
-/

namespace MiniLex

open Memory (Counts)

/-- Something is demanded of a scan. -/
abbrev Turn := ScanId × Demand

/-- What concerns one scan, in order. -/
def ofScan {α : Type} (i : ScanId) (xs : List (ScanId × α)) : List α :=
  xs.filterMap fun x => if x.1 = i then some x.2 else none

/-- The turns of a scan that is alone. -/
def turnsOf (i : ScanId) (ds : List Demand) : List Turn := ds.map (i, ·)

section OfScan

variable {α : Type} {i j : ScanId}

theorem ofScan_cons_self (i : ScanId) (x : α) (xs : List (ScanId × α)) :
    ofScan i ((i, x) :: xs) = x :: ofScan i xs := by
  simp [ofScan]

theorem ofScan_cons_of_ne (h : j ≠ i) (x : α) (xs : List (ScanId × α)) :
    ofScan i ((j, x) :: xs) = ofScan i xs := by
  simp [ofScan, h]

theorem ofScan_turnsOf (i : ScanId) (ds : List Demand) : ofScan i (turnsOf i ds) = ds := by
  simp [ofScan, turnsOf, List.filterMap_map]

end OfScan

namespace Store

variable {st st' : Store} {i j : ScanId} {d : Demand} {a : AllocatorId}
  {family : Finset ScanId} {ts : List Turn}

/-! ## Turns -/

/-- A scan does what is demanded of it. A failure is its answer; the program goes on. -/
def turn (st : Store) (t : Turn) : Except Failure Answer × Store :=
  match onScan t.1 t.2.act st with
  | .ok answer st' => (.ok answer, st')
  | .error failure st' => (.error failure, st')

/-- What is answered in each turn, and by which scan. -/
def answers (st : Store) : List Turn → List (ScanId × Except Failure Answer)
  | [] => []
  | t :: ts => (t.1, (st.turn t).1) :: answers (st.turn t).2 ts

/-- The store after all turns. -/
def afterTurns (st : Store) : List Turn → Store
  | [] => st
  | t :: ts => afterTurns (st.turn t).2 ts

/-- The counters of the allocator of a scan. -/
def usage (st : Store) (i : ScanId) : Usage :=
  st.host.memory.usage (st.scan i).scanner.allocator

/-- What the allocator of a scan counts in these turns. -/
def counted (st : Store) (i : ScanId) (ts : List Turn) : Usage :=
  (st.afterTurns ts).usage i - st.usage i

/-- A turn has the effect that its scan determines. -/
theorem turn_run (hs : st.host.memory.Serves (st.scan i).scanner.allocator) (d : Demand) :
    let e := (st.scan i).scanner.effect (st.scan i).progress d
    ∃ h', st.turn (i, d) = (e.answer, st.putMachine i ⟨e.progress, h'⟩) ∧
      h'.memory.Serves (st.scan i).scanner.allocator ∧
      Counts (st.scan i).scanner.allocator e.usage st.host.memory h'.memory := by
  intro e
  obtain ⟨h', hr, hs', hcounts⟩ := Scanner.act_run hs (st.scan i).progress d
  refine ⟨h', ?_, hs', hcounts⟩
  rw [Effect.on] at hr
  cases ha : ((st.scan i).scanner.effect (st.scan i).progress d).answer with
  | ok answer =>
    rw [ha] at hr
    simp only [turn, onScan_run hr, e]
  | error failure =>
    rw [ha] at hr
    simp only [turn, onScan_error hr, e]

/-! ## Families of scans -/

/-- Scans that share an allocator that never fails. -/
structure Family (st : Store) (family : Finset ScanId) (a : AllocatorId) : Prop where
  serves : st.host.memory.Serves a
  valid : ∀ i ∈ family, i < st.scans.length
  shared : ∀ i ∈ family, (st.scan i).scanner.allocator = a

/-- A turn of one of the scans leaves a family. It concerns this scan only, and the allocator counts
what the scan determines. -/
theorem Family.turn (hf : Family st family a) (hi : i ∈ family) (d : Demand) :
    let e := (st.scan i).scanner.effect (st.scan i).progress d
    (st.turn (i, d)).1 = e.answer ∧ Family (st.turn (i, d)).2 family a ∧
      (st.turn (i, d)).2.scan i = ⟨(st.scan i).scanner, e.progress⟩ ∧
      (∀ j ≠ i, (st.turn (i, d)).2.scan j = st.scan j) ∧
      Counts a e.usage st.host.memory (st.turn (i, d)).2.host.memory := by
  intro e
  have hshared := hf.shared i hi
  obtain ⟨h', hturn, hs', hcounts⟩ := turn_run (hshared ▸ hf.serves) d
  rw [hshared] at hs' hcounts
  have hself := scan_putMachine_self ⟨e.progress, h'⟩ (hf.valid i hi)
  have hother : ∀ j ≠ i, (st.putMachine i ⟨e.progress, h'⟩).scan j = st.scan j :=
    fun j hj => scan_putMachine_of_ne _ hj
  rw [hturn]
  refine ⟨rfl, ⟨hs', ?_, ?_⟩, hself, hother, hcounts⟩
  · intro j hj
    rw [length_putMachine]
    exact hf.valid j hj
  · intro j hj
    by_cases hji : j = i
    · subst hji
      rw [hself]
      exact hshared
    · rw [hother j hji]
      exact hf.shared j hj

/-- Over all turns each scan of a family answers and becomes what follows from its own turns. The
allocator counts the sum of what these determine. -/
theorem Family.run (hf : Family st family a) (ht : ∀ t ∈ ts, t.1 ∈ family) :
    (∀ i ∈ family,
      ofScan i (st.answers ts) =
        (st.scan i).scanner.answers (st.scan i).progress (ofScan i ts) ∧
      (st.afterTurns ts).scan i = ⟨(st.scan i).scanner,
        (st.scan i).scanner.after (st.scan i).progress (ofScan i ts)⟩) ∧
    Counts a (∑ i ∈ family, (st.scan i).scanner.used (st.scan i).progress (ofScan i ts))
      st.host.memory (st.afterTurns ts).host.memory := by
  induction ts generalizing st with
  | nil =>
    refine ⟨fun i _ => ⟨rfl, rfl⟩, ?_⟩
    have hnone : ∑ i ∈ family, (st.scan i).scanner.used (st.scan i).progress (ofScan i []) = 0 :=
      Finset.sum_eq_zero fun i _ => rfl
    rw [hnone]
    exact Memory.counts_of_same rfl
  | cons t ts ih =>
    obtain ⟨i, d⟩ := t
    have hi : i ∈ family := ht (i, d) List.mem_cons_self
    obtain ⟨hanswer, hf₁, hself, hother, hcounts⟩ := hf.turn hi d
    obtain ⟨hscans, hrest⟩ := ih hf₁ fun t htail => ht t (List.mem_cons_of_mem _ htail)
    refine ⟨fun j hj => ?_, ?_⟩
    · obtain ⟨hanswers, hafter⟩ := hscans j hj
      rw [answers, afterTurns]
      by_cases hji : j = i
      · subst hji
        rw [hself] at hanswers hafter
        rw [ofScan_cons_self, ofScan_cons_self, hanswer, hanswers, hafter]
        exact ⟨rfl, rfl⟩
      · rw [hother j hji] at hanswers hafter
        have hij : i ≠ j := fun h => hji h.symm
        rw [ofScan_cons_of_ne hij, ofScan_cons_of_ne hij, hanswers, hafter]
        exact ⟨rfl, rfl⟩
    · -- The turn adds to what its own scan counts; the other summands are as they were.
      have hsum : ∀ j ∈ family,
          (st.scan j).scanner.used (st.scan j).progress (ofScan j ((i, d) :: ts)) =
            (if j = i then ((st.scan i).scanner.effect (st.scan i).progress d).usage else 0) +
            ((st.turn (i, d)).2.scan j).scanner.used ((st.turn (i, d)).2.scan j).progress
              (ofScan j ts) := by
        intro j _
        by_cases hji : j = i
        · subst hji
          rw [if_pos rfl, ofScan_cons_self, hself]
          rfl
        · rw [if_neg hji, ofScan_cons_of_ne fun h => hji h.symm, hother j hji, zero_add]
      rw [Finset.sum_congr rfl hsum, Finset.sum_add_distrib, Finset.sum_ite_eq', if_pos hi]
      exact hcounts.trans hrest

/-! ## Scans that are alone -/

/-- A scan that reads as another one does, in a store whose allocators are its own. -/
structure Twin (st : Store) (i : ScanId) (st' : Store) (j : ScanId) : Prop where
  valid : j < st'.scans.length
  alike : (st'.scan j).scanner.Alike (st.scan i).scanner
  progress : (st'.scan j).progress = (st.scan i).progress
  serves : st'.host.memory.Serves (st'.scan j).scanner.allocator

/-- The allocator of a scan is an arena. -/
def OverArena (st : Store) (i : ScanId) : Prop :=
  ∃ x, st.host.memory.allocator (st.scan i).scanner.allocator = .arena x

/-- A scan that is alone answers and becomes what the other one would, and uses as much. -/
theorem Twin.run (h : Twin st i st' j) (ds : List Demand) :
    ofScan j (st'.answers (turnsOf j ds)) =
      (st.scan i).scanner.answers (st.scan i).progress ds ∧
    ((st'.afterTurns (turnsOf j ds)).scan j).progress =
      (st.scan i).scanner.after (st.scan i).progress ds ∧
    (st'.OverArena j → st'.counted j (turnsOf j ds) =
      (st.scan i).scanner.used (st.scan i).progress ds) := by
  have hf : Family st' {j} (st'.scan j).scanner.allocator :=
    ⟨h.serves, by simpa using h.valid, by simp⟩
  have hturns : ∀ t ∈ turnsOf j ds, t.1 ∈ ({j} : Finset ScanId) := by simp [turnsOf]
  obtain ⟨hscan, hcounts⟩ := hf.run hturns
  obtain ⟨hanswers, hafter⟩ := hscan j (Finset.mem_singleton_self j)
  rw [ofScan_turnsOf, h.progress] at hanswers hafter
  rw [Finset.sum_singleton, ofScan_turnsOf, h.progress, h.alike.used_eq] at hcounts
  refine ⟨hanswers.trans (h.alike.answers_eq _ _), ?_, fun ⟨x, hx⟩ => ?_⟩
  · rw [hafter]
    exact h.alike.after_eq _ _
  · rw [counted, usage, usage, hafter]
    exact hcounts.usage_sub hx

/-- Scans that share an allocator that never fails do not see each other. Whatever the order of
their turns, each answers what it would answer in a store of its own, and is left as it would be
there; a common arena has counted the sum of what arenas count for each scan alone. -/
theorem turns_independent {alone : ScanId → Store} {place : ScanId → ScanId}
    (hf : Family st family a) (ht : ∀ t ∈ ts, t.1 ∈ family)
    (ha : ∀ i ∈ family, Twin st i (alone i) (place i)) :
    (∀ i ∈ family,
      ofScan i (st.answers ts) =
        ofScan (place i) ((alone i).answers (turnsOf (place i) (ofScan i ts))) ∧
      ((st.afterTurns ts).scan i).progress =
        (((alone i).afterTurns (turnsOf (place i) (ofScan i ts))).scan (place i)).progress ∧
      ((st.afterTurns ts).scan i).scanner = (st.scan i).scanner) ∧
    ((∀ i ∈ family, (alone i).OverArena (place i)) →
      Counts a (∑ i ∈ family, (alone i).counted (place i) (turnsOf (place i) (ofScan i ts)))
        st.host.memory (st.afterTurns ts).host.memory) := by
  obtain ⟨hscans, hcounts⟩ := hf.run ht
  refine ⟨fun i hi => ?_, fun harena => ?_⟩
  · obtain ⟨hanswers, hafter⟩ := hscans i hi
    obtain ⟨hanswers', hafter', -⟩ := (ha i hi).run (ofScan i ts)
    rw [hafter]
    exact ⟨hanswers.trans hanswers'.symm, hafter'.symm, rfl⟩
  · have hsum : ∀ i ∈ family,
        (alone i).counted (place i) (turnsOf (place i) (ofScan i ts)) =
          (st.scan i).scanner.used (st.scan i).progress (ofScan i ts) :=
      fun i hi => ((ha i hi).run (ofScan i ts)).2.2 (harena i hi)
    rw [Finset.sum_congr rfl hsum]
    exact hcounts

/-- Scans of these texts that have been started over one new arena, which is allocator 1. -/
def startedOnArena (texts : List (Language × Text)) : Store :=
  texts.foldl (fun st x => leftBy (start .initial (some x.1) ⟨x.2, some 1, .nothing⟩) st)
    ⟨[], [], ⟨⟨[.heap, .arena (.fresh Arena.defaultName)], []⟩, [], []⟩⟩

/-- A quoted name and a bootstrap text that are read in turns over one arena. The second turn of the
bootstrap scan is refused. -/
theorem turns_independent_two_languages :
    let st := startedOnArena [(.standby, ['"', 'a', '"']), (.bootstrap, ['b', '\n', '+'])]
    let ts := [(0, .pull), (1, .pull), (0, .recordError "e"), (1, .pull), (0, .close), (1, .close)]
    ofScan 0 (st.answers ts) =
      [.ok (.token ⟨.standby .name, some ['a'], 0, 3, none⟩), .ok (.kept true), .ok .closed] ∧
    ofScan 1 (st.answers ts) =
      [.ok (.token ⟨.bootstrap .ident, some ['b'], 0, 1, some 1⟩),
        .error (.illegalCharacter 2 '+' .nothing), .ok .closed] ∧
    ∃ x, (st.afterTurns ts).host.memory.allocator 1 = .arena x ∧ x.usage = (64, 2, 2) := by
  intro st ts
  let alone : ScanId → Store
    | 0 => startedOnArena [(.standby, ['"', 'a', '"'])]
    | _ => startedOnArena [(.bootstrap, ['b', '\n', '+'])]
  have hf : Family st {0, 1} 1 := ⟨rfl, by decide, by decide⟩
  have ht : ∀ t ∈ ts, t.1 ∈ ({0, 1} : Finset ScanId) := by decide
  have ha : ∀ i ∈ ({0, 1} : Finset ScanId), Twin st i (alone i) 0 ∧ (alone i).OverArena 0 := by
    intro i hi
    obtain rfl | rfl : i = 0 ∨ i = 1 := by simpa using hi
    · exact ⟨⟨by decide, ⟨rfl, rfl, rfl⟩, rfl, rfl⟩, _, rfl⟩
    · exact ⟨⟨by decide, ⟨rfl, rfl, rfl⟩, rfl, rfl⟩, _, rfl⟩
  obtain ⟨hscans, hcounts⟩ := turns_independent hf ht fun i hi => (ha i hi).1
  refine ⟨?_, ?_, ?_⟩
  · have halone : ofScan 0 ((startedOnArena [(.standby, ['"', 'a', '"'])]).answers
        (turnsOf 0 [.pull, .recordError "e", .close])) =
        [.ok (.token ⟨.standby .name, some ['a'], 0, 3, none⟩), .ok (.kept true), .ok .closed] :=
      rfl
    exact (hscans 0 (by decide)).1.trans halone
  · have halone : ofScan 0 ((startedOnArena [(.bootstrap, ['b', '\n', '+'])]).answers
        (turnsOf 0 [.pull, .pull, .close])) =
        [.ok (.token ⟨.bootstrap .ident, some ['b'], 0, 1, some 1⟩),
          .error (.illegalCharacter 2 '+' .nothing), .ok .closed] := rfl
    exact (hscans 1 (by decide)).1.trans halone
  · have hquoted : (startedOnArena [(.standby, ['"', 'a', '"'])]).counted 0
        (turnsOf 0 [.pull, .recordError "e", .close]) = (64, 1, 1) := by decide +kernel
    have hbootstrap : (startedOnArena [(.bootstrap, ['b', '\n', '+'])]).counted 0
        (turnsOf 0 [.pull, .pull, .close]) = (0, 1, 1) := by decide +kernel
    have hsum : ∀ f : ScanId → Usage, f 0 = (64, 1, 1) → f 1 = (0, 1, 1) →
        ∑ i ∈ {0, 1}, f i = (64, 2, 2) := by
      intro f h₀ h₁
      rw [Finset.sum_pair Nat.zero_ne_one, h₀, h₁]
      rfl
    obtain ⟨x, hx, husage⟩ := hcounts (fun i hi => (ha i hi).2) _ rfl
    rw [hsum _ hquoted hbootstrap] at husage
    exact ⟨x, hx, husage⟩

end Store

end MiniLex
