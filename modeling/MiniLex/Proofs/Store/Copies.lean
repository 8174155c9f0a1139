import Mathlib.Algebra.BigOperators.Pi
import Mathlib.Algebra.BigOperators.Ring.Finset
import MiniLex.Proofs.Scan.Copies
import MiniLex.Proofs.Store.Interleaving

/-!
# Copies over one arena

Scans that take turns over one arena have it copy the values of the tokens that
they return, and nothing else (`copies_exact`): each scan counts what its answers
show, and the arena counts the sum, whatever the order of the turns.
-/

namespace MiniLex.Store

variable {st : Store} {a : AllocatorId} {x : Arena} {family : Finset ScanId} {ts : List Turn}

theorem sum_copyCounts (family : Finset ScanId) (copied : ScanId → List Token) :
    ∑ i ∈ family, copyCounts (copied i) =
      (((∑ i ∈ family, valueLengths (copied i) : Nat) : Int),
        ((∑ i ∈ family, (copied i).length : Nat) : Int)) := by
  refine Prod.ext ?_ ?_
  · dsimp only
    rw [Prod.fst_sum, Nat.cast_sum]
    rfl
  · dsimp only
    rw [Prod.snd_sum, Nat.cast_sum]
    rfl

/-- Over all turns the texts and the characters that the arena has copied grow by the values of the
tokens that are returned and have their values copied, and by no others. So no scan has more
characters copied than its source has from the cursor on. -/
theorem copies_exact (hf : Family st family a) (ht : ∀ t ∈ ts, t.1 ∈ family)
    (hx : st.host.memory.allocator a = .arena x) :
    let copied := fun i => copiedTokens (st.scan i).scanner.source (ofScan i (st.answers ts))
    (∃ y, (st.afterTurns ts).host.memory.allocator a = .arena y ∧
      y.payloadsCloned = x.payloadsCloned + ∑ i ∈ family, (copied i).length ∧
      y.charsCloned = x.charsCloned + ∑ i ∈ family, valueLengths (copied i)) ∧
    ∀ i ∈ family, (∀ t ∈ copied i, t.value.isSome = true) ∧
      ((st.scan i).progress.pos ≤ (st.scan i).scanner.source.length →
        (st.scan i).progress.pos + valueLengths (copied i) ≤
          (st.scan i).scanner.source.length) := by
  intro copied
  obtain ⟨hscans, hcounts⟩ := hf.run ht
  have hcopied : ∀ i ∈ family, copied i = copiedTokens (st.scan i).scanner.source
      ((st.scan i).scanner.answers (st.scan i).progress (ofScan i ts)) := by
    intro i hi
    rw [← (hscans i hi).1]
  constructor
  · obtain ⟨y, hy, husage⟩ := hcounts x hx
    have hsum : (∑ i ∈ family,
        (st.scan i).scanner.used (st.scan i).progress (ofScan i ts)).2 =
          ∑ i ∈ family, copyCounts (copied i) := by
      rw [Prod.snd_sum]
      refine Finset.sum_congr rfl fun i hi => ?_
      rw [hcopied i hi, Scanner.used_eq_copied]
    have hboth := congrArg Prod.snd husage
    rw [Prod.snd_add, hsum, sum_copyCounts] at hboth
    obtain ⟨hchars, hpayloads⟩ := Prod.mk.inj hboth
    exact ⟨y, hy, Int.ofNat.inj hpayloads, Int.ofNat.inj hchars⟩
  · intro i hi
    rw [hcopied i hi]
    exact ⟨Scanner.isSome_of_mem_copiedTokens _ _ _,
      fun hp => Scanner.valueLengths_answers_le hp _⟩

/-- The wildcard is copied where it is quoted and not where it stands alone; a word is copied, and
a character that is refused is not. -/
theorem copies_exact_wildcards :
    let st := startedOnArena
      [(.standby, ['"', '*', '"', '*', '"']), (.bootstrap, ['b', 'c', ' ', '+'])]
    let ts := [(0, .pull), (1, .pull), (0, .pull), (1, .pull), (0, .pull)]
    ofScan 0 (st.answers ts) =
      [.ok (.token ⟨.standby .name, some ['*'], 0, 3, none⟩),
        .ok (.token ⟨.standby .name, some ['*'], 3, 4, none⟩),
        .ok (.token ⟨.standby .junk, none, 4, 5, none⟩)] ∧
    ofScan 1 (st.answers ts) =
      [.ok (.token ⟨.bootstrap .ident, some ['b', 'c'], 0, 2, some 1⟩),
        .error (.illegalCharacter 1 '+' .nothing)] ∧
    ∃ y, (st.afterTurns ts).host.memory.allocator 1 = .arena y ∧ y.payloadsCloned = 2 ∧
      y.charsCloned = 3 := by
  intro st ts
  have hf : Family st {0, 1} 1 := ⟨rfl, by decide, by decide⟩
  have ht : ∀ t ∈ ts, t.1 ∈ ({0, 1} : Finset ScanId) := by decide
  obtain ⟨x, hx, hnone⟩ : ∃ x, st.host.memory.allocator 1 = .arena x ∧
    x.payloadsCloned = 0 ∧ x.charsCloned = 0 := ⟨_, rfl, rfl, rfl⟩
  obtain ⟨⟨y, hy, hpayloads, hchars⟩, -⟩ := copies_exact hf ht hx
  have h₀ : ofScan 0 (st.answers ts) =
      [.ok (.token ⟨.standby .name, some ['*'], 0, 3, none⟩),
        .ok (.token ⟨.standby .name, some ['*'], 3, 4, none⟩),
        .ok (.token ⟨.standby .junk, none, 4, 5, none⟩)] := by
    decide +kernel
  have h₁ : ofScan 1 (st.answers ts) =
      [.ok (.token ⟨.bootstrap .ident, some ['b', 'c'], 0, 2, some 1⟩),
        .error (.illegalCharacter 1 '+' .nothing)] := by
    decide +kernel
  rw [Finset.sum_pair Nat.zero_ne_one] at hpayloads hchars
  dsimp only at hpayloads hchars
  rw [h₀, h₁] at hpayloads hchars
  refine ⟨h₀, h₁, y, hy, ?_, ?_⟩
  · rw [hpayloads, hnone.1]
    decide +kernel
  · rw [hchars, hnone.2]
    decide +kernel

end MiniLex.Store
