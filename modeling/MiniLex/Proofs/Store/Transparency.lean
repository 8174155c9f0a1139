import MiniLex.Proofs.Memory.Books
import MiniLex.Proofs.Store.Interleaving
import MiniLex.Proofs.Store.Operation

/-!
# Allocators and observers do not show

What a scan answers, and the progress that each answer leaves, is its
`transcript`. It is the same whatever allocator the scan has, as long as that
one never fails, whether or not the scan is counted on a ledger and its tokens
are logged, and whatever else happens in between that leaves the scan as it is
(`start_transparent`): a demand has the effect that the scanner determines, and
the allocator and the observers have no part in that (`Alike.transcript_eq`).
-/

namespace MiniLex

/-- What is demanded of a scan, each time after other operations of the program. -/
abbrev Script := List (List Operation × Demand)

/-- These demands, with nothing in between. -/
def uninterrupted (ds : List Demand) : Script := ds.map ([], ·)

namespace Scanner

/-- What a scan answers to demands, one after the other, and the progress that each of them leaves,
if nothing but the scan determines it. -/
def transcript (s : Scanner) : Progress → List Demand → List (Except Failure Answer × Progress)
  | _, [] => []
  | p, d :: ds =>
    ((s.effect p d).answer, (s.effect p d).progress) :: s.transcript (s.effect p d).progress ds

theorem Alike.transcript_eq {s s' : Scanner} (h : s.Alike s') (p : Progress) (ds : List Demand) :
    s.transcript p ds = s'.transcript p ds := by
  induction ds generalizing p with
  | nil => rfl
  | cons d ds ih => rw [transcript, transcript, h.effect_eq, ih]

end Scanner

namespace Store

variable {st : Store} {i : ScanId} {script : Script}

/-- What a scan answers over a script, and the progress that each answer leaves. -/
def transcript (i : ScanId) (st : Store) : Script → List (Except Failure Answer × Progress)
  | [] => []
  | (ops, d) :: rest =>
    let (answer, st') := (st.after ops).turn (i, d)
    (answer, (st'.scan i).progress) :: transcript i st' rest

/-- Whatever a script has the program do in between leaves the scan as it is, and leaves its
allocator one that never fails; an arena is not closed then. -/
def Undisturbed (i : ScanId) (st : Store) : Script → Prop
  | [] => True
  | (ops, d) :: rest =>
    i < (st.after ops).scans.length ∧ (st.after ops).scan i = st.scan i ∧
      (st.after ops).host.memory.Serves (st.scan i).scanner.allocator ∧
      Undisturbed i ((st.after ops).turn (i, d)).2 rest

/-- A turn leaves a scan what its scanner determines, and an allocator that never fails. -/
theorem scan_turn (hi : i < st.scans.length)
    (hs : st.host.memory.Serves (st.scan i).scanner.allocator) (d : Demand) :
    let e := (st.scan i).scanner.effect (st.scan i).progress d
    (st.turn (i, d)).1 = e.answer ∧ (st.turn (i, d)).2.scan i = ⟨(st.scan i).scanner, e.progress⟩ ∧
      i < (st.turn (i, d)).2.scans.length ∧
      (st.turn (i, d)).2.host.memory.Serves (st.scan i).scanner.allocator := by
  intro e
  obtain ⟨h', hturn, hs', -⟩ := turn_run hs d
  rw [hturn]
  refine ⟨rfl, scan_putMachine_self ⟨e.progress, h'⟩ hi, ?_, hs'⟩
  rw [length_putMachine]
  exact hi

/-- A script that leaves a scan alone in between gives what the scanner determines. -/
theorem transcript_eq (h : Undisturbed i st script) :
    st.transcript i script =
      (st.scan i).scanner.transcript (st.scan i).progress (script.map Prod.snd) := by
  induction script generalizing st with
  | nil => rfl
  | cons x rest ih =>
    obtain ⟨ops, d⟩ := x
    obtain ⟨hi, hscan, hs, hrest⟩ := h
    rw [← hscan] at hs ⊢
    obtain ⟨hanswer, hself, -, -⟩ := scan_turn hi hs d
    have hlater := ih hrest
    rw [hself] at hlater
    rw [transcript, List.map_cons, Scanner.transcript]
    simp only [hanswer, hself, hlater]

theorem undisturbed_uninterrupted (ds : List Demand) (hi : i < st.scans.length)
    (hs : st.host.memory.Serves (st.scan i).scanner.allocator) :
    Undisturbed i st (uninterrupted ds) := by
  induction ds generalizing st with
  | nil => trivial
  | cons d ds ih =>
    obtain ⟨-, hself, hi', hs'⟩ := scan_turn hi hs d
    refine ⟨hi, rfl, hs, ih hi' ?_⟩
    show (st.turn (i, d)).2.host.memory.Serves ((st.turn (i, d)).2.scan i).scanner.allocator
    rwa [hself]

/-- Something else happens once, before the first demand. -/
theorem undisturbed_cons {ops : List Operation} (hi : i < (st.after ops).scans.length)
    (hscan : (st.after ops).scan i = st.scan i)
    (hs : (st.after ops).host.memory.Serves (st.scan i).scanner.allocator) (d : Demand)
    (ds : List Demand) : Undisturbed i st ((ops, d) :: uninterrupted ds) := by
  refine ⟨hi, hscan, hs, ?_⟩
  rw [← hscan] at hs
  obtain ⟨-, hself, hi', hs'⟩ := scan_turn hi hs d
  exact undisturbed_uninterrupted ds hi' (by rwa [hself])

/-- Two scans of the same source by the same rules, each started where its allocator never fails,
answer the same to the same demands, and their progress after each of them is the same. Their
allocators may be of any kind, it does not matter which ledger they are counted on, if any, or
whether their tokens are logged, and the program may do other things in between. -/
theorem start_transparent {e e' : Ambient} {rules : Option Language} {r r' : Request}
    {st st' : Store} (hsource : r.source = r'.source)
    (hname : r.sourceName.orElse e.config.sourceName = r'.sourceName.orElse e'.config.sourceName)
    (hs : st.host.memory.Serves (r.scanner e rules st.scans.length).allocator)
    (hs' : st'.host.memory.Serves (r'.scanner e' rules st'.scans.length).allocator) :
    ∃ st₁ st₁', start e rules r st = .ok st.scans.length st₁ ∧
      start e' rules r' st' = .ok st'.scans.length st₁' ∧
      (∀ ds, st₁.transcript st.scans.length (uninterrupted ds) =
        st₁'.transcript st'.scans.length (uninterrupted ds)) ∧
      ∀ script script', script.map Prod.snd = script'.map Prod.snd →
        Undisturbed st.scans.length st₁ script → Undisturbed st'.scans.length st₁' script' →
        st₁.transcript st.scans.length script = st₁'.transcript st'.scans.length script' := by
  obtain ⟨st₁, hstart, hserves⟩ := start_run hs
  obtain ⟨st₁', hstart', hserves'⟩ := start_run hs'
  obtain ⟨-, hscan, hi⟩ := start_ok hstart
  obtain ⟨-, hscan', hi'⟩ := start_ok hstart'
  have halike : (st₁.scan st.scans.length).scanner.Alike (st₁'.scan st'.scans.length).scanner := by
    rw [hscan, hscan']
    exact ⟨rfl, hsource, hname⟩
  have hprogress :
      (st₁.scan st.scans.length).progress = (st₁'.scan st'.scans.length).progress := by
    rw [hscan, hscan']
  have hequal : ∀ script script', script.map Prod.snd = script'.map Prod.snd →
      Undisturbed st.scans.length st₁ script → Undisturbed st'.scans.length st₁' script' →
      st₁.transcript st.scans.length script = st₁'.transcript st'.scans.length script' := by
    intro script script' hdemands hu hu'
    rw [transcript_eq hu, transcript_eq hu', hdemands, hprogress]
    exact halike.transcript_eq _ _
  refine ⟨st₁, st₁', hstart, hstart', fun ds => hequal _ _ rfl ?_ ?_, hequal⟩
  · exact undisturbed_uninterrupted ds hi (by rwa [hscan])
  · exact undisturbed_uninterrupted ds hi' (by rwa [hscan'])

/-- An unfinished name is read with the shared heap, and with an arena while it is counted and
logged. The arena serves another scan and hands out a buffer in between. -/
theorem start_transparent_over_arena :
    let e : Ambient := ⟨⟨some 1, .nothing, .flag true⟩, some 0, [], []⟩
    let r : Request := ⟨['"', 'a', '"', '"'], none, .nothing⟩
    let st := initial.after [.newArena "scope", .addLedger]
    let other : List Operation := [.tokenize e .bootstrap r, .allocate 1 8]
    ∃ st₁ st₁', start .initial (some .standby) r initial = .ok 0 st₁ ∧
      start e (some .standby) r st = .ok 0 st₁' ∧
      st₁.transcript 0 [([], .pull), ([], .recordError "e"), ([], .close), ([], .pull)] =
        st₁'.transcript 0 [(other, .pull), ([], .recordError "e"), ([], .close), ([], .pull)] := by
  intro e r st other
  obtain ⟨st₁, st₁', hstart, hstart', -, hequal⟩ :=
    @start_transparent .initial e (some .standby) r r initial st rfl rfl trivial rfl
  have hfirst : initial.scans.length = 0 := rfl
  have hfirst' : st.scans.length = 0 := by decide +kernel
  rw [hfirst] at hstart hequal
  rw [hfirst'] at hstart' hequal
  refine ⟨st₁, st₁', hstart, hstart', hequal _ _ rfl ?_ ?_⟩
  · have hst : leftBy (start .initial (some .standby) r) initial = st₁ := leftBy_of_ok hstart
    have hi : 0 < st₁.scans.length := by
      rw [← hst]
      decide +kernel
    have hheap : st₁.host.memory.allocator (st₁.scan 0).scanner.allocator = .heap := by
      rw [← hst]
      rfl
    refine undisturbed_uninterrupted [.pull, .recordError "e", .close, .pull] hi ?_
    rw [Memory.Serves, hheap]
    trivial
  · have hst : leftBy (start e (some .standby) r) st = st₁' := leftBy_of_ok hstart'
    have hi : 0 < (st₁'.after other).scans.length := by
      rw [← hst]
      decide +kernel
    have hscan : (st₁'.after other).scan 0 = st₁'.scan 0 := by
      rw [← hst]
      decide +kernel
    have hallocator : (st₁'.scan 0).scanner.allocator = 1 := by
      rw [← hst]
      decide +kernel
    have hcare : ((st₁'.after other).host.memory.allocator 1).care = some ⟨false, [0], [0]⟩ := by
      rw [← hst]
      decide +kernel
    refine undisturbed_cons hi hscan ?_ .pull [.recordError "e", .close, .pull]
    rw [hallocator]
    exact Memory.serves_of_care hcare rfl

end Store

end MiniLex
