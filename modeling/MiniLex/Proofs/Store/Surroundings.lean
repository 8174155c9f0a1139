import MiniLex.Proofs.Store.Occurrences

/-!
# What ledgers count

A program enters and leaves blocks in which a ledger or a configuration is
active, and starts its scans in whatever surroundings it is in then (`World`).
A ledger goes with a scan from its start: it counts what is done with the scans
that were started while it was active, whenever that is done, and nothing of any
other scan. After any program it has counted just what happened: `ledger_counts`.
-/

namespace MiniLex

variable {l : LedgerId} {os : List Occurrence}

/-! ## Counting occurrences -/

/-- The scans that are started while a ledger is active, with the lengths of their sources. -/
def startedUnder (l : LedgerId) (os : List Occurrence) : List (ScanId × Nat) :=
  os.filterMap fun
    | .started i active length => if active = some l then some (i, length) else none
    | .did _ _ => none

/-- What some of the scans do. -/
def deedsOf (mine : ScanId → Bool) (os : List Occurrence) : List Deed :=
  os.filterMap fun
    | .started _ _ _ => none
    | .did i d => if mine i then some d else none

/-- What the scans do that are started while a ledger is active. -/
def deedsUnder (l : LedgerId) (os : List Occurrence) : List Deed :=
  deedsOf (fun i => decide (i ∈ (startedUnder l os).map Prod.fst)) os

section Lists

variable {i : ScanId} {mine : ScanId → Bool}

theorem startedUnder_started (i : ScanId) (active : Option LedgerId) (length : Nat) :
    startedUnder l (.started i active length :: os) =
      if active = some l then (i, length) :: startedUnder l os else startedUnder l os := by
  by_cases h : active = some l <;> simp [startedUnder, h]

theorem startedUnder_did (i : ScanId) (d : Deed) :
    startedUnder l (.did i d :: os) = startedUnder l os := rfl

theorem deedsOf_started (i : ScanId) (active : Option LedgerId) (length : Nat) :
    deedsOf mine (.started i active length :: os) = deedsOf mine os := rfl

theorem deedsOf_did (i : ScanId) (d : Deed) :
    deedsOf mine (.did i d :: os) = if mine i then d :: deedsOf mine os else deedsOf mine os := by
  by_cases h : mine i = true <;> simp [deedsOf, h]

theorem mem_startedUnder : i ∈ (startedUnder l os).map Prod.fst ↔
    ∃ length, .started i (some l) length ∈ os := by
  induction os with
  | nil => simp [startedUnder]
  | cons o os ih =>
    cases o with
    | started j active length =>
      rw [startedUnder_started]
      by_cases hactive : active = some l <;> simp [hactive, ih, exists_or, eq_comm]
    | did j d => simp [startedUnder_did, ih]

theorem deedsOf_congr {mine' : ScanId → Bool} (h : ∀ i d, .did i d ∈ os → mine i = mine' i) :
    deedsOf mine os = deedsOf mine' os := by
  refine List.filterMap_congr fun o ho => ?_
  cases o with
  | started => rfl
  | did i d => simp only [h i d ho]

end Lists

/-- A token is given. -/
def Deed.isToken : Deed → Bool
  | gave _ => true
  | refused | kept => false

namespace Ledger

/-- The counts of two ledgers together. -/
instance : Add Ledger where
  add x y := ⟨x.scans + y.scans, x.tokens + y.tokens, x.errors + y.errors,
    x.sourceLength + y.sourceLength⟩

/-- The counts of a ledger on which these scans and deeds are counted. -/
def ofCounts (scans : List (ScanId × Nat)) (deeds : List Deed) : Ledger where
  scans := scans.length
  tokens := deeds.countP Deed.isToken
  errors := deeds.count .refused + deeds.count .kept
  sourceLength := (scans.map Prod.snd).sum

theorem add_def (x y : Ledger) : x + y = ⟨x.scans + y.scans, x.tokens + y.tokens,
    x.errors + y.errors, x.sourceLength + y.sourceLength⟩ := rfl

theorem add_ofCounts_nil (x : Ledger) : x + ofCounts [] [] = x := by
  simp [add_def, ofCounts]

theorem blank_add (x : Ledger) : blank + x = x := by
  simp [add_def, blank]

theorem countScan_add (x : Ledger) (i : ScanId) (length : Nat) (scans : List (ScanId × Nat))
    (deeds : List Deed) : x.countScan length + ofCounts scans deeds =
      x + ofCounts ((i, length) :: scans) deeds := by
  simp only [add_def, ofCounts, countScan, List.length_cons, List.map_cons, List.sum_cons]
  congr 1 <;> push_cast <;> omega

theorem count_add (x : Ledger) (d : Deed) (scans : List (ScanId × Nat)) (deeds : List Deed) :
    x.count d.entry + ofCounts scans deeds = x + ofCounts scans (d :: deeds) := by
  simp only [add_def, ofCounts]
  cases d with
  | gave token =>
    have htokens : (Deed.gave token :: deeds).countP Deed.isToken =
        deeds.countP Deed.isToken + 1 := List.countP_cons_of_pos rfl
    simp [Deed.entry, count, countToken, htokens]
    omega
  | refused =>
    have htokens : (Deed.refused :: deeds).countP Deed.isToken = deeds.countP Deed.isToken :=
      List.countP_cons_of_neg Bool.false_ne_true
    simp [Deed.entry, count, countError, htokens]
    omega
  | kept =>
    have htokens : (Deed.kept :: deeds).countP Deed.isToken = deeds.countP Deed.isToken :=
      List.countP_cons_of_neg Bool.false_ne_true
    simp [Deed.entry, count, countError, htokens]
    omega

end Ledger

theorem foldl_enter (mine : ScanId → Bool) (l : LedgerId) (os : List Occurrence) (x : Ledger) :
    os.foldl (Store.enter l mine) x =
      x + Ledger.ofCounts (startedUnder l os) (deedsOf mine os) := by
  induction os generalizing x with
  | nil => exact x.add_ofCounts_nil.symm
  | cons o os ih =>
    rw [List.foldl_cons, ih]
    cases o with
    | started i active length =>
      rw [Store.enter, startedUnder_started, deedsOf_started]
      split
      · exact x.countScan_add i length _ _
      · rfl
    | did i d =>
      rw [Store.enter, startedUnder_did, deedsOf_did]
      split
      · exact x.count_add d _ _
      · rfl

/-! ## Programs with their surroundings -/

/-- A program's store, and the surroundings in which it is. -/
structure World where
  store : Store
  ambient : Ambient

/-- What a program does next. -/
inductive Move where
  /-- It enters a block in which a new ledger is active. -/
  | enterLedger
  | leaveLedger
  | enterConfig (c : Config AllocatorId)
  | leaveConfig
  | setConfig (c : Config AllocatorId)
  /-- It does an operation in the surroundings in which it is. -/
  | act (op : Operation)

/-- An operation with these surroundings in place of those that it names. -/
def Operation.within (e : Ambient) : Operation → Operation
  | start _ rules r => start e rules r
  | tokenize _ language r => tokenize e language r
  | op => op

/-- All that is mentioned is there. -/
def Move.Known (w : World) : Move → Prop
  | act op => (op.within w.ambient).Known w.store
  | _ => True

instance (w : World) (m : Move) : Decidable (m.Known w) := by
  cases m <;> dsimp only [Move.Known] <;> infer_instance

namespace World

variable {w w' : World} {m : Move} {ms : List Move}

/-- The world of a program that has done nothing yet. -/
def initial : World := ⟨.initial, .initial⟩

/-- The world that a move leaves, whether it fails or not. -/
def step (w : World) : Move → World
  | .enterLedger =>
    ⟨leftBy Store.addLedger w.store, w.ambient.enterLedger w.store.host.ledgers.length⟩
  | .leaveLedger => { w with ambient := w.ambient.leaveLedger }
  | .enterConfig c => { w with ambient := w.ambient.enterConfig c }
  | .leaveConfig => { w with ambient := w.ambient.leaveConfig }
  | .setConfig c => { w with ambient := w.ambient.setConfig c }
  | .act op => { w with store := leftBy (op.within w.ambient).perform w.store }

/-- The world that a program leaves. -/
def after (w : World) (ms : List Move) : World := ms.foldl step w

/-- What happens by a move. -/
def happens (w : World) : Move → List Occurrence
  | .act op => w.store.occurrences (op.within w.ambient)
  | _ => []

/-- What happens in a program. -/
def occurrences (w : World) : List Move → List Occurrence
  | [] => []
  | m :: ms => w.happens m ++ (w.step m).occurrences ms

/-- All that a program mentions is there when it does. -/
def Knows (w : World) : List Move → Prop
  | [] => True
  | m :: ms => m.Known w ∧ (w.step m).Knows ms

instance decidableKnows : (w : World) → (ms : List Move) → Decidable (w.Knows ms)
  | _, [] => isTrue trivial
  | w, m :: ms =>
    have : Decidable ((w.step m).Knows ms) := decidableKnows _ ms
    inferInstanceAs (Decidable (_ ∧ _))

/-- All ledgers on which scans are counted, or will be, are there. -/
structure Sound (w : World) : Prop where
  grounded : w.store.Grounded
  ambient : ∀ l, some l ∈ w.ambient.ledger :: w.ambient.outerLedgers →
    l < w.store.host.ledgers.length

theorem sound_initial : initial.Sound where
  grounded _ hs := absurd hs List.not_mem_nil
  ambient l hl := by
    have hnone : some l = none := List.mem_singleton.mp hl
    cases hnone

/-! ## One move -/

theorem booked_step (hw : w.Sound) (hm : m.Known w)
    (hleaves : ∀ entry, m ≠ .act (.count l entry)) :
    Store.Booked l w.store (w.happens m) (w.step m).store := by
  cases m with
  | enterLedger => exact Store.booked_addLedger hw.grounded
  | leaveLedger | enterConfig | leaveConfig | setConfig =>
    exact Store.booked_of_ledgers hw.grounded rfl rfl
  | act op =>
    have hactive : ∀ k, w.ambient.ledger = some k → k < w.store.host.ledgers.length :=
      fun k hk => hw.ambient k (hk ▸ List.mem_cons_self)
    refine Store.booked_perform hw.grounded hm (fun e rules r hstarts => ?_) fun entry hcount => ?_
    · cases op with
      | start | tokenize =>
        obtain ⟨rfl, -⟩ := hstarts
        exact hactive
      | _ => exact hstarts.elim
    · cases op with
      | count k entry' =>
        cases hcount
        exact hleaves _ rfl
      | _ => cases hcount

theorem Sound.step (hw : w.Sound) (hbooked : Store.Booked l w.store os (w.step m).store) :
    (w.step m).Sound := by
  refine ⟨hbooked.grounded, fun k hk => ?_⟩
  have hstays (hk : some k ∈ w.ambient.ledger :: w.ambient.outerLedgers) :
      k < (w.step m).store.host.ledgers.length := (hw.ambient k hk).trans_le hbooked.length
  cases m with
  | enterLedger =>
    have hadded : (w.step .enterLedger).store.host.ledgers.length =
        w.store.host.ledgers.length + 1 := List.length_append
    rcases List.mem_cons.mp hk with hnew | hk
    · rw [hadded, Option.some.inj hnew]
      exact Nat.lt_succ_self _
    · exact hstays hk
  | leaveLedger =>
    have hleft : (w.step .leaveLedger).ambient = w.ambient.leaveLedger := rfl
    rw [hleft, Ambient.leaveLedger] at hk
    split at hk
    · exact hstays hk
    · rename_i hblocks
      exact hstays (List.mem_cons_of_mem _ (hblocks ▸ hk))
  | leaveConfig =>
    have hleft : (w.step .leaveConfig).ambient = w.ambient.leaveConfig := rfl
    rw [hleft, Ambient.leaveConfig] at hk
    split at hk <;> exact hstays hk
  | enterConfig | setConfig | act => exact hstays hk

/-! ## Programs -/

theorem booked_after (hw : w.Sound) (hknown : w.Knows ms)
    (hleaves : ∀ entry, Move.act (.count l entry) ∉ ms) :
    Store.Booked l w.store (w.occurrences ms) (w.after ms).store := by
  induction ms generalizing w with
  | nil => exact Store.booked_of_ledgers hw.grounded rfl rfl
  | cons m ms ih =>
    have hfirst : Store.Booked l w.store (w.happens m) (w.step m).store :=
      booked_step hw hknown.1 fun entry hm => hleaves entry (hm ▸ List.mem_cons_self)
    have hrest := ih (hw.step hfirst) hknown.2 fun entry hmem =>
      hleaves entry (List.mem_cons_of_mem _ hmem)
    exact hfirst.trans hrest

/-- After any program a ledger to which nobody else has written has counted the scans that were
started while it was active, with the lengths of their sources, and of what these scans did the
tokens that they gave, other than the end token, and the errors: each character that they refused,
every time that they did, and each error that they kept. It does not matter who pulled them, in
which surroundings the program was then, and what of all that failed. -/
theorem ledger_counts (hknown : initial.Knows ms)
    (hleaves : ∀ entry, Move.act (.count l entry) ∉ ms) :
    let scans := startedUnder l (initial.occurrences ms)
    let deeds := deedsUnder l (initial.occurrences ms)
    (initial.after ms).store.host.ledger l =
      { scans := scans.length
        tokens := deeds.countP Deed.isToken
        errors := deeds.count .refused + deeds.count .kept
        sourceLength := (scans.map Prod.snd).sum } := by
  have hbooked := booked_after sound_initial hknown hleaves
  intro scans deeds
  -- A scan is counted on this ledger if and only if it was started under it.
  have hmine : ∀ i d, .did i d ∈ initial.occurrences ms →
      decide ((initial.after ms).store.ledgerOf i = some l) =
        decide (i ∈ scans.map Prod.fst) := by
    intro i d ho
    rw [decide_eq_decide, mem_startedUnder]
    constructor
    · intro hl
      rw [← hl]
      exact hbooked.started i (hbooked.known _ ho) (Nat.zero_le i)
    · rintro ⟨length, hstarted⟩
      exact hbooked.active i _ length hstarted
  have hblank : initial.store.host.ledger l = .blank := rfl
  rw [hbooked.ledger, foldl_enter, deedsOf_congr hmine, hblank, Ledger.blank_add]
  rfl

/-- Of two ledgers, one is active in a block within the block of the other. A scan of the outer
block refuses a character after both blocks, once directly and once through a stream. In the inner
block a name that never ends is tokenized, and a scan is not started, as its arena is closed. -/
theorem ledger_counts_nested_blocks :
    let ms : List Move := [.enterLedger, .act (.newArena "scope"), .act (.closeArena 1),
      .act (.start .initial (some .bootstrap) ⟨['a', '+'], none, .nothing⟩),
      .enterLedger, .act (.handle 0 .pull),
      .act (.tokenize .initial .standby ⟨['b', ' ', '"'], none, .nothing⟩),
      .act (.start .initial (some .standby) ⟨['c'], some 1, .nothing⟩),
      .leaveLedger, .leaveLedger, .act (.handle 1 (.recordError "e")),
      .act (.handle 0 .pull), .act (.openStream 0), .act (.pullStream 0)]
    (initial.after ms).store.host.ledger 0 = ⟨1, 1, 2, 2⟩ ∧
      (initial.after ms).store.host.ledger 1 = ⟨1, 2, 1, 3⟩ := by
  intro ms
  have hknown : initial.Knows ms := by decide +kernel
  have hleaves (l : LedgerId) : ∀ entry, Move.act (.count l entry) ∉ ms := by simp [ms]
  have hos : initial.occurrences ms = [.started 0 (some 0) 2,
      .did 0 (.gave ⟨.bootstrap .ident, some ['a'], 0, 1, some 1⟩), .started 1 (some 1) 3,
      .did 1 (.gave ⟨.standby .name, some ['b'], 0, 1, none⟩), .did 1 .kept,
      .did 1 (.gave ⟨.standby .junk, none, 2, 3, none⟩), .did 0 .refused, .did 0 .refused] := by
    decide +kernel
  refine ⟨(ledger_counts hknown (hleaves 0)).trans ?_, (ledger_counts hknown (hleaves 1)).trans ?_⟩
  · rw [hos]
    decide
  · rw [hos]
    decide

end World

end MiniLex
