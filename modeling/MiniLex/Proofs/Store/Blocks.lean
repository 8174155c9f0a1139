import MiniLex.Proofs.Store.Asked
import MiniLex.Proofs.Store.Surroundings

/-!
# Blocks

The blocks of a program are properly nested, and are left in any case: also when
what is in them fails (`Program.course`). Whatever a program does in a block,
plain changes of the configuration and failures through several blocks included,
on leaving it the surroundings are as they were on entry:

* `beyond_config`: no trace is left of what was done in a configuration block;
* `beyond_ledger`: a ledger block leaves its ledger, and does not touch the
  configuration.

A scan takes from the surroundings what it needs when it is started. Afterwards
its scanner stays as it is (`scanner_after_start`), so steps that concern the
configuration do not matter to it any more: `asked_eq` where other scans may be
started under other configurations, and `upshot_unconfigured` for any allocator.
-/

namespace MiniLex

variable {α : Type}

/-! ## Programs -/

/-- What a block puts around the steps in it. -/
inductive Block where
  /-- A configuration is active in it. -/
  | config (c : Config AllocatorId)
  /-- A new ledger is active in it. -/
  | ledger
  /-- Nothing but that failures can be caught behind it. -/
  | plain

/-- A program. What it does next may depend on how each step has ended and on what scans have
answered, and behind a block on how the block has ended: a failure is caught there, or handed on. -/
inductive Program (α : Type) where
  | done (a : α)
  | raise (failure : Failure)
  /-- An operation, the start of a scan included, in the surroundings in which the program is. -/
  | act (op : Operation) (next : Except Failure Unit → Program α)
  | ask (i : ScanId) (d : Demand) (next : Except Failure Answer → Program α)
  | setConfig (c : Config AllocatorId) (next : Program α)
  | block (b : Block) (body : Program α) (next : Except Failure α → Program α)

namespace Block

/-- How a block is entered. -/
def enter : Block → List Move
  | config c => [.enterConfig c]
  | ledger => [.enterLedger]
  | plain => []

/-- How a block is left. -/
def leave : Block → List Move
  | config _ => [.leaveConfig]
  | ledger => [.leaveLedger]
  | plain => []

/-- The block without its configuration. -/
def unconfigured : Block → Block
  | config _ => plain
  | b => b

end Block

/-- How a program ends, and all that it does until then. -/
structure Course (α : Type) where
  result : Except Failure α
  moves : List Move

/-- The course of a program that does this first. -/
def Course.behind (ms : List Move) (x : Course α) : Course α := ⟨x.result, ms ++ x.moves⟩

namespace Program

/-- What has ended ends what is around it in the same way: a failure is not caught. -/
def handOn : Except Failure α → Program α
  | .ok a => done a
  | .error failure => raise failure

/-- The configuration is set back to the standard one. -/
def resetConfig (next : Program α) : Program α := setConfig .standard next

/-- The course of a program. A block is left however its body ends. -/
def course : Program α → World → Course α
  | done a, _ => ⟨.ok a, []⟩
  | raise failure, _ => ⟨.error failure, []⟩
  | act op next, w =>
    ((next (answerOf (op.within w.ambient).perform w.store)).course (w.step (.act op))).behind
      [.act op]
  | ask i d next, w =>
    ((next (w.store.turn (i, d)).1).course (w.step (.act (.handle i d.handling)))).behind
      [.act (.handle i d.handling)]
  | setConfig c next, w => (next.course (w.step (.setConfig c))).behind [.setConfig c]
  | block b body next, w =>
    let inner := body.course (w.after b.enter)
    let moves := b.enter ++ inner.moves ++ b.leave
    ((next inner.result).course (w.after moves)).behind moves

/-- No scan is started, whatever steps end with. -/
def StartsNone : Program α → Prop
  | done _ | raise _ => True
  | act op next => (∀ e rules r, ¬op.Starts e rules r) ∧ ∀ result, (next result).StartsNone
  | ask _ _ next => ∀ answer, (next answer).StartsNone
  | setConfig _ next => next.StartsNone
  | block _ body next => body.StartsNone ∧ ∀ result, (next result).StartsNone

/-- The program without the steps that concern the configuration. -/
def unconfigured : Program α → Program α
  | done a => done a
  | raise failure => raise failure
  | act op next => act op fun result => (next result).unconfigured
  | ask i d next => ask i d fun answer => (next answer).unconfigured
  | setConfig _ next => next.unconfigured
  | block b body next => block b.unconfigured body.unconfigured fun result =>
    (next result).unconfigured

end Program

/-- A move does not harm a scan: of this scan it wants nothing but an answer, if anything. -/
def Move.OnlyAsks (i : ScanId) : Move → Prop
  | act op => op.OnlyAsks i
  | _ => True

theorem Operation.OnlyAsks.within {op : Operation} {i : ScanId} (h : op.OnlyAsks i) (e : Ambient) :
    (op.within e).OnlyAsks i := by
  cases op with
  | start | tokenize => exact .inl trivial
  | _ => exact h

theorem Operation.within_of_not_starts {op : Operation} (h : ∀ e rules r, ¬op.Starts e rules r)
    (e : Ambient) : op.within e = op := by
  cases op with
  | start => exact (h _ _ _ ⟨rfl, rfl, rfl⟩).elim
  | tokenize => exact (h _ _ _ ⟨rfl, rfl, rfl⟩).elim
  | _ => rfl

namespace World

variable {w w' : World} {i : ScanId} {s : Scanner} {p : Progress} {m : Move} {ms : List Move}
  {c : Config AllocatorId} {body : Program α}

theorem after_append (w : World) (ms ms' : List Move) :
    w.after (ms ++ ms') = (w.after ms).after ms' := List.foldl_append

/-! ## Blocks are left as they were entered -/

/-- The world in which the body of a block begins. -/
def inside (w : World) (b : Block) : World := w.after b.enter

/-- The world in which the body of a block has ended. -/
def atEnd (w : World) (b : Block) (body : Program α) : World :=
  (w.inside b).after (body.course (w.inside b)).moves

/-- The world behind a block. -/
def beyond (w : World) (b : Block) (body : Program α) : World := (w.atEnd b body).after b.leave

/-- What is done in a block, from its entry to its exit. -/
def movesOf (w : World) (b : Block) (body : Program α) : List Move :=
  b.enter ++ (body.course (w.inside b)).moves ++ b.leave

theorem after_movesOf (w : World) (b : Block) (body : Program α) :
    w.after (w.movesOf b body) = w.beyond b body := by
  rw [movesOf, after_append, after_append]
  rfl

theorem course_block (w : World) (b : Block) (body : Program α)
    (next : Except Failure α → Program α) : (Program.block b body next).course w =
      ((next (body.course (w.inside b)).result).course (w.beyond b body)).behind
        (w.movesOf b body) := by
  rw [← after_movesOf]
  rfl

theorem beyond_config_of (h : ∃ c', (w.atEnd (.config c) body).ambient =
    (w.inside (.config c)).ambient.setConfig c') :
    (w.beyond (.config c) body).ambient = w.ambient := by
  obtain ⟨c', h⟩ := h
  show (w.atEnd (.config c) body).ambient.leaveConfig = w.ambient
  rw [h]
  rfl

theorem beyond_ledger_of (h : ∃ c', (w.atEnd .ledger body).ambient =
    (w.inside .ledger).ambient.setConfig c') :
    (w.beyond .ledger body).ambient =
      w.ambient.setConfig (w.atEnd .ledger body).ambient.config := by
  obtain ⟨c', h⟩ := h
  show (w.atEnd .ledger body).ambient.leaveLedger = _
  rw [h]
  rfl

/-- Of its surroundings a program changes nothing but the configuration. -/
theorem ambient_course (prog : Program α) (w : World) :
    ∃ c, (w.after (prog.course w).moves).ambient = w.ambient.setConfig c := by
  induction prog generalizing w with
  | done | raise => exact ⟨w.ambient.config, rfl⟩
  | act op next ih => exact ih _ _
  | ask i d next ih => exact ih _ _
  | setConfig c next ih => exact ih _
  | block b body next ihbody ih =>
    have hbeyond : ∃ c, (w.beyond b body).ambient = w.ambient.setConfig c := by
      have hbody := ihbody (w.inside b)
      cases b with
      | config c => exact ⟨w.ambient.config, beyond_config_of hbody⟩
      | ledger => exact ⟨_, beyond_ledger_of hbody⟩
      | plain => exact hbody
    obtain ⟨c, hbeyond⟩ := hbeyond
    obtain ⟨c', hrest⟩ := ih (body.course (w.inside b)).result (w.beyond b body)
    refine ⟨c', ?_⟩
    rw [course_block, Course.behind, after_append, after_movesOf, hrest, hbeyond]
    rfl

/-- Behind a configuration block the surroundings are as they were. -/
theorem beyond_config (w : World) (c : Config AllocatorId) (body : Program α) :
    (w.beyond (.config c) body).ambient = w.ambient :=
  beyond_config_of (ambient_course body _)

/-- Behind a ledger block the surroundings are as they were, but for plain changes of the
configuration in it. -/
theorem beyond_ledger (w : World) (body : Program α) :
    (w.beyond .ledger body).ambient =
      w.ambient.setConfig (w.atEnd .ledger body).ambient.config :=
  beyond_ledger_of (ambient_course body _)

/-! ## Scanners stay as they are -/

theorem scanners_step (w : World) (m : Move) : w.store.scanners <+: (w.step m).store.scanners := by
  cases m with
  | act op => exact Store.scanners_perform _ _
  | enterLedger | leaveLedger | enterConfig | leaveConfig | setConfig => exact List.prefix_rfl

theorem scanners_after (w : World) (ms : List Move) :
    w.store.scanners <+: (w.after ms).store.scanners := by
  induction ms generalizing w with
  | nil => exact List.prefix_rfl
  | cons m ms ih => exact (scanners_step w m).trans (ih _)

/-- A scan that is started has the scanner that is requested in the surroundings of the program. -/
theorem scanners_of_start {op : Operation} {e : Ambient} {rules : Option Language}
    {r : Store.Request} {st : Store} (hop : op.Starts e rules r)
    (hr : Store.start w.ambient rules r w.store = .ok i st) :
    (w.step (.act op)).store.scanners = st.scanners := by
  cases op with
  | start =>
    obtain ⟨-, rfl, rfl⟩ := hop
    show (leftBy (do let _ ← Store.start w.ambient _ _; return) w.store).scanners = _
    rw [leftBy_bind_return, leftBy_of_ok hr]
  | tokenize =>
    obtain ⟨-, rfl, rfl⟩ := hop
    show (leftBy (do let _ ← Store.tokenize w.ambient _ _; return) w.store).scanners = _
    rw [leftBy_bind_return, Store.leftBy_tokenize hr, Store.scanners_onScan, Store.scanners_onScan]
  | _ => exact hop.elim

/-- It has this scanner still when the program has gone on. -/
theorem scanner_after_start {op : Operation} {e : Ambient} {rules : Option Language}
    {r : Store.Request} {st : Store} (hop : op.Starts e rules r)
    (hr : Store.start w.ambient rules r w.store = .ok i st) (ms : List Move) :
    ((w.after (.act op :: ms)).store.scan i).scanner = r.scanner w.ambient rules i := by
  obtain ⟨-, hscan, hi⟩ := Store.start_ok hr
  obtain ⟨later, hlater⟩ := scanners_after (w.step (.act op)) ms
  rw [scanners_of_start hop hr] at hlater
  have hsame : (w.after (.act op :: ms)).store.scanners[i]? = st.scanners[i]? := by
    show ((w.step (.act op)).after ms).store.scanners[i]? = _
    rw [← hlater, List.getElem?_append_left (by rwa [Store.length_scanners])]
  rw [Store.scanner_eq, hsame, ← Store.scanner_eq, hscan]

/-! ## What scans answer -/

/-- What a move demands of a scan, and what it answers. -/
def askedBy (w : World) (i : ScanId) : Move → Option (Demand × Except Failure Answer)
  | .act op => w.store.asked i (op.within w.ambient)
  | _ => none

/-- What a program demands of a scan, in order, and what it answers. -/
def asked (i : ScanId) (w : World) : List Move → List (Demand × Except Failure Answer)
  | [] => []
  | m :: ms => (w.askedBy i m).toList ++ asked i (w.step m) ms

theorem asked_append (i : ScanId) (w : World) (ms ms' : List Move) :
    w.asked i (ms ++ ms') = w.asked i ms ++ (w.after ms).asked i ms' := by
  induction ms generalizing w with
  | nil => rfl
  | cons m ms ih =>
    rw [List.cons_append, asked, asked, ih, List.append_assoc]
    rfl

theorem served_step (h : Store.Served w.store i s p) (hm : m.OnlyAsks i) :
    (w.askedBy i m).toList.map Prod.snd = s.answers p ((w.askedBy i m).toList.map Prod.fst) ∧
      Store.Served (w.step m).store i s (s.after p ((w.askedBy i m).toList.map Prod.fst)) := by
  cases m with
  | act op => exact h.perform (hm.within w.ambient)
  | enterLedger | leaveLedger | enterConfig | leaveConfig | setConfig =>
    exact ⟨rfl, h.of_same rfl rfl⟩

/-- A scan answers what it determines, as long as nothing else is wanted of it. Other scans may be
started meanwhile, in whatever surroundings. -/
theorem asked_eq (h : Store.Served w.store i s p) (hms : ∀ m ∈ ms, m.OnlyAsks i) :
    (w.asked i ms).map Prod.snd = s.answers p ((w.asked i ms).map Prod.fst) := by
  induction ms generalizing w p with
  | nil => rfl
  | cons m ms ih =>
    obtain ⟨hanswers, hserved⟩ := served_step h (hms m List.mem_cons_self)
    have hrest := ih hserved fun m' hm' => hms m' (List.mem_cons_of_mem _ hm')
    rw [asked, List.map_append, List.map_append, hanswers, hrest, ← Scanner.answers_append]

/-! ## Programs without configurations -/

/-- What comes of a program, apart from the surroundings. -/
structure Upshot (α : Type) where
  result : Except Failure α
  store : Store
  asked : ScanId → List (Demand × Except Failure Answer)

/-- What comes of a course. -/
def upshot (w : World) (x : Course α) : Upshot α :=
  ⟨x.result, (w.after x.moves).store, fun i => w.asked i x.moves⟩

theorem upshot_behind (w : World) (ms : List Move) (x : Course α) :
    w.upshot (x.behind ms) = { (w.after ms).upshot x with
      asked := fun i => w.asked i ms ++ (w.after ms).asked i x.moves } := by
  rw [upshot, Course.behind, after_append]
  simp only [asked_append, upshot]

/-- After moves that come to the same the upshot is the same, if it is of what follows. -/
theorem upshot_congr {ms' : List Move} {x x' : Course α}
    (hasked : ∀ i, w.asked i ms = w'.asked i ms')
    (hrest : (w.after ms).upshot x = (w'.after ms').upshot x') :
    w.upshot (x.behind ms) = w'.upshot (x'.behind ms') := by
  have hlater : ∀ i, (w.after ms).asked i x.moves = (w'.after ms').asked i x'.moves :=
    fun i => congrFun (congrArg Upshot.asked hrest) i
  rw [upshot_behind, upshot_behind, hrest]
  simp only [hasked, hlater]

/-- An operation that starts no scan is the same in all surroundings. -/
theorem same_of_not_starts (op : Operation) (hop : ∀ e rules r, ¬op.Starts e rules r)
    (hstore : w'.store = w.store) : (w'.step (.act op)).store = (w.step (.act op)).store ∧
      ∀ i, w.asked i [.act op] = w'.asked i [.act op] := by
  have hact (w : World) : (w.step (.act op)).store = leftBy op.perform w.store := by
    show leftBy (op.within w.ambient).perform w.store = _
    rw [Operation.within_of_not_starts hop]
  have hasked (w : World) (i : ScanId) : w.asked i [.act op] = (w.store.asked i op).toList := by
    show (w.store.asked i (op.within w.ambient)).toList ++ [] = _
    rw [Operation.within_of_not_starts hop, List.append_nil]
  exact ⟨by rw [hact, hact, hstore], fun i => by rw [hasked, hasked, hstore]⟩

theorem store_beyond (w : World) (b : Block) (body : Program α) :
    (w.beyond b body).store = (w.atEnd b body).store := by
  cases b <;> rfl

theorem asked_movesOf (w : World) (b : Block) (body : Program α) (i : ScanId) :
    w.asked i (w.movesOf b body) = (w.inside b).asked i (body.course (w.inside b)).moves := by
  have henter : w.asked i b.enter = [] := by cases b <;> rfl
  have hleave : (w.atEnd b body).asked i b.leave = [] := by cases b <;> rfl
  rw [movesOf, asked_append, asked_append, henter, after_append]
  exact (congrArg ([] ++ _ ++ ·) hleave).trans (List.append_nil _)

/-- If no scan is started, neither the surroundings nor the steps that change the configuration make
any difference. -/
theorem upshot_unconfigured (prog : Program α) (hnone : prog.StartsNone)
    (hstore : w'.store = w.store) :
    w.upshot (prog.course w) = w'.upshot (prog.unconfigured.course w') := by
  induction prog generalizing w w' with
  | done | raise =>
    show Upshot.mk _ w.store _ = Upshot.mk _ w'.store _
    rw [hstore]
    rfl
  | act op next ih =>
    have hop := Operation.within_of_not_starts hnone.1
    obtain ⟨hleft, hasked⟩ := same_of_not_starts op hnone.1 hstore
    rw [Program.unconfigured, Program.course, Program.course, hop, hop, hstore]
    exact upshot_congr hasked (ih _ (hnone.2 _) hleft)
  | ask i d next ih =>
    obtain ⟨hleft, hasked⟩ := same_of_not_starts (.handle i d.handling) nofun hstore
    rw [Program.unconfigured, Program.course, Program.course, hstore]
    exact upshot_congr hasked (ih _ (hnone _) hleft)
  | setConfig c next ih =>
    show (w.step (.setConfig c)).upshot (next.course (w.step (.setConfig c))) = _
    exact ih hnone hstore
  | block b body next ihbody ih =>
    have hinside : (w'.inside b.unconfigured).store = (w.inside b).store := by
      cases b with
      | config c | plain => exact hstore
      | ledger => exact congrArg (leftBy Store.addLedger) hstore
    have hbody := ihbody hnone.1 hinside
    have hresult : (body.course (w.inside b)).result =
        (body.unconfigured.course (w'.inside b.unconfigured)).result :=
      congrArg Upshot.result hbody
    have hbeyond :
        (w'.beyond b.unconfigured body.unconfigured).store = (w.beyond b body).store := by
      rw [store_beyond, store_beyond]
      exact (congrArg Upshot.store hbody).symm
    rw [Program.unconfigured, course_block, course_block, hresult]
    refine upshot_congr (fun i => ?_) ?_
    · rw [asked_movesOf, asked_movesOf]
      exact congrFun (congrArg Upshot.asked hbody) i
    · rw [after_movesOf, after_movesOf]
      exact ih _ (hnone.2 _) hbeyond

/-- Blocks may be nested to any depth, with plain changes of the configuration, starts, demands and
failures anywhere in them. Behind a configuration block everything in the surroundings is as it was
on entry, and behind a ledger block everything but the configuration, which is as the body has left
it; it does not matter how the body ends. Each block concerns its own part of the surroundings only.
After a plain change the configuration is the one that was set, and nothing else is different.

A scanner has the allocator, the name and the tracing that its request names, or else the
configuration that is active when it is started; a name that is given counts even if it is empty.
It has them still whatever is done later, in or behind any block. What it answers is determined by
it, where its allocator never fails, whatever configurations come later and whatever other scans are
started under them. With any allocator, the steps of a program that change the configuration make no
difference to what scans answer, nor to anything else but the surroundings, until the next scan is
started. -/
theorem blocks_restore (w : World) :
    (∀ c (body : Program α),
      (w.inside (.config c)).ambient.config = c ∧
      (w.inside (.config c)).ambient.ledger = w.ambient.ledger ∧
      (w.beyond (.config c) body).ambient = w.ambient) ∧
    (∀ body : Program α,
      (w.inside .ledger).ambient.ledger = some w.store.host.ledgers.length ∧
      (w.inside .ledger).ambient.config = w.ambient.config ∧
      (w.beyond .ledger body).ambient =
        w.ambient.setConfig (w.atEnd .ledger body).ambient.config) ∧
    (∀ c (next : Program α),
      let w' : World := ⟨w.store, { w.ambient with config := c }⟩
      w.upshot ((Program.setConfig c next).course w) = w'.upshot (next.course w') ∧
      w.after ((Program.setConfig c next).course w).moves = w'.after (next.course w').moves) ∧
    (∀ op e rules r i st, op.Starts e rules r →
      Store.start w.ambient rules r w.store = .ok i st → ∀ ms,
        let s := ((w.after (.act op :: ms)).store.scan i).scanner
        s.allocator = (r.allocator <|> w.ambient.config.allocator).getD Memory.sharedHeap ∧
        s.sourceName =
          (if r.sourceName = .nothing then w.ambient.config.sourceName else r.sourceName) ∧
        s.tracing = w.ambient.config.tracing.isOn) ∧
    (∀ i s p ms, Store.Served w.store i s p → (∀ m ∈ ms, m.OnlyAsks i) →
      (w.asked i ms).map Prod.snd = s.answers p ((w.asked i ms).map Prod.fst)) ∧
    ∀ (prog : Program α) (w' : World), prog.StartsNone → w'.store = w.store →
      w.upshot (prog.course w) = w'.upshot (prog.unconfigured.course w') := by
  refine ⟨fun c body => ⟨rfl, rfl, beyond_config w c body⟩,
    fun body => ⟨rfl, rfl, beyond_ledger w body⟩, fun c next => ⟨rfl, rfl⟩,
    fun op e rules r i st hop hr ms => ?_,
    fun i s p ms h hms => asked_eq h hms,
    fun prog w' hnone hstore => upshot_unconfigured prog hnone hstore⟩
  rw [scanner_after_start hop hr ms]
  refine ⟨rfl, ?_, rfl⟩
  show r.sourceName.orElse w.ambient.config.sourceName = _
  split
  · rename_i hopen
    rw [hopen, Setting.nothing_orElse]
  · rename_i hgiven
    exact Setting.orElse_of_ne_nothing hgiven _

/-- A scan with an empty name is started over an arena in a block. A failure leaves this block and a
ledger block in it. The scan is read in the inner block and behind both, where another scan has been
started over the shared heap. -/
theorem blocks_restore_left_by_failure :
    let named : Config AllocatorId := ⟨some 1, .text "a", .flag true⟩
    let unnamed : Config AllocatorId := ⟨none, .nothing, .number 0⟩
    let r : Store.Request := ⟨['"', 'b', '"'], none, .text ""⟩
    let start : Operation := .start .initial (some .standby) r
    let failing : Program Unit := .ask 0 .pull fun _ => .raise (.scannerClosed "standby")
    let closing : Program Unit := .ask 0 .close fun _ => .done ()
    let inner : Program Unit := .setConfig unnamed failing
    let body : Program Unit := .act start fun _ => .block .ledger inner .handOn
    let w := initial.step (.act (.newArena "scope"))
    let entered := w.inside (.config named)
    let started := entered.step (.act start)
    let later : List Move := [.enterLedger, .setConfig unnamed, .act (.handle 0 .pull),
      .leaveLedger, .leaveConfig, .act start, .act (.handle 0 .pull)]
    let s := ((entered.after (.act start :: later)).store.scan 0).scanner
    let outside : World := ⟨started.store, .initial⟩
    (body.course entered).result = .error (.scannerClosed "standby") ∧
      (w.beyond (.config named) body).ambient = .initial ∧
      (started.beyond .ledger inner).ambient = started.ambient.setConfig unnamed ∧
      (s.allocator = 1 ∧ s.sourceName = .text "" ∧ s.tracing = true) ∧
      (started.asked 0 later).map Prod.snd = [.ok (.token ⟨.standby .name, some ['b'], 0, 3, none⟩),
        .ok (.token ⟨.standby .endOfInput, none, 3, 3, none⟩)] ∧
      started.upshot ((Program.block (.config named) failing fun _ => .resetConfig closing).course
          started) =
        outside.upshot ((Program.block .plain failing fun _ => closing).course outside) := by
  intro named unnamed r start failing closing inner body w entered started later s outside
  obtain ⟨hconfig, -, -, -, -, -⟩ := blocks_restore (α := Unit) w
  obtain ⟨-, -, -, hscanner, -, -⟩ := blocks_restore (α := Unit) entered
  obtain ⟨-, hledger, -, -, hanswers, hupshot⟩ := blocks_restore (α := Unit) started
  refine ⟨rfl, (hconfig named body).2.2, (hledger inner).2.2, ?_, ?_, ?_⟩
  · have hr : ∃ st, Store.start entered.ambient (some .standby) r entered.store = .ok 0 st :=
      ⟨_, rfl⟩
    obtain ⟨st, hr⟩ := hr
    exact hscanner start .initial (some .standby) r 0 st ⟨rfl, rfl, rfl⟩ hr later
  · have hserved : Store.Served started.store 0
        (r.scanner entered.ambient (some .standby) 0) .initial :=
      ⟨rfl, by decide +kernel, rfl⟩
    have hpull : (Operation.handle 0 .pull).OnlyAsks 0 := .inr ⟨.pull, rfl⟩
    have hstart : start.OnlyAsks 0 := .inl trivial
    have hlater : ∀ m ∈ later, m.OnlyAsks 0 := by
      simp [later, Move.OnlyAsks, hpull, hstart]
    have hasked : (started.asked 0 later).map Prod.fst = [.pull, .pull] := by decide +kernel
    rw [hanswers 0 _ _ later hserved hlater, hasked]
    rfl
  · exact hupshot (.block (.config named) failing fun _ => .resetConfig closing)
      outside ⟨fun _ => trivial, fun _ _ => trivial⟩ rfl

end World

end MiniLex
