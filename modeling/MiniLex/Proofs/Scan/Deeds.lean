import MiniLex.Proofs.Scan.Upkeep

/-!
# What a scan has to be counted for

What is to be counted of a scan (`Deed`) can be told from its answers, and from
whether it has come to keep an error, without a look at the ledgers. The ledger
of a scan counts just that, whatever fails: `ledgers_pull`,
`ledgers_collectUpTo` and `ledgers_recordError`.

Reading a token counts no more than errors (`PostsErrors`). A standby scan keeps
an error at most once while it reads, and counts it then (`NotesOnce`); a
bootstrap scan counts the character that it refuses.
-/

namespace MiniLex

/-- Something that a scan does and that is to be counted. -/
inductive Deed where
  /-- It gives a token other than the end token. -/
  | gave (token : Token)
  /-- It fails at a character that no rule accepts. -/
  | refused
  /-- It is told of an error, or finds one itself, and keeps it. -/
  | kept
  deriving DecidableEq

namespace Ledger

variable {k : Option LedgerId} {ledgers : List Ledger}

/-- The ledgers with one of them changed, if any is named. -/
def account (k : Option LedgerId) (f : Ledger → Ledger) (ledgers : List Ledger) : List Ledger :=
  match k with
  | some l => ledgers.modify l f
  | none => ledgers

theorem ledgers_account (k : Option LedgerId) (f : Ledger → Ledger) (h : Host) :
    (h.account k f).ledgers = account k f h.ledgers := by
  cases k <;> rfl

theorem length_account (k : Option LedgerId) (f : Ledger → Ledger) (ledgers : List Ledger) :
    (account k f ledgers).length = ledgers.length := by
  cases k with
  | none => rfl
  | some l => exact List.length_modify ..

theorem getD_account (hk : ∀ l, k = some l → l < ledgers.length) (f : Ledger → Ledger)
    (l : LedgerId) : (account k f ledgers).getD l default =
      if k = some l then f (ledgers.getD l default) else ledgers.getD l default := by
  cases k with
  | none => rfl
  | some k =>
    rw [account, List.getD_eq_getElem?_getD, List.getElem?_modify, List.getD_eq_getElem?_getD]
    by_cases hkl : k = l
    · subst hkl
      rw [List.getElem?_eq_getElem (hk k rfl)]
      simp
    · simp [hkl]

end Ledger

namespace Deed

/-- What a deed is counted as. -/
def entry : Deed → LedgerEntry
  | gave _ => .token
  | refused | kept => .error

/-- The ledgers once a deed is counted on one of them, if any is named. -/
def post (k : Option LedgerId) (ledgers : List Ledger) (d : Deed) : List Ledger :=
  Ledger.account k (Ledger.count d.entry) ledgers

theorem length_foldl_post (k : Option LedgerId) (ledgers : List Ledger) (ds : List Deed) :
    (ds.foldl (post k) ledgers).length = ledgers.length := by
  induction ds generalizing ledgers with
  | nil => rfl
  | cons d ds ih => rw [List.foldl_cons, ih, post, Ledger.length_account]

end Deed

/-- What is seen of a machine by who asks for its ledgers and for the error that the scan keeps. -/
def Machine.record (m : Machine) : List Ledger × Option Diagnostic :=
  (m.host.ledgers, m.progress.error)

namespace Scanner

open ScanM

variable {s : Scanner} {l : Option LedgerId} {α : Type} {x : ScanM α} {m m' : Machine}

/-! ## The deeds of a scan -/

/-- The errors for which an action has to be counted: the one that is kept after it, if there was
none before, and the character that makes it fail. -/
def errorDeeds (x : ScanM α) (m : Machine) : List Deed :=
  (if m.progress.error = none ∧ (leftBy x m).progress.error ≠ none then [.kept] else []) ++
    match x m with
    | .error (.illegalCharacter ..) _ => [.refused]
    | _ => []

/-- What a token has to be counted for. -/
def tokenDeeds (token : Token) : List Deed := if token.kind.isEnd then [] else [.gave token]

/-- What a pull has to be counted for. -/
def pullDeeds (s : Scanner) (m : Machine) : List Deed :=
  errorDeeds s.pull m ++
    match s.pull m with
    | .ok token _ => tokenDeeds token
    | .error _ _ => []

/-- What one pull after the other has to be counted for, up to the end token or a failure, but at
most this many. -/
def pullsDeeds (s : Scanner) : Nat → Machine → List Deed
  | 0, _ => []
  | n + 1, m => s.pullDeeds m ++
    match s.pull m with
    | .ok token m' => if token.kind.isEnd then [] else s.pullsDeeds n m'
    | .error _ _ => []

/-- What recording an error has to be counted for. -/
def recordDeeds (s : Scanner) (complaint : String) (m : Machine) : List Deed :=
  match s.recordError complaint m with
  | .ok true _ => [.kept]
  | _ => []

/-! ## Errors -/

/-- An action counts on a ledger, if any is named, the errors for which it has to be counted. -/
def PostsErrors (l : Option LedgerId) (x : ScanM α) : Prop :=
  ∀ m, (leftBy x m).host.ledgers = (errorDeeds x m).foldl (Deed.post l) m.host.ledgers

/-- An error is kept where there was none and is counted, or nothing changes. -/
def NotesOnce (l : Option LedgerId) (v w : List Ledger × Option Diagnostic) : Prop :=
  w = v ∨ v.2 = none ∧ w.2 ≠ none ∧ w.1 = Deed.kept.post l v.1

theorem NotesOnce.trans {u v w : List Ledger × Option Diagnostic} (h : NotesOnce l u v)
    (h' : NotesOnce l v w) : NotesOnce l u w := by
  rcases h with rfl | ⟨hnone, hsome, hpost⟩
  · exact h'
  · rcases h' with rfl | ⟨hnone', -⟩
    · exact .inr ⟨hnone, hsome, hpost⟩
    · exact absurd hnone' hsome

theorem notesOnce_of_keeps (h : Keeps Machine.record x) : Moves Machine.record (NotesOnce l) x :=
  h.moves fun _ => .inl rfl

/-- What changes nothing may be done first. -/
theorem notesOnce_after {β : Type} {f : α → ScanM β} (hx : Keeps Machine.record x)
    (hf : ∀ a, Moves Machine.record (NotesOnce l) (f a)) :
    Moves Machine.record (NotesOnce l) (x >>= f) :=
  Moves.bind NotesOnce.trans (notesOnce_of_keeps hx) hf

theorem errorDeeds_of_ok {a : α} (hr : x m = .ok a m') : errorDeeds x m =
    if m.progress.error = none ∧ m'.progress.error ≠ none then [.kept] else [] := by
  rw [errorDeeds, leftBy_of_ok hr, hr, List.append_nil]

theorem errorDeeds_of_isAllocation {e : Failure} (he : e.IsAllocation) (hr : x m = .error e m') :
    errorDeeds x m =
      if m.progress.error = none ∧ m'.progress.error ≠ none then [.kept] else [] := by
  obtain ⟨fault, rfl⟩ := he
  rw [errorDeeds, leftBy_of_error hr, hr, List.append_nil]

/-- An action that refuses no character has to be counted for the error that it keeps. -/
theorem postsErrors_of_notesOnce (hx : Moves Machine.record (NotesOnce l) x)
    (hfails : FailsOnly Failure.IsAllocation x) : PostsErrors l x := by
  intro m
  have hdeeds : errorDeeds x m = if m.progress.error = none ∧
      (leftBy x m).progress.error ≠ none then [.kept] else [] := by
    cases hr : x m with
    | ok a m' => rw [leftBy_of_ok hr, errorDeeds_of_ok hr]
    | error e m' => rw [leftBy_of_error hr, errorDeeds_of_isAllocation (hfails m e m' hr) hr]
  rw [hdeeds]
  rcases hx m with hsame | ⟨hnone, hsome, hpost⟩
  · have hledgers : (leftBy x m).host.ledgers = m.host.ledgers := congrArg Prod.fst hsame
    have herror : (leftBy x m).progress.error = m.progress.error := congrArg Prod.snd hsame
    rw [herror, if_neg fun h => h.2 h.1]
    exact hledgers
  · rw [if_pos ⟨hnone, hsome⟩]
    exact hpost

/-! ## Parts that count nothing -/

theorem record_onMemory (act : MemoryM α) : Keeps Machine.record (onMemory act) := by
  intro m
  rw [leftBy_onMemory]
  rfl

theorem record_makeToken (kind : TokenKind) (value : Option Text) (start : Nat) :
    Keeps Machine.record (s.makeToken kind value start) := fun _ => rfl

theorem record_makeEnd (kind : TokenKind) : Keeps Machine.record (s.makeEnd kind) := fun _ => rfl

theorem record_emit (lexeme : Lexeme) : Keeps Machine.record (s.emit lexeme) := by
  have hstore : Keeps Machine.record (s.storeValue lexeme.payload) := by
    cases lexeme.payload with
    | absent | fixed text => exact keeps_pure _
    | copied text => exact (record_onMemory _).bind fun _ => keeps_pure _
  refine Keeps.bind (fun _ => rfl) fun p => Keeps.bind (fun _ => rfl) fun _ => ?_
  exact hstore.bind fun value => record_makeToken _ value _

theorem record_enterQuoted : Keeps Machine.record s.enterQuoted :=
  (record_onMemory _).bind fun _ => fun _ => rfl

theorem record_leaveQuoted : Keeps Machine.record s.leaveQuoted :=
  keeps_leaveQuoted fun _ _ _ _ => rfl

theorem record_collectRun (b : BufferId) (run : Text) :
    Keeps Machine.record (collectRun b run) := by
  unfold collectRun
  split
  · exact keeps_pure _
  · exact Keeps.bind (fun _ => rfl) fun _ => record_onMemory _

/-! ## Parts that fail only where an allocator does -/

theorem makeToken_isAllocation (kind : TokenKind) (value : Option Text) (start : Nat) :
    FailsOnly Failure.IsAllocation (s.makeToken kind value start) :=
  failsOnly_progress.bind fun _ => (failsOnly_modify _).bind fun _ => failsOnly_pure _

theorem makeEnd_isAllocation (kind : TokenKind) :
    FailsOnly Failure.IsAllocation (s.makeEnd kind) :=
  failsOnly_progress.bind fun _ => (failsOnly_modify _).bind fun _ => failsOnly_pure _

theorem emit_isAllocation (lexeme : Lexeme) : FailsOnly Failure.IsAllocation (s.emit lexeme) := by
  have hstore : FailsOnly Failure.IsAllocation (s.storeValue lexeme.payload) := by
    cases lexeme.payload with
    | absent | fixed text => exact failsOnly_pure _
    | copied text => exact (onMemory_isAllocation _).bind fun _ => failsOnly_pure _
  refine failsOnly_progress.bind fun p => (failsOnly_modify _).bind fun _ => ?_
  exact hstore.bind fun value => makeToken_isAllocation _ value _

theorem collectRun_isAllocation (b : BufferId) (run : Text) :
    FailsOnly Failure.IsAllocation (collectRun b run) := by
  unfold collectRun
  split
  · exact failsOnly_pure _
  · exact (failsOnly_modify _).bind fun _ => onMemory_isAllocation _

theorem recordError_isAllocation (complaint : String) :
    FailsOnly Failure.IsAllocation (s.recordError complaint) := by
  intro m e m' hr
  obtain ⟨h', hrun, -⟩ := recordError_run s complaint m.progress m.host
  rw [hrun] at hr
  cases hr

theorem readBody_isAllocation (start : Nat) (b : BufferId) (body : Doubled.Body) :
    FailsOnly Failure.IsAllocation (s.readBody start b body) := by
  induction body with
  | pair run rest ih =>
    refine (collectRun_isAllocation b run).bind fun _ => (failsOnly_modify _).bind fun _ => ?_
    exact (onMemory_isAllocation _).bind fun _ => (failsOnly_modify _).bind fun _ => ih
  | closed run =>
    refine (collectRun_isAllocation b run).bind fun _ => (failsOnly_modify _).bind fun _ => ?_
    refine failsOnly_get.bind fun m => (onMemory_isAllocation _).bind fun copy => ?_
    refine s.leaveQuoted_isAllocation.bind fun _ => failsOnly_progress.bind fun p => ?_
    refine (failsOnly_modify _).bind fun _ => ?_
    exact (makeToken_isAllocation _ _ _).bind fun token =>
      (failsOnly_modify _).bind fun _ => failsOnly_pure _
  | unclosed run =>
    refine (collectRun_isAllocation b run).bind fun _ => (failsOnly_modify _).bind fun _ => ?_
    refine (failsOnly_modify _).bind fun _ => (recordError_isAllocation _).bind fun _ => ?_
    exact s.leaveQuoted_isAllocation.bind fun _ => failsOnly_progress.bind fun p => failsOnly_pure _

theorem readStandby_isAllocation : FailsOnly Failure.IsAllocation s.readStandby := by
  refine (failsOnly_modify _).bind fun _ => failsOnly_progress.bind fun p => ?_
  dsimp only
  cases Standby.Reading.read (s.source.drop p.pos) with
  | atEnd => exact makeEnd_isAllocation _
  | lexeme lexeme => exact emit_isAllocation lexeme
  | quoted body =>
    refine (failsOnly_modify _).bind fun _ => (failsOnly_modify _).bind fun _ => ?_
    refine FailsOnly.bind ?_ fun b => (failsOnly_modify _).bind fun _ => ?_
    · exact (onMemory_isAllocation _).bind fun _ => (failsOnly_modify _).bind fun _ =>
        failsOnly_pure _
    · exact readBody_isAllocation _ b body

/-! ## Recording errors -/

/-- What is recorded of an error, and what an action has to be counted for that records it. -/
theorem recordError_left (s : Scanner) (complaint : String) (m : Machine) :
    (leftBy (s.recordError complaint) m).host.ledgers =
        (if m.progress.error = none then Deed.kept.post s.ledger m.host.ledgers
          else m.host.ledgers) ∧
      s.recordDeeds complaint m = if m.progress.error = none then [.kept] else [] := by
  obtain ⟨p, h⟩ := m
  rw [leftBy, recordDeeds, recordError, run_bind_ok (noteError_run complaint p h)]
  cases p.error with
  | some d => exact ⟨rfl, rfl⟩
  | none => exact ⟨Ledger.ledgers_account s.ledger _ h, rfl⟩

theorem ledgers_recordError (s : Scanner) (complaint : String) (m : Machine) :
    (leftBy (s.recordError complaint) m).host.ledgers =
      (s.recordDeeds complaint m).foldl (Deed.post s.ledger) m.host.ledgers := by
  obtain ⟨hledgers, hdeeds⟩ := s.recordError_left complaint m
  rw [hledgers, hdeeds]
  split <;> rfl

theorem notesOnce_recordError (s : Scanner) (complaint : String) :
    Moves Machine.record (NotesOnce s.ledger) (s.recordError complaint) := by
  intro m
  obtain ⟨hledgers, -⟩ := s.recordError_left complaint m
  obtain ⟨h', hr, -⟩ := recordError_run s complaint m.progress m.host
  have herror : (leftBy (s.recordError complaint) m).progress.error =
      m.progress.error.or (some ⟨complaint, m.progress.lastText⟩) := by rw [leftBy_of_ok hr]
  cases hnone : m.progress.error with
  | some d =>
    rw [hnone] at hledgers herror
    exact .inl (Prod.ext hledgers (herror.trans hnone.symm))
  | none =>
    rw [hnone] at hledgers herror
    exact .inr ⟨hnone, by rw [Machine.record, herror]; nofun, hledgers⟩

/-! ## Reading a token -/

theorem notesOnce_readBody (start : Nat) (b : BufferId) (body : Doubled.Body) :
    Moves Machine.record (NotesOnce s.ledger) (s.readBody start b body) := by
  induction body with
  | pair run rest ih =>
    refine notesOnce_after (record_collectRun b run) fun _ => ?_
    refine notesOnce_after (fun _ => rfl) fun _ => ?_
    exact notesOnce_after (record_onMemory _) fun _ => notesOnce_after (fun _ => rfl) fun _ => ih
  | closed run =>
    refine notesOnce_of_keeps ((record_collectRun b run).bind fun _ => Keeps.bind (fun _ => rfl) ?_)
    refine fun _ => keeps_get.bind fun m => (record_onMemory _).bind fun copy => ?_
    exact record_leaveQuoted.bind fun _ => fun _ => rfl
  | unclosed run =>
    refine notesOnce_after (record_collectRun b run) fun _ => ?_
    refine notesOnce_after (fun _ => rfl) fun _ => notesOnce_after (fun _ => rfl) fun _ => ?_
    refine Moves.bind NotesOnce.trans (s.notesOnce_recordError _) fun _ => notesOnce_of_keeps ?_
    exact record_leaveQuoted.bind fun _ => fun _ => rfl

theorem postsErrors_readStandby (s : Scanner) : PostsErrors s.ledger s.readStandby := by
  refine postsErrors_of_notesOnce ?_ readStandby_isAllocation
  refine notesOnce_after (fun _ => rfl) fun _ => notesOnce_after (fun _ => rfl) fun p => ?_
  dsimp only
  cases Standby.Reading.read (s.source.drop p.pos) with
  | atEnd => exact notesOnce_of_keeps (record_makeEnd _)
  | lexeme lexeme => exact notesOnce_of_keeps (record_emit lexeme)
  | quoted body =>
    refine notesOnce_after (fun _ => rfl) fun _ => notesOnce_after (fun _ => rfl) fun _ => ?_
    exact notesOnce_after record_enterQuoted fun b => notesOnce_after (fun _ => rfl) fun _ =>
      notesOnce_readBody _ b body

theorem postsErrors_refuse (s : Scanner) (c : Char) : PostsErrors s.ledger (s.refuse c) := by
  intro m
  have herror : (leftBy (s.refuse c) m).progress.error = m.progress.error := rfl
  have hdeeds : errorDeeds (s.refuse c) m = [.refused] := by
    rw [errorDeeds, herror, if_neg fun h => h.2 h.1]
    rfl
  rw [hdeeds]
  exact Ledger.ledgers_account s.ledger _ m.host

/-- What neither fails nor changes anything may be done first. -/
theorem postsErrors_after {β : Type} {f : α → ScanM β}
    (hx : ∀ m, ∃ a m', x m = .ok a m' ∧ m'.record = m.record) (hf : ∀ a, PostsErrors l (f a)) :
    PostsErrors l (x >>= f) := by
  intro m
  obtain ⟨a, m', hr, hrecord⟩ := hx m
  have hledgers : m'.host.ledgers = m.host.ledgers := congrArg Prod.fst hrecord
  have herror : m'.progress.error = m.progress.error := congrArg Prod.snd hrecord
  have hdeeds : errorDeeds (x >>= f) m = errorDeeds (f a) m' := by
    rw [errorDeeds, leftBy_bind_ok hr, run_bind_ok hr, errorDeeds, herror]
  rw [leftBy_bind_ok hr, hdeeds, ← hledgers]
  exact hf a m'

theorem postsErrors_readBootstrap (s : Scanner) : PostsErrors s.ledger s.readBootstrap := by
  refine postsErrors_after (fun m => ⟨(), _, rfl, rfl⟩) fun _ => ?_
  refine postsErrors_after (fun m => ⟨_, _, rfl, rfl⟩) fun p => ?_
  dsimp only
  cases Bootstrap.Reading.read (s.source.drop p.pos) with
  | atEnd =>
    exact postsErrors_of_notesOnce (notesOnce_of_keeps (record_makeEnd _)) (makeEnd_isAllocation _)
  | illegal c => exact s.postsErrors_refuse c
  | lexeme lexeme =>
    refine postsErrors_of_notesOnce (notesOnce_of_keeps ?_) ?_
    · exact (record_emit lexeme).bind fun token => fun _ => rfl
    · exact (emit_isAllocation lexeme).bind fun token =>
        (failsOnly_modify _).bind fun _ => failsOnly_pure _

theorem postsErrors_readToken (s : Scanner) : PostsErrors s.ledger s.readToken := by
  rw [readToken]
  split
  · exact s.postsErrors_readBootstrap
  · exact s.postsErrors_readStandby
  · intro m
    have hdeeds : errorDeeds (throw .noRules : ScanM Token) m = [] := by
      show (if m.progress.error = none ∧ m.progress.error ≠ none then [Deed.kept] else []) ++
        [] = []
      rw [if_neg fun h => h.2 h.1, List.append_nil]
    rw [hdeeds]
    rfl

/-! ## Pulls -/

/-- A token that is read is counted, unless it is the end token, and given. -/
theorem pull_of_read {token : Token} (hopen : m.progress.closed = false)
    (hr : s.readToken m = .ok token m') :
    ∃ m'', s.pull m = .ok token m'' ∧ m''.progress = m'.progress ∧
      m''.host.ledgers = (tokenDeeds token).foldl (Deed.post s.ledger) m'.host.ledgers := by
  rw [pull, run_bind_ok (progress_run m), if_neg (by simp [hopen]), tokenDeeds]
  have hcounted := Ledger.ledgers_account s.ledger Ledger.countToken m'.host
  let counted : Host := m'.host.account s.ledger Ledger.countToken
  let traced : Event := .tokenRead s.name token
  cases hk : token.kind.isEnd <;> cases ht : s.tracing
  · exact ⟨⟨m'.progress, counted⟩, (run_bind_ok hr).trans (by simp only [hk]; rfl), rfl, hcounted⟩
  · exact ⟨⟨m'.progress, counted.report traced⟩,
      (run_bind_ok hr).trans (by simp only [hk]; rfl), rfl, hcounted⟩
  · exact ⟨m', (run_bind_ok hr).trans (by simp only [hk]; rfl), rfl, rfl⟩
  · exact ⟨⟨m'.progress, m'.host.report traced⟩,
      (run_bind_ok hr).trans (by simp only [hk]; rfl), rfl, rfl⟩

theorem pullDeeds_of_closed (hc : m.progress.closed = true) : s.pullDeeds m = [] := by
  have hr : s.pull m = .error (.scannerClosed s.name) m := pull_of_closed hc
  rw [pullDeeds, errorDeeds, leftBy_of_error hr, hr, if_neg fun h => h.2 h.1]
  rfl

theorem ledgers_pull (s : Scanner) (m : Machine) :
    (leftBy s.pull m).host.ledgers = (s.pullDeeds m).foldl (Deed.post s.ledger) m.host.ledgers := by
  cases hc : m.progress.closed with
  | true =>
    rw [pullDeeds_of_closed hc, leftBy_of_error (pull_of_closed hc)]
    rfl
  | false =>
    have hread := s.postsErrors_readToken m
    cases hr : s.readToken m with
    | error e m' =>
      have hpull : s.pull m = .error e m' := by
        rw [pull, run_bind_ok (progress_run m), if_neg (by simp [hc])]
        exact run_bind_error hr
      have hdeeds : errorDeeds s.pull m = errorDeeds s.readToken m := by
        rw [errorDeeds, leftBy_of_error hpull, hpull, errorDeeds, leftBy_of_error hr, hr]
      rw [pullDeeds, hdeeds, hpull, List.append_nil, ← hread, leftBy_of_error hpull,
        leftBy_of_error hr]
    | ok token m' =>
      obtain ⟨m'', hpull, hprogress, hledgers⟩ := pull_of_read hc hr
      have hdeeds : errorDeeds s.pull m = errorDeeds s.readToken m := by
        rw [errorDeeds_of_ok hpull, errorDeeds_of_ok hr, hprogress]
      rw [pullDeeds, hdeeds, hpull, List.foldl_append, ← hread, leftBy_of_ok hpull,
        leftBy_of_ok hr]
      exact hledgers

theorem ledgers_collectUpTo (s : Scanner) (n : Nat) (m : Machine) :
    (leftBy (s.collectUpTo n) m).host.ledgers =
      (s.pullsDeeds n m).foldl (Deed.post s.ledger) m.host.ledgers := by
  induction n generalizing m with
  | zero => rfl
  | succ n ih =>
    have hpulled := s.ledgers_pull m
    rw [pullsDeeds, List.foldl_append, ← hpulled, collectUpTo]
    cases hr : s.pull m with
    | error e m' =>
      rw [leftBy_bind_error hr, leftBy_of_error hr]
      rfl
    | ok token m' =>
      rw [leftBy_bind_ok hr, leftBy_of_ok hr]
      dsimp only
      split
      · rfl
      · rw [leftBy_bind_pure]
        exact ih m'

end Scanner

end MiniLex
