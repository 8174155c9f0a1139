import MiniLex.Proofs.Scan.Demand
import MiniLex.Proofs.Store.Tending

/-!
# Streams that share a scan

Any number of streams may be opened over one scan, and be pulled in any order
together with the scan itself. They have one cursor, so what they are given in
all is what the scan gives, one answer after the other (`taken_given`): nothing
is lost, and nothing is given twice.

Whether a stream is finished is its own affair. It is once it has given the end
token or has failed (`finished_of_pull`), and stays so whatever the program does
(`Finished.perform`); from then on it gives nothing and changes nothing
(`pullStream_of_finished`). `scan_shared` puts these facts together.
-/

namespace MiniLex

namespace Scanner

variable {s s' : Scanner}

/-- The answers to so many pulls, one after the other, if nothing but the scan determines them. -/
def gives (s : Scanner) : Progress → Nat → List (Except Failure Token)
  | _, 0 => []
  | p, n + 1 => (s.outcome p).answer :: s.gives (s.outcome p).progress n

theorem Alike.outcome_eq (h : s.Alike s') (p : Progress) : s.outcome p = s'.outcome p := by
  obtain ⟨id, rules, source, sourceName, allocator, tracing, ledger⟩ := s
  obtain ⟨id', rules', source', sourceName', allocator', tracing', ledger'⟩ := s'
  obtain ⟨rfl, rfl, rfl⟩ := h
  rfl

theorem Alike.gives_eq (h : s.Alike s') (p : Progress) (n : Nat) : s.gives p n = s'.gives p n := by
  induction n generalizing p with
  | zero => rfl
  | succ n ih => rw [gives, gives, h.outcome_eq, ih]

end Scanner

/-! ## Consumers -/

/-- Who pulls: a stream, or the program itself. -/
abbrev Consumer := Option StreamId

/-- What is given to who pulls: a token, nothing if it is a stream that is finished, or a
failure. -/
abbrev Given := Except Failure (Option Token)

namespace Given

/-- The end token is given. -/
def isEnd : Given → Bool
  | .ok (some token) => token.kind.isEnd
  | .ok none | .error _ => false

/-- A stream to which this is given is finished then: it has got the end token, or has failed. -/
def Finishes : Given → Prop
  | .ok (some token) => token.kind.isEnd = true
  | .ok none => False
  | .error _ => True

/-- What is given, unless it is nothing. -/
def answer? : Given → Option (Except Failure Token)
  | .ok (some token) => some (.ok token)
  | .ok none => none
  | .error failure => some (.error failure)

theorem finishes_of_isEnd {g : Given} (h : g.isEnd = true) : g.Finishes := by
  rcases g with failure | _ | token
  · cases h
  · cases h
  · exact h

end Given

/-- What an action comes to, apart from the state that it leaves. -/
def answerOf {ε σ α : Type} (x : EStateM ε σ α) (m : σ) : Except ε α :=
  match x m with
  | .ok a _ => .ok a
  | .error e _ => .error e

/-- All that is given, without what is nothing. -/
def taken (gs : List (Consumer × Given)) : List (Except Failure Token) :=
  gs.filterMap fun g => g.2.answer?

/-- What is given to a stream. -/
def ofStream (t : StreamId) (gs : List (Consumer × Given)) : List Given :=
  gs.filterMap fun g => if g.1 = some t then some g.2 else none

theorem taken_cons (c : Consumer) (answer : Except Failure Token) (gs : List (Consumer × Given)) :
    taken ((c, answer.map some) :: gs) = answer :: taken gs := by
  cases answer <;> rfl

namespace Store

variable {st st' : Store} {i j : ScanId} {s : Scanner} {p : Progress} {t : StreamId} {g : Given}
  {op : Operation} {ops : List Operation} {streams : List TokenStream}

/-- What an operation gives, and to whom, if it is a pull. -/
def pulled (st : Store) : Operation → Option (Consumer × Given)
  | .handle i .pull => some (none, (answerOf (onScan i Scanner.pull) st).map some)
  | .pullStream t => some (some t, answerOf (pullStream t) st)
  | _ => none

/-- What a program gives, and to whom, in the order of its pulls. -/
def given (st : Store) : List Operation → List (Consumer × Given)
  | [] => []
  | op :: ops => (st.pulled op).toList ++ given (leftBy op.perform st) ops

/-- A scan is consumed: a stream is opened over it, or it is pulled, by itself or through a stream. -/
def Consumes (i : ScanId) (st : Store) : Operation → Prop
  | .openStream j => j = i
  | .handle j h => j = i ∧ h = .pull
  | .pullStream t => (st.stream t).scan = i
  | _ => False

/-- A scan has this scanner and is at this point, and its allocator never fails. -/
structure IsAt (st : Store) (i : ScanId) (s : Scanner) (p : Progress) : Prop where
  valid : i < st.scans.length
  scan : st.scan i = ⟨s, p⟩
  serves : st.host.memory.Serves s.allocator

theorem IsAt.of_same (h : IsAt st i s p) (hscans : st'.scans = st.scans)
    (hhost : st'.host = st.host) : IsAt st' i s p where
  valid := by rw [hscans]; exact h.valid
  scan := by rw [Store.scan, hscans]; exact h.scan
  serves := by rw [hhost]; exact h.serves

/-! ## One pull -/

/-- A pull of the scan answers and leaves what the scan determines. -/
theorem IsAt.pull (h : IsAt st i s p) :
    ∃ st', IsAt st' i s (s.outcome p).progress ∧ st'.streams = st.streams ∧
      ((∃ token, (s.outcome p).answer = .ok token ∧
          onScan i Scanner.pull st = .ok token st') ∨
        ∃ failure, (s.outcome p).answer = .error failure ∧
          onScan i Scanner.pull st = .error failure st') := by
  obtain ⟨h', hr, hs'⟩ := Scanner.pull_run (h := st.host) h.serves p
  refine ⟨st.putMachine i ⟨(s.outcome p).progress, h'⟩, ⟨?_, ?_, hs'⟩, rfl, ?_⟩
  · rw [length_putMachine]
    exact h.valid
  · rw [scan_putMachine_self _ h.valid, h.scan]
  · rw [Outcome.on] at hr
    cases ha : (s.outcome p).answer with
    | ok token =>
      rw [ha] at hr
      exact .inl ⟨token, rfl, onScan_run (by rw [h.scan]; exact hr)⟩
    | error failure =>
      rw [ha] at hr
      exact .inr ⟨failure, rfl, onScan_error (by rw [h.scan]; exact hr)⟩

theorem IsAt.pulled_directly (h : IsAt st i s p) :
    st.pulled (.handle i .pull) = some (none, (s.outcome p).answer.map some) ∧
      IsAt (leftBy (Operation.handle i .pull).perform st) i s (s.outcome p).progress := by
  obtain ⟨st', h', -, ⟨token, ha, hr⟩ | ⟨failure, ha, hr⟩⟩ := h.pull
  · rw [Operation.perform, leftBy_handle_pull, leftBy_of_ok hr, pulled, answerOf, hr, ha]
    exact ⟨rfl, h'⟩
  · rw [Operation.perform, leftBy_handle_pull, leftBy_of_error hr, pulled, answerOf, hr, ha]
    exact ⟨rfl, h'⟩

/-- A stream that is finished gives nothing, and nothing changes. -/
theorem pullStream_of_finished (h : (st.stream t).finished = true) :
    pullStream t st = .ok none st := by
  rw [pullStream, run_bind_get]
  dsimp only
  rw [if_pos h]
  rfl

/-- The store once a stream is finished. -/
def finish (st : Store) (t : StreamId) : Store :=
  { st with streams := st.streams.modify t fun x => { x with finished := true } }

theorem pullStream_of_token {token : Token} (h : (st.stream t).finished = false)
    (hr : onScan (st.stream t).scan Scanner.pull st = .ok token st') :
    pullStream t st = .ok (some token) (if token.kind.isEnd then st'.finish t else st') := by
  rw [pullStream, run_bind_get]
  dsimp only
  rw [if_neg (by simp [h])]
  simp only [bind, EStateM.bind, run_tryCatch, hr]
  cases hk : token.kind.isEnd <;> rfl

theorem pullStream_of_failure {failure : Failure} (h : (st.stream t).finished = false)
    (hr : onScan (st.stream t).scan Scanner.pull st = .error failure st') :
    pullStream t st = .error failure (st'.finish t) := by
  rw [pullStream, run_bind_get]
  dsimp only
  rw [if_neg (by simp [h])]
  refine run_bind_error ?_
  rw [run_tryCatch, run_bind_error hr]
  rfl

/-- A stream that is not finished leaves of the scans and of the host what a pull of its scan
does. -/
theorem leftBy_pullStream (h : (st.stream t).finished = false) :
    (leftBy (pullStream t) st).scans = (leftBy (onScan (st.stream t).scan Scanner.pull) st).scans ∧
      (leftBy (pullStream t) st).host =
        (leftBy (onScan (st.stream t).scan Scanner.pull) st).host := by
  cases hr : onScan (st.stream t).scan Scanner.pull st with
  | ok token st' =>
    rw [leftBy_of_ok (pullStream_of_token h hr), leftBy_of_ok hr]
    split <;> exact ⟨rfl, rfl⟩
  | error failure st' =>
    rw [leftBy_of_error (pullStream_of_failure h hr), leftBy_of_error hr]
    exact ⟨rfl, rfl⟩

/-- A stream gives what its scan gives, as long as it is not finished. -/
theorem IsAt.pulled_through (h : IsAt st (st.stream t).scan s p)
    (hunfinished : (st.stream t).finished = false) :
    st.pulled (.pullStream t) = some (some t, (s.outcome p).answer.map some) ∧
      IsAt (leftBy (Operation.pullStream t).perform st) (st.stream t).scan s
        (s.outcome p).progress := by
  rw [Operation.perform, leftBy_bind_return]
  obtain ⟨st', h', -, ⟨token, ha, hr⟩ | ⟨failure, ha, hr⟩⟩ := h.pull
  · have hpull := pullStream_of_token hunfinished hr
    rw [leftBy_of_ok hpull, pulled, answerOf, hpull, ha]
    refine ⟨rfl, ?_⟩
    split
    · exact h'.of_same rfl rfl
    · exact h'
  · have hpull := pullStream_of_failure hunfinished hr
    rw [leftBy_of_error hpull, pulled, answerOf, hpull, ha]
    exact ⟨rfl, h'.of_same rfl rfl⟩

/-! ## What all consumers are given -/

/-- Whoever pulls, the scan gives one answer after the other. -/
theorem IsAt.taken_given (h : IsAt st i s p) (hops : Along (Consumes i) st ops) :
    taken (st.given ops) = s.gives p (taken (st.given ops)).length := by
  induction ops generalizing st p with
  | nil => rfl
  | cons op ops ih =>
    obtain ⟨hop, hrest⟩ := hops
    have hstep : (st.pulled op = some (none, (s.outcome p).answer.map some) ∨
        ∃ t, st.pulled op = some (some t, (s.outcome p).answer.map some)) →
        IsAt (leftBy op.perform st) i s (s.outcome p).progress →
        taken (st.given (op :: ops)) = s.gives p (taken (st.given (op :: ops))).length := by
      intro hpulled h'
      have hlater := ih h' hrest
      have htaken : taken (st.given (op :: ops)) =
          (s.outcome p).answer :: taken ((leftBy op.perform st).given ops) := by
        rcases hpulled with hpulled | ⟨t, hpulled⟩ <;> rw [given, hpulled] <;>
          exact taken_cons _ _ _
      rw [htaken, List.length_cons, Scanner.gives, ← hlater]
    cases op with
    | openStream j =>
      have hgiven : st.given (.openStream j :: ops) =
        (leftBy (Operation.openStream j).perform st).given ops := rfl
      rw [hgiven]
      exact ih (h.of_same rfl rfl) hrest
    | handle j hd =>
      obtain ⟨rfl, rfl⟩ := hop
      exact hstep (.inl h.pulled_directly.1) h.pulled_directly.2
    | pullStream t =>
      obtain rfl : (st.stream t).scan = i := hop
      cases hfinished : (st.stream t).finished with
      | true =>
        have hr := pullStream_of_finished hfinished
        have hleft : leftBy (Operation.pullStream t).perform st = st := by
          rw [Operation.perform, leftBy_bind_return, leftBy_of_ok hr]
        have hgiven : taken (st.given (.pullStream t :: ops)) = taken (st.given ops) := by
          rw [given, pulled, answerOf, hr, hleft]
          rfl
        rw [hleft] at hrest
        rw [hgiven]
        exact ih h hrest
      | false =>
        obtain ⟨hpulled, h'⟩ := h.pulled_through hfinished
        exact hstep (.inr ⟨t, hpulled⟩) h'
    | _ => exact hop.elim

/-- Direct pulls only. -/
theorem length_taken_given (i : ScanId) (n : Nat) (st : Store) :
    (taken (st.given (List.replicate n (.handle i .pull)))).length = n := by
  induction n generalizing st with
  | zero => rfl
  | succ n ih =>
    rw [List.replicate_succ, given, pulled, Option.toList_some, List.singleton_append, taken_cons,
      List.length_cons, ih]

theorem along_replicate (i : ScanId) (n : Nat) (st : Store) :
    Along (Consumes i) st (List.replicate n (.handle i .pull)) := by
  induction n generalizing st with
  | zero => trivial
  | succ n ih => exact ⟨⟨rfl, rfl⟩, ih _⟩

/-! ## Streams that are finished -/

/-- There is this stream, and it is finished. -/
def Finished (t : StreamId) (st : Store) : Prop := ∃ i, st.streams[t]? = some ⟨i, true⟩

theorem Finished.stream (h : Finished t st) : (st.stream t).finished = true := by
  obtain ⟨i, hi⟩ := h
  simp [Store.stream, hi]

theorem Finished.of_streams (h : Finished t st) (hstreams : st'.streams = st.streams) :
    Finished t st' := by rwa [Finished, hstreams]

/-- Streams concern nobody else. -/
theorem persists_streams : Persists fun st => st.streams = streams where
  release i st h := by rwa [leftBy_onScan]
  setArena _ _ h := h
  markReleased _ h := h
  report _ _ h := h

theorem streams_onScan {α : Type} (i : ScanId) (act : Scanner → ScanM α) :
    Keeps Store.streams (onScan i act) := by
  intro st
  rw [leftBy_onScan]
  rfl

theorem streams_start (e : Ambient) (rules : Option Language) (r : Request) :
    Keeps Store.streams (start e rules r) := by
  have hmemory (act : MemoryM Unit) : Keeps Store.streams (onMemory act) := by
    intro st
    rw [leftBy_onMemory]
    rfl
  exact keeps_get.bind fun _ => (hmemory _).bind fun _ => Keeps.bind (fun _ => rfl) fun _ =>
    Keeps.bind (fun _ => rfl) fun _ => Keeps.bind (fun _ => rfl) fun _ => keeps_pure _

theorem streams_tokenize (e : Ambient) (l : Language) (r : Request) :
    Keeps Store.streams (tokenize e l r) := by
  refine (streams_start e (some l) r).bind fun i st => ?_
  rw [leftBy_tryFinally]
  exact (streams_onScan i Scanner.collect st).trans (streams_onScan i Scanner.close _)

theorem finished_finish (ht : t < st.streams.length) : Finished t (st.finish t) := by
  refine ⟨st.streams[t].scan, ?_⟩
  simp [finish, ht]

theorem Finished.finish (h : Finished t st) (t' : StreamId) : Finished t (st.finish t') := by
  obtain ⟨i, hi⟩ := h
  refine ⟨i, ?_⟩
  rw [Store.finish, List.getElem?_modify, hi]
  split <;> rfl

theorem lt_of_unfinished (h : (st.stream t).finished = false) : t < st.streams.length := by
  refine Nat.lt_of_not_le fun hle => ?_
  have hnone : st.stream t = default := by simp [Store.stream, hle]
  rw [hnone] at h
  cases h

/-- What a stream that is pulled leaves of the streams. -/
theorem pullStream_cases (t : StreamId) (st : Store) :
    (pullStream t st = .ok none st ∧ (st.stream t).finished = true) ∨
    ∃ st', st'.streams = st.streams ∧ t < st.streams.length ∧
      ((∃ token, pullStream t st =
          .ok (some token) (if token.kind.isEnd then st'.finish t else st')) ∨
        ∃ failure, pullStream t st = .error failure (st'.finish t)) := by
  cases hfinished : (st.stream t).finished with
  | true => exact .inl ⟨pullStream_of_finished hfinished, rfl⟩
  | false =>
    have hkept := streams_onScan (st.stream t).scan Scanner.pull st
    have ht := lt_of_unfinished hfinished
    cases hr : onScan (st.stream t).scan Scanner.pull st with
    | ok token st' =>
      rw [leftBy_of_ok hr] at hkept
      exact .inr ⟨st', hkept.symm, ht, .inl ⟨token, pullStream_of_token hfinished hr⟩⟩
    | error failure st' =>
      rw [leftBy_of_error hr] at hkept
      exact .inr ⟨st', hkept.symm, ht, .inr ⟨failure, pullStream_of_failure hfinished hr⟩⟩

/-- A stream that gives the end token or fails is finished then. -/
theorem finished_of_pull (h : Given.Finishes (answerOf (pullStream t) st)) :
    Finished t (leftBy (Operation.pullStream t).perform st) := by
  rw [Operation.perform, leftBy_bind_return]
  rw [answerOf] at h
  obtain ⟨hr, -⟩ | ⟨st', hstreams, ht, ⟨token, hr⟩ | ⟨failure, hr⟩⟩ := pullStream_cases t st
  · rw [hr] at h
    exact h.elim
  · rw [hr] at h
    have hk : token.kind.isEnd = true := h
    rw [leftBy_of_ok hr, if_pos hk]
    exact finished_finish (by rwa [hstreams])
  · rw [leftBy_of_error hr]
    exact finished_finish (by rwa [hstreams])

/-- A stream that is finished stays so, whatever a program does. -/
theorem Finished.perform (h : Finished t st) (op : Operation) :
    Finished t (leftBy op.perform st) := by
  have hhand (hop : op.IsByHand) : Finished t (leftBy op.perform st) := by
    obtain ⟨m, hleft⟩ := Operation.leftBy_byHand st hop
    rw [hleft]
    exact h.of_streams rfl
  cases op with
  | openStream i =>
    obtain ⟨j, hj⟩ := h
    have hlt := (List.getElem?_eq_some_iff.mp hj).1
    exact ⟨j, (List.getElem?_append_left hlt).trans hj⟩
  | pullStream t' =>
    rw [Operation.perform, leftBy_bind_return]
    obtain ⟨hr, -⟩ | ⟨st', hstreams, -, ⟨token, hr⟩ | ⟨failure, hr⟩⟩ := pullStream_cases t' st
    · rwa [leftBy_of_ok hr]
    · rw [leftBy_of_ok hr]
      split
      · exact (h.of_streams hstreams).finish t'
      · exact h.of_streams hstreams
    · rw [leftBy_of_error hr]
      exact (h.of_streams hstreams).finish t'
  | releaseAll a =>
    rw [Operation.perform, leftBy_bind_return]
    exact h.of_streams (persists_streams.releaseAll a st rfl)
  | closeArena a => exact h.of_streams (persists_streams.closeArena a st rfl)
  | enterArena a => rwa [Operation.perform, leftBy_enterArena]
  | start e rules r =>
    rw [Operation.perform, leftBy_bind_return]
    exact h.of_streams (streams_start e rules r st).symm
  | tokenize e l r =>
    rw [Operation.perform, leftBy_bind_return]
    exact h.of_streams (streams_tokenize e l r st).symm
  | handle i hd => exact h.of_streams (streams_onScan i hd.act st).symm
  | addLedger | count => exact h.of_streams rfl
  | _ => exact hhand trivial

theorem Finished.after (h : Finished t st) (ops : List Operation) : Finished t (st.after ops) :=
  invariant_after (fun _ op h => h.perform op) ops h

/-! ## What one stream is given -/

theorem ofStream_given_pullStream (t : StreamId) (st : Store) (ops : List Operation) :
    ofStream t (st.given (.pullStream t :: ops)) = answerOf (pullStream t) st ::
      ofStream t ((leftBy (Operation.pullStream t).perform st).given ops) := by
  rw [given, pulled, Option.toList_some, List.singleton_append, ofStream, List.filterMap_cons,
    if_pos rfl]
  rfl

theorem ofStream_given_cons (h : op ≠ .pullStream t) (st : Store) (ops : List Operation) :
    ofStream t (st.given (op :: ops)) = ofStream t ((leftBy op.perform st).given ops) := by
  have hothers : ofStream t (st.pulled op).toList = [] := by
    unfold pulled
    split
    · rfl
    · rename_i t'
      have hne : some t' ≠ some t := fun heq => h (by rw [Option.some.inj heq])
      rw [Option.toList_some, ofStream, List.filterMap_cons, if_neg hne, List.filterMap_nil]
    · rfl
  rw [ofStream] at hothers
  rw [given, ofStream, List.filterMap_append, hothers]
  rfl

/-- A stream that is finished is given nothing more. -/
theorem Finished.ofStream_given (h : Finished t st) (ops : List Operation) :
    ∀ g ∈ ofStream t (st.given ops), g = .ok none := by
  induction ops generalizing st with
  | nil => exact fun _ hg => (List.not_mem_nil hg).elim
  | cons op ops ih =>
    by_cases hop : op = .pullStream t
    · subst hop
      rw [ofStream_given_pullStream, answerOf, pullStream_of_finished h.stream]
      exact List.forall_mem_cons.mpr ⟨rfl, ih (h.perform _)⟩
    · rw [ofStream_given_cons hop]
      exact ih (h.perform op)

/-- Once it has been given the end token or a failure, a stream is finished. -/
theorem finished_of_given (h : ∃ g ∈ ofStream t (st.given ops), g.Finishes) :
    Finished t (st.after ops) := by
  induction ops generalizing st with
  | nil =>
    obtain ⟨g, hg, -⟩ := h
    cases hg
  | cons op ops ih =>
    by_cases hop : op = .pullStream t
    · subst hop
      rw [ofStream_given_pullStream] at h
      obtain ⟨g, hg, hfinishes⟩ := h
      rcases List.mem_cons.mp hg with rfl | hg
      · exact (finished_of_pull hfinishes).after ops
      · exact ih ⟨g, hg, hfinishes⟩
    · rw [ofStream_given_cons hop] at h
      exact ih h

theorem countP_isEnd_le_one (t : StreamId) (st : Store) (ops : List Operation) :
    (ofStream t (st.given ops)).countP Given.isEnd ≤ 1 := by
  induction ops generalizing st with
  | nil => exact Nat.zero_le 1
  | cons op ops ih =>
    by_cases hop : op = .pullStream t
    · subst hop
      rw [ofStream_given_pullStream, List.countP_cons]
      split
      · rename_i hend
        have hfinished := finished_of_pull (Given.finishes_of_isEnd hend)
        rw [List.countP_eq_zero.mpr]
        intro g hg
        rw [hfinished.ofStream_given ops g hg]
        exact Bool.false_ne_true
      · exact ih _
    · rw [ofStream_given_cons hop]
      exact ih _

/-- Where the allocator never fails, streams that are opened over a scan at any time and pulled in
any order, together with the scan itself, are given what a scan of the same source gives that nobody
else pulls: nothing is lost, and nothing is given twice. Whatever a program does, closing the scan
included, each stream gives the end token at most once; and once it has given that or has failed, a
pull of it gives nothing and leaves everything as it was. -/
theorem scan_shared {e e' : Ambient} {rules : Option Language} {r r' : Request}
    {st st' : Store} (hsource : r.source = r'.source)
    (hname : r.sourceName.orElse e.config.sourceName = r'.sourceName.orElse e'.config.sourceName)
    (hs : st.host.memory.Serves (r.scanner e rules st.scans.length).allocator)
    (hs' : st'.host.memory.Serves (r'.scanner e' rules st'.scans.length).allocator) :
    ∃ st₁ st₁', start e rules r st = .ok st.scans.length st₁ ∧
      start e' rules r' st' = .ok st'.scans.length st₁' ∧
      (∀ ops, Along (Consumes st.scans.length) st₁ ops →
        taken (st₁.given ops) = taken (st₁'.given
          (List.replicate (taken (st₁.given ops)).length (.handle st'.scans.length .pull)))) ∧
      ∀ ops t, (ofStream t (st₁.given ops)).countP Given.isEnd ≤ 1 ∧
        ((∃ g ∈ ofStream t (st₁.given ops), g.Finishes) →
          pullStream t (st₁.after ops) = .ok none (st₁.after ops)) := by
  obtain ⟨st₁, hstart, hserves⟩ := start_run hs
  obtain ⟨st₁', hstart', hserves'⟩ := start_run hs'
  obtain ⟨-, hscan, hi⟩ := start_ok hstart
  obtain ⟨-, hscan', hi'⟩ := start_ok hstart'
  refine ⟨st₁, st₁', hstart, hstart', fun ops hops => ?_, fun ops t =>
    ⟨countP_isEnd_le_one t st₁ ops, fun h => pullStream_of_finished (finished_of_given h).stream⟩⟩
  have hat : IsAt st₁ st.scans.length _ .initial := ⟨hi, hscan, hserves⟩
  have hat' : IsAt st₁' st'.scans.length _ .initial := ⟨hi', hscan', hserves'⟩
  have halike : (r.scanner e rules st.scans.length).Alike
      (r'.scanner e' rules st'.scans.length) := ⟨rfl, hsource, hname⟩
  rw [hat'.taken_given (along_replicate _ _ _), length_taken_given, ← halike.gives_eq]
  exact hat.taken_given hops

/-- Of two streams, one is given the word and the other the failure at the character behind it. The
scan itself is pulled then and is refused that character too, whereas the stream that has failed is
given nothing. Both streams are pulled again when the scan is closed. -/
theorem scan_shared_refused_character :
    let r : Request := ⟨['a', '+'], none, .nothing⟩
    let ops : List Operation := [.openStream 0, .pullStream 0, .openStream 0, .pullStream 1,
      .pullStream 1, .handle 0 .pull]
    ∃ st₁ st₁', start .initial (some .bootstrap) r initial = .ok 0 st₁ ∧
      start .initial (some .bootstrap) r initial = .ok 0 st₁' ∧
      taken (st₁.given ops) = taken (st₁'.given (List.replicate 3 (.handle 0 .pull))) ∧
      ofStream 0 (st₁.given (ops ++ [.handle 0 .close, .pullStream 0])) =
        [.ok (some ⟨.bootstrap .ident, some ['a'], 0, 1, some 1⟩),
          .error (.scannerClosed "bootstrap")] ∧
      pullStream 1 (st₁.after (ops ++ [.handle 0 .close])) =
        .ok none (st₁.after (ops ++ [.handle 0 .close])) := by
  intro r ops
  obtain ⟨st₁, st₁', hstart, hstart', htaken, hstreams⟩ := @scan_shared .initial .initial
    (some .bootstrap) r r initial initial rfl rfl trivial trivial
  have hst : leftBy (start .initial (some .bootstrap) r) initial = st₁ := leftBy_of_ok hstart
  have hops : Along (Consumes 0) st₁ ops := by
    rw [← hst]
    refine ⟨rfl, ?_, rfl, ?_, ?_, ⟨rfl, rfl⟩, trivial⟩ <;> show (stream _ _).scan = 0 <;>
      decide +kernel
  have hlength : (taken (st₁.given ops)).length = 3 := by
    rw [← hst]
    decide +kernel
  have hgiven : .error (.illegalCharacter 1 '+' .nothing) ∈
      ofStream 1 (st₁.given (ops ++ [.handle 0 .close])) := by
    rw [← hst]
    decide +kernel
  refine ⟨st₁, st₁', hstart, hstart', ?_, ?_, (hstreams _ 1).2 ⟨_, hgiven, trivial⟩⟩
  · have heq := htaken ops hops
    rwa [hlength] at heq
  · rw [← hst]
    decide +kernel

end Store

end MiniLex
