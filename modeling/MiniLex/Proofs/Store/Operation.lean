import MiniLex.Proofs.Run
import MiniLex.Store.Bulk
import MiniLex.Store.Stream

/-!
# What a program does

A program uses scans, streams, allocators and buffers by operations
(`Operation`), any number of them and in any order. An operation that fails
keeps what it has changed, and the program goes on from there (`Store.after`).
What each operation of a program preserves, the program does:
`Store.after_induction`.
-/

namespace MiniLex

/-- What a program does with a scan that it has started. -/
inductive Handling where
  | pull
  | collect
  /-- An error of a standby scan, which is counted and logged. -/
  | recordError (complaint : String)
  /-- An error of any scan, which is neither counted nor logged. -/
  | noteError (complaint : String)
  | enterQuoted
  | leaveQuoted
  | release
  | close
  | finish
  deriving DecidableEq

/-- What a program does. All things that an operation is about are given by their identifiers. -/
inductive Operation where
  -- Allocators and buffers
  | newHeap
  | newArena (name : String)
  | newRecorder (refuses : List Entry → Call → Bool)
  | allocate (a : AllocatorId) (capacity : Int)
  | grow (a : AllocatorId) (b : BufferId) (needed : Int)
  | clone (a : AllocatorId) (text : Text)
  | release (a : AllocatorId) (b : BufferId)
  | acquireContext (a : AllocatorId) (i : ScanId)
  | releaseContext (a : AllocatorId) (i : ScanId)
  | releaseAll (a : AllocatorId)
  | closeArena (a : AllocatorId)
  | enterArena (a : AllocatorId)
  /-- A buffer that its allocator does not know of. -/
  | newBuffer (a : AllocatorId) (capacity : Int)
  | append (b : BufferId) (text : Text)
  | clear (b : BufferId)
  /-- A buffer is marked given back without its allocator. -/
  | markReleased (b : BufferId)
  -- Scans, streams and ledgers
  | start (e : Ambient) (rules : Option Language) (r : Store.Request)
  | tokenize (e : Ambient) (l : Language) (r : Store.Request)
  | handle (i : ScanId) (h : Handling)
  | openStream (i : ScanId)
  | pullStream (t : StreamId)
  | addLedger
  | count (l : LedgerId) (entry : LedgerEntry)

/-- Handling a scan, without the result. -/
def Handling.act (h : Handling) (s : Scanner) : ScanM Unit :=
  match h with
  | pull => do let _ ← s.pull; return
  | collect => do let _ ← s.collect; return
  | recordError complaint => do let _ ← s.recordError complaint; return
  | noteError complaint => do let _ ← Scanner.noteError complaint; return
  | enterQuoted => do let _ ← s.enterQuoted; return
  | leaveQuoted => s.leaveQuoted
  | release => s.release
  | close => s.close
  | finish => do let _ ← s.finish; return

namespace Operation

/-- Doing an operation, without the result. -/
def perform : Operation → StoreM Unit
  | newHeap => do let _ ← Store.onMemory (Memory.addAllocator .heap); return
  | newArena name => do let _ ← Store.onMemory (Memory.addAllocator (.arena (.fresh name))); return
  | newRecorder refuses => do
    let _ ← Store.onMemory (Memory.addAllocator (.recorder (.fresh refuses)))
    return
  | allocate a capacity => do let _ ← Store.onMemory (Memory.allocate a capacity); return
  | grow a b needed => do let _ ← Store.onMemory (Memory.grow a b needed); return
  | clone a text => do let _ ← Store.onMemory (Memory.clone a text); return
  | release a b => Store.onMemory (Memory.release a b)
  | acquireContext a i => Store.onMemory (Memory.acquireContext a i)
  | releaseContext a i => Store.onMemory (Memory.releaseContext a i)
  | releaseAll a => do let _ ← Store.releaseAll a; return
  | closeArena a => Store.closeArena a
  | enterArena a => Store.enterArena a
  | newBuffer a capacity => do let _ ← Store.onMemory (Memory.addBuffer a capacity); return
  | append b text => Store.onMemory (Memory.append b text)
  | clear b => Store.onMemory (Memory.modifyBuffer b Buffer.clear)
  | markReleased b => Store.onMemory (Memory.modifyBuffer b Buffer.markReleased)
  | start e rules r => do let _ ← Store.start e rules r; return
  | tokenize e l r => do let _ ← Store.tokenize e l r; return
  | handle i h => Store.onScan i h.act
  | openStream i => do let _ ← Store.openStream i; return
  | pullStream t => do let _ ← Store.pullStream t; return
  | addLedger => do let _ ← Store.addLedger; return
  | count l entry => Store.updateHost (Host.account (some l) (Ledger.count entry))

/-- All that an operation mentions is there. -/
def Known (s : Store) : Operation → Prop
  | allocate a _ | clone a _ | releaseAll a | closeArena a | enterArena a | newBuffer a _ =>
    a < s.host.memory.allocators.length
  | grow a b _ | release a b =>
    a < s.host.memory.allocators.length ∧ b < s.host.memory.buffers.length
  | acquireContext a i | releaseContext a i =>
    a < s.host.memory.allocators.length ∧ i < s.scans.length
  | append b _ | clear b | markReleased b => b < s.host.memory.buffers.length
  | start e rules r =>
    (r.scanner e rules s.scans.length).allocator < s.host.memory.allocators.length
  | tokenize e l r =>
    (r.scanner e (some l) s.scans.length).allocator < s.host.memory.allocators.length
  | handle i _ | openStream i => i < s.scans.length
  | pullStream t => t < s.streams.length
  | count l _ => l < s.host.ledgers.length
  | newHeap | newArena _ | newRecorder _ | addLedger => True

instance (s : Store) (op : Operation) : Decidable (op.Known s) := by
  cases op <;> dsimp only [Known] <;> infer_instance

end Operation

namespace Store

/-- The store after operations, each of which may have failed. -/
def after (s : Store) (ops : List Operation) : Store :=
  ops.foldl (fun s op => leftBy op.perform s) s

/-- Each operation of a program is such at the time when it is done. -/
def Along (P : Store → Operation → Prop) : Store → List Operation → Prop
  | _, [] => True
  | s, op :: ops => P s op ∧ Along P (leftBy op.perform s) ops

theorem along_of_forall {P : Store → Operation → Prop} (h : ∀ s op, P s op) (s : Store)
    (ops : List Operation) : Along P s ops := by
  induction ops generalizing s with
  | nil => trivial
  | cons op ops ih => exact ⟨h s op, ih _⟩

theorem Along.mono {P Q : Store → Operation → Prop} (h : ∀ s op, P s op → Q s op) {s : Store}
    {ops : List Operation} (hops : Along P s ops) : Along Q s ops := by
  induction ops generalizing s with
  | nil => trivial
  | cons op ops ih => exact ⟨h s op hops.1, ih hops.2⟩

/-- What each operation of a program preserves, the whole program does. -/
theorem after_induction {P : Store → Operation → Prop} {I : Store → Prop}
    (hstep : ∀ s op, P s op → I s → I (leftBy op.perform s)) {s : Store} {ops : List Operation}
    (hops : Along P s ops) (hs : I s) : I (s.after ops) := by
  induction ops generalizing s with
  | nil => exact hs
  | cons op ops ih => exact ih hops.2 (hstep s op hops.1 hs)

/-- What every operation preserves, every program does. -/
theorem invariant_after {I : Store → Prop}
    (hstep : ∀ s (op : Operation), I s → I (leftBy op.perform s)) {s : Store}
    (ops : List Operation) (hs : I s) : I (s.after ops) :=
  after_induction (fun s op _ => hstep s op)
    (along_of_forall (P := fun _ _ => True) (fun _ _ => trivial) s ops) hs

end Store

end MiniLex
