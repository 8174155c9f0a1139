import MiniLex.Memory.Operations
import MiniLex.Proofs.Run

/-!
# Why operations fail

An operation fails for reasons of its own, so a fault tells which operation it
came from. A refused copy comes from `Memory.clone` and from nothing else that
a scan does with its memory: `allocate_fails`, `append_fails`, `release_fails`.
-/

namespace MiniLex.Memory

/-- A fault that is not the refusal of a copy. -/
def NoCopy (fault : AllocationFault) : Prop := fault ≠ .refused .clone

theorem requireOpen_fails (x : Arena) : FailsOnly NoCopy (requireOpen x) := by
  unfold requireOpen
  split
  · exact failsOnly_throw (by simp [NoCopy])
  · exact failsOnly_pure _

theorem putArena_fails (a : AllocatorId) (x : Arena) : FailsOnly NoCopy (putArena a x) :=
  failsOnly_modify _

/-- A recorder refuses nothing but the call that it is asked to remember. -/
theorem note_fails (a : AllocatorId) (r : Recorder) {call : Call} (hc : call.method ≠ .clone) :
    FailsOnly NoCopy (note a r call) := by
  refine (failsOnly_modify _).bind fun _ => ?_
  split
  · exact failsOnly_throw (by simpa [NoCopy] using hc)
  · exact failsOnly_pure _

theorem modifyBuffer_fails (b : BufferId) (f : Buffer → Buffer) :
    FailsOnly NoCopy (modifyBuffer b f) := failsOnly_modify _

theorem allocate_fails (a : AllocatorId) (capacity : Int) :
    FailsOnly NoCopy (allocate a capacity) := by
  have hadd : FailsOnly NoCopy (addBuffer a capacity) := nofun
  refine failsOnly_get.bind fun m => ?_
  cases m.allocator a with
  | heap => exact hadd
  | arena x => exact (requireOpen_fails x).bind fun _ => (putArena_fails a _).bind fun _ => hadd
  | recorder r => exact (note_fails a r (by simp [Call.method])).bind fun _ => hadd

theorem grow_fails (a : AllocatorId) (b : BufferId) (needed : Int) :
    FailsOnly NoCopy (grow a b needed) := by
  refine failsOnly_get.bind fun m => ?_
  dsimp only
  cases m.allocator a with
  | heap => exact failsOnly_pure _
  | arena x =>
    refine (requireOpen_fails x).bind fun _ => ?_
    split
    · exact failsOnly_throw (by simp [NoCopy])
    · exact (putArena_fails a _).bind fun _ => failsOnly_pure _
  | recorder r => exact (note_fails a r (by simp [Call.method])).bind fun _ => failsOnly_pure _

theorem append_fails (b : BufferId) (text : Text) : FailsOnly NoCopy (append b text) := by
  refine failsOnly_get.bind fun m => ?_
  have hadd := modifyBuffer_fails b fun x => x.extend text
  dsimp only
  split
  · exact failsOnly_throw (by simp [NoCopy])
  split
  · exact failsOnly_pure _
  split
  · refine (grow_fails _ b _).bind fun capacity => ?_
    exact (modifyBuffer_fails b fun x => { x with capacity := capacity }).bind fun _ => hadd
  · exact hadd

theorem release_fails (a : AllocatorId) (b : BufferId) : FailsOnly NoCopy (release a b) := by
  have hmark := modifyBuffer_fails b Buffer.markReleased
  refine failsOnly_get.bind fun m => ?_
  cases m.allocator a with
  | heap => exact hmark
  | arena x => exact (putArena_fails a _).bind fun _ => hmark
  | recorder r => exact (note_fails a r (by simp [Call.method])).bind fun _ => hmark

end MiniLex.Memory
