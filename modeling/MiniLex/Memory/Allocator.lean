import MiniLex.Memory.Call

/-!
# Buffers and allocators

A buffer accumulates text within a reserved capacity. Allocators hand buffers out and differ in what
they remember:

* the heap remembers nothing;
* an arena remembers which contexts and buffers are in its care and counts the characters it has
  reserved and copied, so that it can give all of them up at once;
* a recorder does the heap's work, but remembers every call that it gets and may refuse some.
-/

namespace MiniLex

/-- A growable accumulator of text. The length of the text is kept beside it. -/
structure Buffer where
  /-- The allocator that grows the buffer. -/
  owner : AllocatorId
  /-- The reserved number of characters; any integer can be asked for. -/
  capacity : Int
  /-- The text accumulated so far. -/
  text : Text
  /-- The number of characters accumulated so far. -/
  length : Nat
  /-- Whether the buffer has been given back; it then holds no text and takes none. -/
  released : Bool
  length_eq : length = text.length
  deriving DecidableEq

namespace Buffer

/-- The capacity of a buffer for which none is asked. -/
def initialCapacity : Int := 64

/-- A new, empty buffer. -/
def fresh (owner : AllocatorId) (capacity : Int) : Buffer :=
  ⟨owner, capacity, [], 0, false, rfl⟩

/-- An identifier that no buffer has reads as an empty buffer that has been given back. -/
instance : Inhabited Buffer := ⟨⟨0, 0, [], 0, true, rfl⟩⟩

/-- The buffer with more text; the capacity stays. -/
def extend (b : Buffer) (t : Text) : Buffer :=
  { b with
    text := b.text ++ t
    length := b.length + t.length
    length_eq := by rw [b.length_eq, List.length_append] }

/-- The buffer without its text; the capacity stays. -/
def clear (b : Buffer) : Buffer := { b with text := [], length := 0, length_eq := rfl }

/-- The buffer once it has been given back. -/
def markReleased (b : Buffer) : Buffer :=
  { b with text := [], length := 0, released := true, length_eq := rfl }

@[simp] theorem text_extend (b : Buffer) (t : Text) : (b.extend t).text = b.text ++ t := rfl

/-- The length need not be compared: it is that of the text. -/
@[ext] theorem ext {b c : Buffer} (howner : b.owner = c.owner) (hcapacity : b.capacity = c.capacity)
    (htext : b.text = c.text) (hreleased : b.released = c.released) : b = c := by
  obtain ⟨_, _, _, _, _, rfl⟩ := b
  obtain ⟨_, _, _, _, _, rfl⟩ := c
  cases howner
  cases hcapacity
  cases htext
  cases hreleased
  rfl

end Buffer

/-- `capacity` doubled until it covers `needed`, but at most `steps` times. -/
def doubledUntil (needed : Nat) : Nat → Nat → Nat
  | 0, capacity => capacity
  | steps + 1, capacity =>
    if needed ≤ capacity then capacity else doubledUntil needed steps (2 * capacity)

/-- The capacity that a buffer grows to: its own, taken as 1 if it is less, doubled until it covers
what is needed. From 1 on, one doubling more than the binary logarithm of the need always does. -/
def grownCapacity (current needed : Int) : Int :=
  doubledUntil needed.toNat (needed.toNat.log2 + 1) (max current 1).toNat

/-- An allocator that answers for a scope and can give up at once all that it handed out. -/
structure Arena where
  /-- The name of the scope. -/
  name : String
  /-- Whether the arena refuses further requests. -/
  closed : Bool
  /-- The scans whose contexts are in its care, the earliest first. -/
  contexts : List ScanId
  /-- The buffers handed out and not given back, the earliest first. -/
  live : List BufferId
  /-- The total capacity handed out to buffers. -/
  charsReserved : Int
  /-- The total length of the texts copied. -/
  charsCloned : Nat
  /-- The number of texts copied. -/
  payloadsCloned : Nat
  deriving DecidableEq

namespace Arena

/-- The name of an arena for which none is given. -/
def defaultName : String := "scan"

/-- A new, open arena. -/
def fresh (name : String) : Arena := ⟨name, false, [], [], 0, 0, 0⟩

/-- Takes a context into care. One that is in care already keeps its place. -/
def addContext (x : Arena) (scan : ScanId) : Arena :=
  if scan ∈ x.contexts then x else { x with contexts := x.contexts ++ [scan] }

/-- Lets a context go. -/
def dropContext (x : Arena) (scan : ScanId) : Arena :=
  { x with contexts := x.contexts.filter (· ≠ scan) }

/-- Hands a new buffer out. -/
def addBuffer (x : Arena) (buffer : BufferId) (capacity : Int) : Arena :=
  { x with live := x.live ++ [buffer], charsReserved := x.charsReserved + capacity }

/-- Takes a buffer back. -/
def dropBuffer (x : Arena) (buffer : BufferId) : Arena :=
  { x with live := x.live.filter (· ≠ buffer) }

/-- Accounts for a change of capacity. -/
def reserve (x : Arena) (change : Int) : Arena :=
  { x with charsReserved := x.charsReserved + change }

/-- Accounts for a copied text. -/
def countClone (x : Arena) (text : Text) : Arena :=
  { x with charsCloned := x.charsCloned + text.length, payloadsCloned := x.payloadsCloned + 1 }

end Arena

/-- A call and whether it was granted. -/
structure Entry where
  call : Call
  granted : Bool
  deriving DecidableEq

/-- An allocator that remembers its calls and refuses those that its policy names. All others it
carries out as the heap does. What the heap and arenas are called for is remembered nowhere. -/
structure Recorder where
  /-- The calls made so far, the latest first. -/
  calls : List Entry
  /-- Whether a call is refused, given the calls before it, the latest first. -/
  refuses : List Entry → Call → Bool

namespace Recorder

/-- A new recorder with this policy. -/
def fresh (refuses : List Entry → Call → Bool) : Recorder := ⟨[], refuses⟩

/-- Remembers a call. -/
def note (r : Recorder) (call : Call) : Recorder :=
  { r with calls := ⟨call, !r.refuses r.calls call⟩ :: r.calls }

/-- The calls made so far, the earliest first. -/
def history (r : Recorder) : List Entry := r.calls.reverse

/-- The policy that refuses the `n`-th call of a method for each method named with a number `n`,
counted from 1. A name or a number that no call has refuses nothing. -/
def refuseNth (plan : List (String × Int)) (before : List Entry) (call : Call) : Bool :=
  plan.any fun p =>
    p.1 = call.method.label ∧ p.2 = (before.countP fun e => e.call.method = call.method) + 1

end Recorder

/-- The kinds of allocators. -/
inductive Allocator where
  | heap
  | arena (x : Arena)
  | recorder (r : Recorder)

end MiniLex
