import MiniLex.Ambient
import MiniLex.Memory.Call
import MiniLex.Session.Names

/-!
# Actions of a session

What can be done in a session, with all things referred to by their names. A step of a session is an
action, or a list of steps that run in surroundings of their own.
-/

namespace MiniLex

/-- What a scan is to be started on, with its allocator and its language given by names. -/
structure NamedRequest where
  source : Text
  language : Option String
  allocator : Option String
  sourceName : Setting
  deriving DecidableEq

/-- One thing to do in a session. -/
inductive Action where
  -- Allocators
  | newHeap (a : String)
  | newArena (a : String) (name : Option String)
  /-- A recorder that refuses the numbered calls of the methods named. -/
  | newRecorder (a : String) (plan : List (String × Int))
  | allocate (a b : String) (capacity : Option Int)
  | grow (a b : String) (needed : Int)
  | clone (a : String) (text : Text)
  | release (a b : String)
  | acquireContext (a s : String)
  | releaseContext (a s : String)
  | releaseAll (a : String)
  | closeArena (a : String)
  | enterArena (a : String)
  | showAllocator (a : String)
  -- Buffers
  /-- A buffer that its allocator does not know of. -/
  | newBuffer (a b : String) (capacity : Option Int)
  | append (b : String) (text : Text)
  | build (b : String)
  | clear (b : String)
  | markReleased (b : String)
  -- Scans
  | start (s : String) (request : NamedRequest)
  | startWithoutRules (s : String) (request : NamedRequest)
  | pull (s : String)
  | pullRendered (s : String)
  | collect (s : String)
  | openStream (s i : String)
  | pullStream (i : String)
  | finish (s : String)
  | close (s : String)
  | enter (s : String)
  /-- An error of a standby scan, which is counted and logged. -/
  | recordError (s complaint : String)
  /-- An error of any scan, which is neither counted nor logged. -/
  | noteError (s complaint : String)
  | enterQuoted (s : String) (b : Option String)
  | leaveQuoted (s : String)
  | releaseScan (s : String)
  | showScan (s : String)
  | tokenize (request : NamedRequest)
  -- Surroundings
  | showConfig
  | setConfig (settings : Settings)
  | resetConfig
  | enterConfig (settings : Settings)
  | leaveConfig
  | enterLedger (p : String)
  | leaveLedger
  | showLedger (p : String)
  | nameLedger
  | count (p : String) (entry : LedgerEntry)

/-- A step of a session. -/
inductive Step where
  | act (a : Action)
  /-- Steps with surroundings of their own and the names of the session. -/
  | isolated (steps : List Step)

namespace Action

/-- A name in a name space, if one is given. -/
def optional (space : Space) : Option String → List Name
  | some name => [(space, name)]
  | none => []

/-- The names that an action mentions. -/
def names : Action → List Name
  | newHeap a | newArena a _ | newRecorder a _ | clone a _ | releaseAll a | closeArena a
  | enterArena a | showAllocator a => [(.allocator, a)]
  | allocate a b _ | grow a b _ | release a b | newBuffer a b _ => [(.allocator, a), (.buffer, b)]
  | acquireContext a s | releaseContext a s => [(.allocator, a), (.scan, s)]
  | append b _ | build b | clear b | markReleased b => [(.buffer, b)]
  | start s r | startWithoutRules s r => (.scan, s) :: optional .allocator r.allocator
  | pull s | pullRendered s | collect s | finish s | close s | enter s | recordError s _
  | noteError s _ | leaveQuoted s | releaseScan s | showScan s => [(.scan, s)]
  | openStream s i => [(.scan, s), (.stream, i)]
  | pullStream i => [(.stream, i)]
  | enterQuoted s b => (.scan, s) :: optional .buffer b
  | tokenize r => optional .allocator r.allocator
  | enterLedger p | showLedger p | count p _ => [(.ledger, p)]
  | showConfig | setConfig _ | resetConfig | enterConfig _ | leaveConfig | leaveLedger
  | nameLedger => []

/-- The name of a name space that an action mentions, if there is one. -/
def nameIn? (x : Action) (space : Space) : Option Name :=
  x.names.find? fun name => name.1 = space

end Action

end MiniLex
