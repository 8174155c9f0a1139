import MiniLex.Session.Basic
import MiniLex.Store.Bulk
import MiniLex.Store.Stream

/-!
# Performing actions

What each action of a session does and replies. Names are looked up first, those of allocators
before all others, so an action that mentions a name which is not bound does nothing. A new name is
bound last, so an action that fails binds none.
-/

namespace MiniLex.Session

/-- Does one action and replies. -/
def act : Action → SessionM Reply
  | .newHeap a => addAllocator a .heap
  | .newArena a name => addAllocator a (.arena (.fresh (name.getD Arena.defaultName)))
  | .newRecorder a plan => addAllocator a (.recorder (.fresh (Recorder.refuseNth plan)))
  | .allocate a b capacity => do
    let allocator ← resolve .allocator a
    let buffer ← onMemory (Memory.allocate allocator (capacity.getD Buffer.initialCapacity))
    bindName .buffer b buffer
    return .nothing
  | .grow a b needed => do
    let allocator ← resolve .allocator a
    let buffer ← resolve .buffer b
    let capacity ← onMemory (Memory.grow allocator buffer needed)
    return .number capacity
  | .clone a text => do
    let allocator ← resolve .allocator a
    let copy ← onMemory (Memory.clone allocator text)
    return .text (String.ofList copy)
  | .release a b => do
    let allocator ← resolve .allocator a
    let buffer ← resolve .buffer b
    onMemory (Memory.release allocator buffer)
    return .nothing
  | .acquireContext a s => do
    let allocator ← resolve .allocator a
    let scan ← resolve .scan s
    onMemory (Memory.acquireContext allocator scan)
    return .nothing
  | .releaseContext a s => do
    let allocator ← resolve .allocator a
    let scan ← resolve .scan s
    onMemory (Memory.releaseContext allocator scan)
    return .nothing
  | .releaseAll a => do
    let allocator ← resolve .allocator a
    let n ← onStore (Store.releaseAll allocator)
    return .number n
  | .closeArena a => do
    let allocator ← resolve .allocator a
    onStore (Store.closeArena allocator)
    return .nothing
  | .enterArena a => do
    let allocator ← resolve .allocator a
    onStore (Store.enterArena allocator)
    return .flag true
  | .showAllocator a => do
    let _ ← resolve .allocator a
    return .nothing
  | .newBuffer a b capacity => do
    let allocator ← resolve .allocator a
    let buffer ← onMemory (Memory.addBuffer allocator (capacity.getD Buffer.initialCapacity))
    bindName .buffer b buffer
    return .nothing
  | .append b text => do
    let buffer ← resolve .buffer b
    onMemory (Memory.append buffer text)
    return .flag true
  | .build b => do
    let buffer ← resolve .buffer b
    return .text (String.ofList ((← get).store.host.memory.buffer buffer).text)
  | .clear b => do
    let buffer ← resolve .buffer b
    onMemory (Memory.modifyBuffer buffer Buffer.clear)
    return .flag true
  | .markReleased b => do
    let buffer ← resolve .buffer b
    onMemory (Memory.modifyBuffer buffer Buffer.markReleased)
    return .nothing
  | .start s r => do
    let request ← request r
    let language ← check (Language.named r.language)
    let scan ← onStore (Store.start (← get).ambient (some language) request)
    bindName .scan s scan
    return .nothing
  | .startWithoutRules s r => do
    let request ← request r
    let scan ← onStore (Store.start (← get).ambient none request)
    bindName .scan s scan
    return .nothing
  | .pull s => return .token (← onScan s Scanner.pull)
  | .pullRendered s => return .text (← onScan s Scanner.pull).render
  | .collect s => return .tokens (← onScan s Scanner.collect)
  | .openStream s i => do
    let scan ← resolve .scan s
    let stream ← onStore (Store.openStream scan)
    bindName .stream i stream
    return .nothing
  | .pullStream i => do
    let stream ← resolve .stream i
    match ← onStore (Store.pullStream stream) with
    | some token => return .token token
    | none => return .nothing
  | .finish s => do
    let error ← onScan s Scanner.finish
    return .ofText? (error.map Diagnostic.message)
  | .close s => do
    onScan s Scanner.close
    return .nothing
  | .enter s => do
    let _ ← resolve .scan s
    return .flag true
  | .recordError s complaint => return .flag (← onScan s (·.recordError complaint))
  | .noteError s complaint => return .flag (← onScan s fun _ => Scanner.noteError complaint)
  | .enterQuoted s b => do
    let buffer ← onScan s Scanner.enterQuoted
    if let some name := b then bindName .buffer name buffer
    return .nothing
  | .leaveQuoted s => do
    onScan s Scanner.leaveQuoted
    return .nothing
  | .releaseScan s => do
    onScan s Scanner.release
    return .nothing
  | .showScan s => do
    let _ ← resolve .scan s
    return .nothing
  | .tokenize r => do
    let request ← request r
    let language ← check (Language.named r.language)
    return .tokens (← onStore (Store.tokenize (← get).ambient language request))
  | .showConfig => do
    let s ← get
    let c := s.ambient.config
    return .config (c.withAllocator (c.allocator.bind (s.names.nameOf? .allocator)))
  | .setConfig settings => do
    let c ← config settings
    updateAmbient (Ambient.setConfig c)
    return .nothing
  | .resetConfig => do
    updateAmbient (Ambient.setConfig .standard)
    return .nothing
  | .enterConfig settings => do
    let c ← config settings
    updateAmbient (Ambient.enterConfig c)
    return .nothing
  | .leaveConfig => do
    updateAmbient Ambient.leaveConfig
    return .nothing
  | .enterLedger p => do
    let ledger ← onStore Store.addLedger
    updateAmbient (Ambient.enterLedger ledger)
    bindName .ledger p ledger
    return .nothing
  | .leaveLedger => do
    updateAmbient Ambient.leaveLedger
    return .nothing
  | .showLedger p => do
    let ledger ← resolve .ledger p
    return .ledger ((← get).store.host.ledger ledger)
  | .nameLedger => do
    let s ← get
    return .ofText? (s.ambient.ledger.bind (s.names.nameOf? .ledger))
  | .count p entry => do
    let ledger ← resolve .ledger p
    onStore (Store.updateHost (Host.account (some ledger) (Ledger.count entry)))
    return .ledger ((← get).store.host.ledger ledger)

end MiniLex.Session
