import MiniLex.Store.Basic

/-!
# Token streams

A stream gives the tokens of its scan one by one, up to and including the end token. It has no
cursor of its own: whoever pulls next, through a stream or directly, gets the next token of the
scan. A stream that has given the end token or has failed gives nothing from then on, and no longer
touches its scan.
-/

namespace MiniLex.Store

/-- Opens a stream over a scan. -/
def openStream (i : ScanId) : StoreM StreamId :=
  modifyGet fun s => (s.streams.length, { s with streams := s.streams ++ [⟨i, false⟩] })

/-- Marks a stream finished. -/
def finishStream (t : StreamId) : StoreM Unit :=
  modify fun s => { s with streams := s.streams.modify t fun x => { x with finished := true } }

/-- The next token of a stream, or nothing if it is finished. -/
def pullStream (t : StreamId) : StoreM (Option Token) := do
  let stream := (← get).stream t
  if stream.finished then return none
  try
    let token ← onScan stream.scan Scanner.pull
    if token.kind.isEnd then finishStream t
    return some token
  catch failure =>
    finishStream t
    throw failure

end MiniLex.Store
