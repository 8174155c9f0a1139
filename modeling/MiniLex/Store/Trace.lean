import MiniLex.Store.Basic

/-!
# Traces

A trace pulls a scan beyond its end, to show that its last answer repeats. It lists the answer of
every pull, token or failure, with the progress that the pull left, and ends with the third answer
that is final: an end token or a failure.
-/

namespace MiniLex.Store

/-- An answer to a pull, and the progress of the scan after it. -/
structure TraceItem where
  answer : Except Failure Token
  progress : Progress

/-- Whether an answer is an end token or a failure. -/
def TraceItem.isFinal (x : TraceItem) : Bool :=
  match x.answer with
  | .ok token => token.kind.isEnd
  | .error _ => true

/-- Pulls a scan once and keeps the answer whatever it is. -/
def tracePull (i : ScanId) : StoreM TraceItem := fun s =>
  match onScan i Scanner.pull s with
  | .ok token s' => .ok ⟨.ok token, (s'.scan i).progress⟩ s'
  | .error failure s' => .ok ⟨.error failure, (s'.scan i).progress⟩ s'

/-- Pulls a scan until `finals` answers were final, but at most this many times. -/
def traceUpTo (i : ScanId) : Nat → Nat → StoreM (List TraceItem)
  | 0, _ => return []
  | _ + 1, 0 => return []
  | pulls + 1, finals + 1 => do
    let item ← tracePull i
    let rest ← traceUpTo i pulls (if item.isFinal then finals else finals + 1)
    return item :: rest

/-- The trace of a source. Each token takes at least one character, so the pulls that the source has
characters and the three final ones are enough. -/
def trace (e : Ambient) (language : Language) (r : Request) : StoreM (List TraceItem) := do
  let i ← start e (some language) r
  traceUpTo i (r.source.length + 3) 3

end MiniLex.Store
