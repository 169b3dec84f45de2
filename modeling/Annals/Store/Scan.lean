import Annals.Store.Basic

/-!
A scan is the reading of a result that is open.  The reader may use the store in
the midst of it; the rest of the scan then takes account of what has changed, as
far as the session lets it.
-/

namespace Annals

open Annals.Sql Annals.Stream

/-- A result that is being read as records. -/
structure Scan (σ α : Type) where
  statement : Statement
  params : List Value
  stream : RecordStream α
  /-- How the result had been read when it was left alone for the last time. -/
  trail : Trail σ := []
  left : Nat

namespace Store

variable {σ ω α β : Type} [Session σ]

/-- Runs a query and lets `visit` read its result as records. -/
def scan (statement : Statement) (params : List Value)
    (records : Cursor → Except Failure (RecordStream α))
    (visit : Scan σ α → Action σ ω β) :
    Action σ ω β :=
  query statement params fun cursor => do
    let stream ← Action.ofExcept (records cursor)
    visit { statement, params, stream, left := cursor.left }

def holding (work : Action σ ω β) : Action σ ω β := do
  change fun s => { s with session := Session.hold s.session }
  let outcome ← Action.observe work
  change fun s => { s with session := Session.release s.session }
  Action.ofOutcome outcome

def interrupt (s : Scan σ α) (work : Action σ ω β) :
    Action σ ω (β × Scan σ α) := do
  let cursor := s.stream.cursor
  let before ← see Store.session
  let b ← if cursor.progress = .underWay then holding work else work
  let now ← see Store.session
  let trail := s.trail ++ [(before, s.left - cursor.left)]
  let rest := Session.resume s.statement s.params trail now cursor
  return (b, { s with stream := s.stream.withCursor rest, trail,
                      left := rest.left })

end Store

end Annals
