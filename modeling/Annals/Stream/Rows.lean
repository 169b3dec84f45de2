import Annals.Stream.Cursor

namespace Annals.Stream

open Annals.Sql

/-- Reads a cursor whose rows are records. -/
structure RowStream (α : Type) where
  layout : Layout α
  cursor : Cursor
  /-- The row that has been fetched and not delivered. -/
  lookahead : Option Row := none
  exhausted : Bool := false

namespace RowStream

variable {α : Type}

/-- Whether another record follows.  A failing fetch is reported and not
repeated. -/
def hasNext (s : RowStream α) : Except Failure Bool × RowStream α :=
  if s.lookahead.isSome then (.ok true, s)
  else if s.exhausted then (.ok false, s)
  else
    let (outcome, cursor) := s.cursor.advance
    let s := { s with cursor }
    match outcome with
    | .error f => (.error f, s)
    | .ok none => (.ok false, { s with exhausted := true })
    | .ok (some r) => (.ok true, { s with lookahead := some r })

def exhaustedFailure (entity : String) : Failure :=
  (Failure.illegalState "next" "stream is exhausted").withEntity entity

def next (s : RowStream α) : Except Failure α × RowStream α :=
  let (outcome, s) := s.hasNext
  match outcome with
  | .error f => (.error f, s)
  | .ok _ =>
    match s.lookahead with
    | some r => (s.layout.start r, { s with lookahead := none })
    | none => (.error (exhaustedFailure s.layout.entity), s)

end RowStream

end Annals.Stream
