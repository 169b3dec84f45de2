import Annals.Stream.Cursor

/-!
A `KeyedStream` folds every run of rows with one key into a record.  It reads
one row beyond the record that it has ready, the row that closed the run, from
which the next record has been started.  What fails while a record is being made
is kept back until the record before it has been delivered.
-/

namespace Annals.Stream

open Annals.Sql

/-- How runs of rows make records. -/
structure GroupLayout (α : Type) extends Layout α where
  key : Row → Except Failure Int64
  merge : α → Row → Except Failure α

/-- What has been delivered so far. -/
inductive GroupState where
  | primed
  /-- Rows were read and every record of them has been delivered. -/
  | draining
  /-- There were no rows. -/
  | empty
  deriving DecidableEq, Repr

/-- The outcome of following a run to its end: the record, the record that the
closing row started together with its key, or a failure; then the rest of the
cursor and the number of rows read. -/
structure Gathered (α : Type) where
  outcome : Except Failure (α × Option (Int64 × α))
  rest : Cursor
  rows : Nat

/-- Reads a cursor whose runs of rows are records. -/
structure KeyedStream (α : Type) where
  layout : GroupLayout α
  /-- Keys must not go down. -/
  checkOrdering : Bool
  cursor : Cursor
  ready : Option α := none
  pending : Option (Int64 × α) := none
  deferred : Option Failure := none
  consumed : Nat := 0

namespace GroupLayout

variable {α : Type}

def keyOf (l : GroupLayout α) (r : Row) : Except Failure Int64 :=
  (l.key r).mapError (·.withEntity l.entity)

def mergeRow (l : GroupLayout α) (a : α) (r : Row) : Except Failure α :=
  (l.merge a r).mapError (·.withEntity l.entity)

def gather (l : GroupLayout α) (checkOrdering : Bool) (key : Int64) (a : α) :
    List Fetch → Gathered α
  | [] => ⟨.ok (a, none), .ended, 0⟩
  | .fault f :: rest => ⟨.error f, .underWay rest, 0⟩
  | .lost f :: _ => ⟨.error f, .ended, 0⟩
  | .row r :: rest =>
    match l.keyOf r with
    | .error f => ⟨.error f, .underWay rest, 1⟩
    | .ok k =>
      if k = key then
        match l.mergeRow a r with
        | .error f => ⟨.error f, .underWay rest, 1⟩
        | .ok a =>
          let g := l.gather checkOrdering key a rest
          { g with rows := g.rows + 1 }
      else if checkOrdering && k < key then
        ⟨.error (Failure.orderingViolation l.entity key.toInt k.toInt),
          .underWay rest, 1⟩
      else
        match l.start r with
        | .error f => ⟨.error f, .underWay rest, 1⟩
        | .ok next => ⟨.ok (a, some (k, next)), .underWay rest, 1⟩

end GroupLayout

namespace KeyedStream

variable {α : Type}

/-- Prepares the record that has been started, unless none has. -/
def fetchNext (s : KeyedStream α) : Except Failure Unit × KeyedStream α :=
  match s.pending with
  | none => (.ok (), s)
  | some (key, a) =>
    let g := s.layout.gather s.checkOrdering key a s.cursor.fetches
    let s := { s with cursor := g.rest, consumed := s.consumed + g.rows }
    match g.outcome with
    | .ok (done, next) =>
      (.ok (), { s with ready := some done, pending := next })
    | .error f => (.error f, s)

/-- Opens a stream: its first record is prepared at once.  If that fails there
is no stream, but what is left of the cursor. -/
def start (layout : GroupLayout α) (checkOrdering : Bool) (cursor : Cursor) :
    Except (Failure × Cursor) (KeyedStream α) :=
  let (outcome, cursor) := cursor.advance
  match outcome with
  | .error f => .error (f, cursor)
  | .ok none => .ok { layout, checkOrdering, cursor }
  | .ok (some r) =>
    match layout.keyOf r with
    | .error f => .error (f, cursor)
    | .ok key =>
      match layout.start r with
      | .error f => .error (f, cursor)
      | .ok a =>
        let s : KeyedStream α :=
          { layout, checkOrdering, cursor, pending := some (key, a),
            consumed := 1 }
        match s.fetchNext with
        | (.ok (), s) => .ok s
        | (.error f, s) => .error (f, s.cursor)

def state (s : KeyedStream α) : GroupState :=
  if s.ready.isSome then
    .primed else if s.consumed = 0 then .empty else .draining

def hasNext (s : KeyedStream α) : Except Failure Bool × KeyedStream α :=
  match s.deferred with
  | some f => (.error f, { s with deferred := none })
  | none => (.ok s.ready.isSome, s)

def noElementFailure (entity : String) : Failure :=
  (Failure.noSuchElement "next").withEntity entity

def next (s : KeyedStream α) : Except Failure α × KeyedStream α :=
  match s.deferred with
  | some f => (.error f, { s with deferred := none })
  | none =>
    match s.ready with
    | none => (.error (noElementFailure s.layout.entity), s)
    | some a =>
      match ({ s with ready := none } : KeyedStream α).fetchNext with
      | (.ok (), s) => (.ok a, s)
      | (.error f, s) => (.ok a, { s with pending := none, deferred := some f })

end KeyedStream

end Annals.Stream
