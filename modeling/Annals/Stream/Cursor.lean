import Annals.Sql.Row

/-!
A cursor is what is left of a result: the outcomes of the fetches still to come,
and how far the result has been fetched.  A fetch that fails does not end the
cursor, unless the result is lost with it.
-/

namespace Annals.Stream

open Annals.Sql

inductive Fetch where
  | row (r : Row)
  | fault (f : Failure)
  | lost (f : Failure)
  deriving DecidableEq, Repr

/-- How far a result has been fetched. -/
inductive Progress where
  | fresh
  /-- Something has been fetched, and the end has not been reached. -/
  | underWay
  | ended
  deriving DecidableEq, Repr

structure Cursor where
  fetches : List Fetch
  progress : Progress := .fresh
  deriving DecidableEq, Repr

namespace Cursor

def underWay (fetches : List Fetch) : Cursor :=
  { fetches, progress := .underWay }

def ended : Cursor := { fetches := [], progress := .ended }

def left (c : Cursor) : Nat := c.fetches.length

def advance (c : Cursor) : Except Failure (Option Row) × Cursor :=
  match c.fetches with
  | [] => (.ok none, ended)
  | .row r :: rest => (.ok (some r), underWay rest)
  | .fault f :: rest => (.error f, underWay rest)
  | .lost f :: _ => (.error f, ended)

def ofRows (rows : List Row) : Cursor := { fetches := rows.map .row }

end Cursor

/-- How the rows of a result make records. -/
structure Layout (α : Type) where
  entity : String
  create : Row → Except Failure α

namespace Layout

def start {α : Type} (l : Layout α) (r : Row) : Except Failure α :=
  (l.create r).mapError (·.withEntity l.entity)

end Layout

end Annals.Stream
