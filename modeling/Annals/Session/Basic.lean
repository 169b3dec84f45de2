import Annals.Sql.Statement
import Annals.Stream.Cursor

/-!
A session is one connection to a database.  A store owns its session and reaches
the database through the operations of the class `Session` alone, so that it
runs on every kind of session alike.
-/

namespace Annals

open Annals.Sql Annals.Stream

/-- A use of a session: it may fail, and it changes the session whether it fails
or not. -/
abbrev Access (σ : Type) := ExceptT Failure (StateM σ)

namespace Access

variable {σ α : Type}

def observe (access : Access σ α) : Access σ (Except Failure α) :=
  ExceptT.mk fun s =>
    let (outcome, s) := access.run s
    (.ok outcome, s)

def ofExcept : Except Failure α → Access σ α
  | .ok a => pure a
  | .error f => throw f

end Access

/-- How an open result has been read: the states of the session in which that
was done, in their order, and how many rows were fetched in each. -/
abbrev Trail (σ : Type) := List (σ × Nat)

/-- Connections to a database. -/
class Session (σ : Type) where
  dialect : σ → Dialect
  execute : Statement → List Value → Access σ Nat
  /-- Runs a query and gives its result as often as the database opens it, which
  should be once. -/
  query : Statement → List Value → Access σ (List Cursor)
  beginTransaction : Access σ Unit
  commit : Access σ Unit
  rollback : Access σ Unit
  close : Access σ Unit
  hold : σ → σ := id
  release : σ → σ := id
  /-- What is left of an open result now that the session has changed, given
  what was left of it before.  A result that has been copied does not change. -/
  resume : Statement → List Value → Trail σ → (now : σ) → Cursor → Cursor :=
    fun _ _ _ _ rest => rest

namespace Session

/-- The number in the first column of the first row, if there is a row. -/
def number? (cursor : Cursor) : Except Failure (Option Int64) := do
  match ← cursor.advance.1 with
  | some r => return some (← r.int64 0)
  | none => return none

variable {σ : Type} [Session σ]

/-- Runs a query for one number.  Of a result that is opened more than once the
last number counts. -/
def queryNumber (s : Statement) (params : List Value) :
    Access σ (Option Int64) := do
  let openings ← query s params
  openings.foldlM (fun found cursor => do
    match number? cursor with
    | .ok (some n) => return some n
    | .ok none => return found
    | .error f => throw f) none

end Session

end Annals
