import Annals.Database.Changes
import Annals.Database.Results
import Annals.Session.Basic

namespace Annals.Database

open Annals.Sql Annals.Stream

/-- The change that a statement makes to the contents of a database, whose
tables may be locked. -/
def change (c : Contents) (locked : Bool) (s : Statement)
    (params : List Value) : Change :=
  let text := s.render .sqlite
  match s with
  | .createSequence sequence => c.createTable (.ofSequence sequence) text
  | .seedSequence sequence => c.insert sequence [.integer 0]
  | .createTable table => c.createTable (.ofTable table) text
  | .createIndex index => c.createIndex index
  | .insert table => c.insert table.name params
  | .update table => c.update table.name params
  | .delete table column => c.delete table.name column params
  | .setSequence sequence => c.setValues sequence params
  | .clearSequence sequence => c.clear sequence
  | .drop table => c.drop table locked
  | .overwrite table column asText =>
    let v := params.head?.getD .null
    let given := if asText then Cell.castText v else Cell.ofValue v
    c.overwrite table column given
      ((params[1]?.map Cell.ofValue).bind Cell.key?) text
  | _ => .ok (0, c)

def execute (s : Statement) (params : List Value) : Access Database Nat := do
  let db ← get
  match change db.contents (0 < db.held) s params with
  | .ok (count, contents) =>
    set { db with contents }
    return count
  | .error f => throw f

def query (s : Statement) (params : List Value) :
    Access Database (List Cursor) := do
  let db ← get
  match s with
  | .nextValue sequence =>
    match db.contents.advance sequence with
    | .ok (values, contents) =>
      set { db with contents }
      return [{ fetches := values.map fun cells =>
        ({ place := { key := 0 }, cells } : ResultRow).fetch }]
    | .error f => throw f
  | s =>
    match db.contents.read s params with
    | .ok rows => return [{ fetches := rows.map ResultRow.fetch }]
    | .error f => throw f

def beginTransaction : Access Database Unit := do
  let db ← get
  if db.saved.isSome then
    throw (Failure.backend "cannot start a transaction within a transaction")
  set { db with saved := some db.contents }

def commit : Access Database Unit := do
  let db ← get
  if db.saved.isNone then
    throw (Failure.backend "cannot commit - no transaction is active")
  set { db with saved := none }

def rollback : Access Database Unit := do
  let db ← get
  match db.saved with
  | some contents =>
    let upheavals := if contents.schema =
      db.contents.schema then db.upheavals else db.upheavals + 1
    set { db with contents, upheavals, saved := none }
  | none => throw (Failure.backend "cannot rollback - no transaction is active")

/-- What is left of an open result.  One that is still being read from tables
that were undone reports this once, and is lost. -/
def resume (s : Statement) (params : List Value) (trail : Trail Database)
    (now : Database) (rest : Cursor) : Cursor :=
  let undone (db : Database) : Bool := db.upheavals != now.upheavals
  match rest.progress, trail.find? (0 < ·.2), trail.getLast? with
  | .underWay, some (first, _), some (last, _) =>
    if undone first && first.contents.followsChanges s then
      if undone last then
        .underWay [.lost (Failure.backend "abort due to ROLLBACK")]
      else
        rest
    else contentsLeft
  | _, _, _ => contentsLeft
where
  contentsLeft : Cursor :=
    Contents.resume s params (trail.map fun (db, count) => (db.contents, count))
      now.contents rest

instance : Session Database where
  dialect _ := .sqlite
  execute := execute
  query := query
  beginTransaction := beginTransaction
  commit := commit
  rollback := rollback
  close := return
  hold db := { db with held := db.held + 1 }
  release db := { db with held := db.held - 1 }
  resume := resume

end Annals.Database
