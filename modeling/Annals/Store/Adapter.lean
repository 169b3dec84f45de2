import Annals.Record.Basic
import Annals.Store.Scan
import Annals.Store.Transaction

/-!
An adapter says how one kind of record is kept in a store: in which tables, by
which statements, and which operations it allows.  What all kinds have in common
follows from it: batches are written as one transaction that stops at the first
failure, records receive their identifiers only after their batch has been
committed, and an update has to concern exactly one row.
-/

namespace Annals

open Annals.Log Annals.Sql Annals.Stream

/-- What an adapter may allow. -/
inductive Capability where
  | createScheme
  | createIndexes
  | load
  | loadById
  | loadByIds
  | save
  | update
  | delete
  deriving DecidableEq, Repr

namespace Capability

def all : List Capability :=
  [createScheme, createIndexes, load, loadById, loadByIds, save, update, delete]

def name : Capability → String
  | createScheme => "create_scheme"
  | createIndexes => "create_indexes"
  | load => "load"
  | loadById => "load_by_id"
  | loadByIds => "load_by_ids"
  | save => "save"
  | update => "update"
  | delete => "delete"

end Capability

/-- The identifiers under which a record and its parts have been written. -/
structure Keys where
  id : EntityId
  parts : List EntityId := []
  deriving DecidableEq, Repr

/-- How a kind of record is kept. -/
structure Adapter (α : Type) where
  entity : String
  capabilities : List Capability
  sequences : List String
  tables : List Table
  indexes : List Index
  ofRow : Row → Except Failure α
  /-- The query for every record, or for the one with an identifier. -/
  selection : Option EntityId → Statement × List Value
  /-- The records of a result; whether the order of rows is checked is the
  store's choice. -/
  records : (checkOrdering : Bool) → Cursor → Except Failure (RecordStream α)
  insert : {σ ω : Type} → [Session σ] → α → Action σ ω Keys
  /-- Writes a record over what is stored under its identifier, and counts the
  rows affected. -/
  update : {σ ω : Type} → [Session σ] → α → Action σ ω (Nat × Keys)
  delete : {σ ω : Type} → [Session σ] → EntityId → Action σ ω Nat
  /-- Gives a record the identifiers under which it has been written.  The
  record is told as it is then, also if one of them is refused. -/
  assign : α → Keys → Except IdentError Unit × α

/-- How the writing of a batch has ended, and the batch as it is then. -/
structure Written (α : Type) where
  outcome : Except Stop Unit
  batch : List α

namespace Adapter

variable {α β σ ω : Type} (a : Adapter α)

def component : String := "vcsmine_store::adapter"

def supports (c : Capability) : Bool := c ∈ a.capabilities

def require (c : Capability) : Except Failure Unit :=
  if a.supports c then .ok () else .error (Failure.unsupported c.name a.entity)

def requireAll (cs : List Capability) : Except Failure Unit := cs.forM a.require

def scheme (d : Dialect) : List Statement :=
  a.sequences.flatMap (fun entity =>
      Statement.createSequenceStatements d (Statement.sequenceName entity)) ++
    a.tables.map Statement.createTable

variable [Session σ]

def performAll (statements : List Statement) : Action σ ω Unit :=
  statements.forM fun s => Store.perform s []

/-- Makes the tables and sequences.  They must not be there yet. -/
def createScheme : Action σ ω Unit := do
  Action.ofExcept (a.require .createScheme)
  let d ← Store.see Store.dialect
  Store.write Capability.createScheme.name a.entity (performAll (a.scheme d))

def createIndexes : Action σ ω Unit := do
  Action.ofExcept (a.require .createIndexes)
  Store.write Capability.createIndexes.name a.entity
    (performAll (a.indexes.map Statement.createIndex))

/-- Reads every record, or the one with an identifier. -/
def scan (one : Option EntityId) (visit : Scan σ α → Action σ ω β) :
    Action σ ω β := do
  let check ← Store.see (·.options.checkGroupOrdering)
  let (statement, params) := a.selection one
  Store.scan statement params (a.records check) visit

def loadWith (visit : Scan σ α → Action σ ω β) : Action σ ω β := do
  Action.ofExcept (a.require .load)
  a.scan none visit

def loadAll : Action σ ω (List α) :=
  a.loadWith fun s => Action.ofExcept s.stream.collect.1

/-- The only record of a stream, if it has one. -/
def single (id : EntityId) (s : RecordStream α) : Except Failure (Option α) :=
  match s.step with
  | (none, _) => .ok none
  | (some (.error f), _) => .error f
  | (some (.ok found), rest) =>
    match rest.step.1 with
    | none => .ok (some found)
    | some (.error f) => .error f
    | some (.ok _) =>
      .error ((Failure.consistencyViolation "load" a.entity
        ("identifier " ++ toString id.value ++
          " matches more than one record")).withEntityId id.value.toInt)

/-- The record with an identifier, whether the adapter allows that or not. -/
def lookup (id : EntityId) : Action σ ω (Option α) :=
  a.scan (some id) fun s => Action.ofExcept (a.single id s.stream)

def load (id : EntityId) : Action σ ω (Option α) := do
  Action.ofExcept (a.require .loadById)
  a.lookup id

/-- The records with the identifiers, in the order of these; those without a
record are passed over. -/
def loadMany (ids : List EntityId) : Action σ ω (List α) := do
  Action.ofExcept (a.require .loadByIds)
  let found ← ids.mapM a.lookup
  return found.filterMap id

variable [Record α]

/-- Writes one record of a batch: a new one is inserted, any other one has to be
there. -/
def writeOne (record : α) : Action σ ω Keys :=
  match Record.id? record with
  | none => a.insert record
  | some id => do
    let (affected, keys) ← a.update record
    if affected = 1 then return keys
    else
      Action.fail ((Failure.consistencyViolation "update" a.entity
        ("update of identifier " ++ toString id.value ++ " affected " ++
          toString affected ++
          " rows, expected exactly 1")).withEntityId id.value.toInt)

/-- Writes a batch as one transaction and then gives its records their
identifiers. -/
def writeBatch (op : String) (batch : List α) : Action σ ω (Written α) := do
  if batch.isEmpty then return { outcome := .ok (), batch }
  match ← Action.observe (Store.write op a.entity (batch.mapM a.writeOne)) with
  | .error stop => return { outcome := .error stop, batch }
  | .ok keys =>
    let (outcome, batch) := Record.fillEach a.assign batch keys
    return { outcome := outcome.mapError fun e => .failed e.toFailure, batch }

/-- Writes a batch if that takes no more than the adapter allows. -/
def submit (needed : List Capability) (op : String) (batch : List α) :
    Action σ ω (Written α) :=
  match a.requireAll needed with
  | .ok () => a.writeBatch op batch
  | .error f => return { outcome := .error (.failed f), batch }

/-- Stores new records; those that are stored already are updated. -/
def save (batch : List α) : Action σ ω (Written α) :=
  a.submit (if batch.any Record.isPersisted then [.save, .update] else [.save])
    Capability.save.name batch

/-- Updates stored records; those that are new are stored. -/
def updateAll (batch : List α) : Action σ ω (Written α) :=
  a.submit (if batch.any fun record =>
    !Record.isPersisted record then [.update, .save] else [.update])
      Capability.update.name batch

/-- Why a record that was never stored cannot be deleted. -/
def neverSaved : String := "entity was never saved; nothing to delete"

def storedIds (batch : List α) : Action σ ω (List EntityId) := do
  let policy ← Store.see (·.options.deletePolicy)
  let ids ← batch.mapM fun record =>
    match Record.id? record, policy with
    | some id, _ => return some id
    | none, .logAndSkip => do
      Store.report (.skipped component Capability.delete.name a.entity
        (Record.idValue record) neverSaved)
      return none
    | none, .reject =>
      Action.fail
        (((Failure.invalidArgument Capability.delete.name neverSaved).withEntity
        a.entity).withEntityId (Record.idValue record).toInt)
  return ids.filterMap id

/-- Removes one record and counts the rows removed, of which there may be one at
most. -/
def removeOne (id : EntityId) : Action σ ω Nat := do
  let affected ← a.delete id
  if affected ≤ 1 then return affected
  else
    Action.fail ((Failure.consistencyViolation "delete" a.entity
      ("identifier " ++ toString id.value ++ " removed " ++ toString affected ++
        " rows")).withEntityId id.value.toInt)

/-- Removes the records of a batch as one transaction and counts the rows
removed. -/
def deleteAll (batch : List α) : Action σ ω Nat := do
  Action.ofExcept (a.require .delete)
  let ids ← a.storedIds batch
  if ids.isEmpty then return 0
  Store.write Capability.delete.name a.entity do
    let counts ← ids.mapM a.removeOne
    return counts.foldl (· + ·) 0

/-- Removes one record; the answer says whether it was there. -/
def deleteOne (record : α) : Action σ ω Bool :=
  return 0 < (← a.deleteAll [record])

end Adapter

end Annals
