import Annals.Store.Basic

/-!
`Store.write` runs work as one transaction.  Work that fails or is given up, and
work that cannot be committed, is rolled back once; the failure of a rollback is
reported as an event and never takes the place of the failure before it.  A
write within a write belongs to the transaction that is under way.
-/

namespace Annals.Store

open Annals.Log

variable {σ ω α : Type} [Session σ]

def transactionComponent : String := "vcsmine_store::transaction"

def writeComponent : String := "vcsmine_store::handle"

/-- The failure for whose sake work is undone that was given up. -/
def givenUp (op : String) : Failure :=
  { kind := .internal, operation := some op,
    message := "transaction work panicked" }

def undo (op : String) (cause : Failure) : Action σ ω Unit := do
  match ← Action.observe (use Session.rollback) with
  | .error (.failed f) =>
    report (.rollbackFailed transactionComponent op f cause)
  | _ => return

def transact (op : String) (work : Action σ ω α) : Action σ ω α := do
  use Session.beginTransaction
  let outcome ← Action.observe do
    let a ← work
    use Session.commit
    return a
  match outcome with
  | .ok a => return a
  | .error (.failed f) =>
    undo op f
    Action.fail f
  | .error .abandoned =>
    undo op (givenUp op)
    throw .abandoned

/-- Runs work as a transaction of its own, unless one is under way. -/
def joinOrTransact (op : String) (work : Action σ ω α) : Action σ ω α := do
  if ← see Store.writing then work
  else
    change fun s => { s with writing := true }
    let outcome ← Action.observe (transact op work)
    change fun s => { s with writing := false }
    Action.ofOutcome outcome

def write (op entity : String) (work : Action σ ω α) : Action σ ω α := do
  let details := [(Detail.entity.name, entity)]
  report (.started writeComponent op details)
  match ← Action.observe (joinOrTransact op work) with
  | .ok a =>
    report (.finished writeComponent op details)
    return a
  | .error (.failed f) =>
    report (.failed writeComponent op f details)
    Action.fail f
  | .error .abandoned => throw .abandoned

end Annals.Store
