import Annals.Record.Layout
import Annals.Store.Adapter

namespace Annals.Commit

open Annals.Sql Annals.Stream Annals.Time

def payload (c : Commit) : Except Failure (List Value) := do
  let committedAt ← Value.ofInstant c.committedAt
  return [.text c.revision, Value.ofOption Value.ofId c.authorId,
    Value.ofOption Value.ofId c.branchId, committedAt, .text c.message,
    .integer c.linesAdded, .integer c.linesRemoved]

variable {σ ω β : Type} [Session σ]

def insertRow (c : Commit) : Action σ ω Keys := do
  let id ← Store.nextId entityName
  let values ← Action.ofExcept c.payload
  Store.perform (.insert commits) (Value.ofId id :: values)
  return { id }

def updateRow (c : Commit) : Action σ ω (Nat × Keys) := do
  match Record.id? c with
  | none => return (1, ← c.insertRow)
  | some id =>
    let values ← Action.ofExcept c.payload
    return (← Store.execute (.update commits)
      (values ++ [Value.ofId id]), { id })

def adapter : Adapter Commit where
  entity := entityName
  capabilities := Capability.all
  sequences := [entityName]
  tables := [commits]
  indexes := [
    { name := "idx_commits_committed_at", table := commits.name,
      columns := ["committed_at"] },
        { name := "idx_commits_author_id", table := commits.name,
          columns := ["author_id"] }]
  ofRow := Commit.ofRow
  selection
    | none => (.select commits .everything, [])
    | some id => (.select commits .withKey, [Value.ofId id])
  records _ cursor := .ok (.rows { layout := Commit.layout, cursor })
  insert := insertRow
  update := updateRow
  delete id := Store.execute (.delete commits commits.keyName) [Value.ofId id]
  assign c keys := Record.fill c keys.id.value

/-- Reads the commits from one instant up to, but without, another one, the
oldest first. -/
def scanBetween (start stop : Instant) (visit : Scan σ Commit → Action σ ω β) :
    Action σ ω β := do
  Action.ofExcept (adapter.require .load)
  if stop.before start then
    Action.fail ((Failure.invalidArgument "scan_between"
      ("window end " ++ stop.toText ++ " precedes its start " ++
        start.toText)).withEntity entityName)
  let low ← Action.ofExcept (Value.ofInstant start)
  let high ← Action.ofExcept (Value.ofInstant stop)
  let check ← Store.see (·.options.checkGroupOrdering)
  Store.scan (.select commits (.window "committed_at")) [low, high]
    (adapter.records check) visit

end Annals.Commit
