import Annals.Record.Layout
import Annals.Store.Adapter

namespace Annals.Branch

open Annals.Sql Annals.Stream

variable {σ ω : Type} [Session σ]

def insertRow (b : Branch) : Action σ ω Keys := do
  let id ← Store.nextId entityName
  let createdAt ← Action.ofExcept (Value.ofInstant b.createdAt)
  let mergedAt ← Action.ofExcept (Value.ofOptionalInstant b.mergedAt)
  Store.perform (.insert branches) [Value.ofId id, .text b.name,
    createdAt, mergedAt] return { id }

def adapter : Adapter Branch where
  entity := entityName
  capabilities := [.createScheme, .load, .loadById, .loadByIds, .save]
  sequences := [entityName]
  tables := [branches]
  indexes := []
  ofRow := Branch.ofRow
  selection
    | none => (.select branches .everything, [])
    | some id => (.select branches .withKey, [Value.ofId id])
  records _ cursor := .ok (.rows { layout := Branch.layout, cursor })
  insert := insertRow
  update _ :=
    Action.fail (Failure.unsupported Capability.update.name entityName)
  delete _ :=
    Action.fail (Failure.unsupported Capability.delete.name entityName)
  assign b keys := Record.fill b keys.id.value

end Annals.Branch
