import Annals.Record.Layout
import Annals.Store.Adapter

namespace Annals

open Annals.Sql Annals.Stream

namespace Alias

def entityName : String := "identity_alias"

def ownerColumn : String := "identity_id"

variable {σ ω : Type} [Session σ]

/-- Writes an alias of an identity, under its own identifier or else under a
fresh one. -/
def insertRow (owner : EntityId) (a : Alias) : Action σ ω EntityId := do
  let id ← match a.ident.id? with
    | some id => pure id
    | none => Store.nextId entityName
  Store.perform (.insert identityAliases)
    [Value.ofId id, Value.ofId owner, .text a.name, .text a.email]
  return id

end Alias

namespace Identity

variable {σ ω : Type} [Session σ]

def insertRows (i : Identity) : Action σ ω Keys := do
  let id ← Store.nextId entityName
  Store.perform (.insert identities)
    [Value.ofId id, .text i.name, Value.ofOption Value.text i.primaryEmail]
  return { id, parts := ← i.aliases.mapM (Alias.insertRow id) }

/-- Writes an identity over the one with its identifier and replaces the aliases
of that one.  If it is not there, or there more than once, its aliases stay as
they are. -/
def updateRows (i : Identity) : Action σ ω (Nat × Keys) := do
  match Record.id? i with
  | none => return (1, ← i.insertRows)
  | some id =>
    let affected ← Store.execute (.update identities)
      [.text i.name, Value.ofOption Value.text i.primaryEmail, Value.ofId id]
    if affected ≠ 1 then return (affected, { id })
    Store.perform (.delete identityAliases Alias.ownerColumn) [Value.ofId id]
    return (affected, { id, parts := ← i.aliases.mapM (Alias.insertRow id) })

def deleteRows (id : EntityId) : Action σ ω Nat := do
  Store.perform (.delete identityAliases Alias.ownerColumn) [Value.ofId id]
  Store.execute (.delete identities identities.keyName) [Value.ofId id]

def assignKeys (i : Identity) (keys : Keys) :
    Except IdentError Unit × Identity :=
  match Record.fill i keys.id.value with
  | (.ok (), i) =>
    let (outcome, aliases) :=
      Record.fillEach (fun a id => Record.fill a id.value) i.aliases keys.parts
    (outcome, { i with aliases })
  | refused => refused

def adapter : Adapter Identity where
  entity := entityName
  capabilities := Capability.all
  sequences := [entityName, Alias.entityName]
  tables := [identities, identityAliases]
  indexes := [
    { name := "idx_identity_aliases_identity_id", table := identityAliases.name,
      columns := [Alias.ownerColumn] },
    { name := "idx_identity_aliases_email", table := identityAliases.name,
      columns := ["email"] }]
  ofRow := Identity.ofRow
  selection
    | none =>
      (.selectFamily identities identityAliases Alias.ownerColumn false, [])
    | some id =>
      (.selectFamily identities identityAliases Alias.ownerColumn true,
        [Value.ofId id])
  records check cursor :=
    match KeyedStream.start Identity.layout check cursor with
    | .ok s => .ok (.groups s)
    | .error (f, _) => .error f
  insert := insertRows
  update := updateRows
  delete := deleteRows
  assign := assignKeys

end Identity

end Annals
