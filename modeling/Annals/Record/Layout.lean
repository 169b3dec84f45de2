import Annals.Record.Branch
import Annals.Record.Commit
import Annals.Record.Identity
import Annals.Stream.Groups

namespace Annals

open Annals.Sql Annals.Stream

def rowIdent (r : Row) (column : Nat) : Except Failure Ident := do
  match EntityId.ofValue (← r.int64 column) with
  | .ok id => return ⟨some id⟩
  | .error e => throw e.toFailure

namespace Branch

def entityName : String := "branch"

def ofRow (r : Row) : Except Failure Branch := do
  let name ← r.string 1
  let createdAt ← r.instant 2
  let mergedAt ← r.optional Row.instant 3
  let ident ← rowIdent r 0
  return { ident, name, createdAt, mergedAt }

def layout : Layout Branch := { entity := entityName, create := ofRow }

end Branch

namespace Commit

def entityName : String := "commit"

def ofRow (r : Row) : Except Failure Commit := do
  let revision ← r.string 1
  let committedAt ← r.instant 4
  let message ← r.string 5
  let linesAdded ← r.int64 6
  let linesRemoved ← r.int64 7
  let authorId ← r.optional Row.entityId 2
  let branchId ← r.optional Row.entityId 3
  let ident ← rowIdent r 0
  return {
    ident, revision, authorId, branchId, committedAt, message, linesAdded,
    linesRemoved }

def layout : Layout Commit := { entity := entityName, create := ofRow }

end Commit

namespace Identity

def entityName : String := "identity"

/-- Adds the alias of a row of the join; an identity without aliases has a row
without one. -/
def mergeRow (i : Identity) (r : Row) : Except Failure Identity := do
  match ← r.optional Row.entityId 3 with
  | none => return i
  | some id =>
    let name ← r.string 4
    let email ← r.string 5
    return (i.addAlias { ident := ⟨some id⟩, name, email }).2

def ofRow (r : Row) : Except Failure Identity := do
  let name ← r.string 1
  let primaryEmail ← r.optional Row.string 2
  let ident ← rowIdent r 0
  mergeRow { ident, name, primaryEmail } r

def layout : GroupLayout Identity :=
  { entity := entityName, create := ofRow, key := fun r => r.int64 0,
    merge := mergeRow }

end Identity

end Annals
