import Annals.Script.Basic
import Annals.Sql.Lookup

namespace Annals.Script

open Annals.Json Annals.Json.Lookup Annals.Sql

def Subject.ofJson? : Json.Lookup Subject := fun json => do
  let name ← text json
  all.find? (·.name == name)

def Ending.ofJson? : Json.Lookup Ending := fun json => do
  [("ok", ok), ("fail", fail), ("panic", abandon)].lookup (← text json)

namespace Deed

def aliasChange (deed : String) (json : Json) : Option AliasChange := do
  match deed with
  | "add_alias" => return .add (← json.field? "alias")
  | "remove_alias" => return .remove (← json.field? "alias")
  | "set_alias_id" =>
    return .setId (← field json "index" natural) (← field json "raw" integer)
  | _ => none

def ofSubject (s : Subject) (json : Json) : Option Deed := do
  let slot := field json "slot" text
  let slots := field json "slots" (list text)
  match ← field json "do" text with
  | "create_scheme" => return createScheme s
  | "create_indexes" => return createIndexes s
  | "capabilities" => return capabilities s
  | "put" => return put s (← slot) (← json.field? "entity")
  | "patch" => return patch s (← slot) (← field json "fields" fields)
  | "show" => return showSlot s (← slot)
  | "set_id" => return setId s (← slot) (← field json "raw" integer)
  | "save" => return save s (← slots)
  | "update" => return update s (← slots)
  | "delete" => return delete s (← slot)
  | "delete_all" => return deleteAll s (← slots)
  | "load" =>
    return load s (← field json "id" integer) (← field? json "into" text)
  | "load_many" => return loadMany s (← field json "ids" (list integer))
  | "load_all" => return loadAll s
  | "create" => return create s (← field json "row" Row.ofJson?)
  | "update_row" => return updateRow s (← slot)
  | "delete_row" => return deleteRow s (← field json "id" integer)
  | deed =>
    if s = .identity then
      return changeAliases (← slot) (← aliasChange deed json)
    else
      none

/-- A value to be stored over another one, and whether its bytes are to be taken
as text. -/
def storedValue (json : Json) : Option (Value × Bool) :=
  match json.field? "text_hex" with
  | some bytes => do return (.blob (← hex bytes), true)
  | none => do return (← Value.ofJson? json, false)

def ofStore (json : Json) : Option Deed := do
  let statement := Statement.verbatim <$> field json "sql" text
  let params := fieldOr json "params" (list Value.ofJson?) []
  let entity := field json "entity" text
  let sequence := Statement.sequenceName <$> entity
  let table := field json "table" text
  match ← field json "do" text with
  | "panic" => return abandon
  | "info" => return describe
  | "execute" => return execute (← statement) (← params)
  | "query_i64" => return askNumber (← statement) (← params)
  | "query" =>
    return askRows (← statement) (← params) (← field? json "limit" natural)
  | "next_id" => return nextId (← entity)
  | "count" => return askNumber (.count (← table)) []
  | "index_count" => return askNumber .countIndexes []
  | "set_seq" =>
    return execute (.setSequence (← sequence))
      [← field json "value" Value.ofJson?]
  | "clear_seq" => return execute (.clearSequence (← sequence)) []
  | "drop" => return perform (.drop (← table)) []
  | "poke" =>
    let (v, asText) ← field json "value" storedValue
    let id ← field json "id" integer
    return execute (.overwrite (← table) (← field json "column" text) asText)
      [v, .integer id]
  | "fault" =>
    return arm { fragment := ← field json "sql" text,
                 skip := ← fieldOr json "skip" natural 0 }
  | "fail_commit" => return failCommit
  | "fail_rollback" => return failRollback
  | _ => none

def isRigging : Deed → Bool
  | arm _ | failCommit | failRollback => true
  | _ => false

end Deed

end Annals.Script
