import Annals.Json.Lookup
import Annals.Sql.Row

namespace Annals.Sql

open Annals.Json Annals.Time

def Value.ofJson? : Json.Lookup Value
  | .null => some .null
  | .integer n => .integer <$> Lookup.integer (.integer n)
  | .string s => some (.text s)
  | .object fs =>
    match fs.lookup "real", fs.lookup "blob" with
    | some json, _ => .real <$> Lookup.real json
    | none, some json => .blob <$> Lookup.hex json
    | none, none => none
  | _ => none

def Row.ofJson? : Json.Lookup Row :=
  fun json => Row.mk <$> Lookup.list Value.ofJson? json

def instantOfJson? : Json.Lookup Instant
  | .array [seconds, nanos] => do
    Instant.ofParts? (← Lookup.integer seconds).toInt (← Lookup.natural nanos)
  | _ => none

end Annals.Sql
