import Annals.Json.Basic
import Annals.Number.Bounded
import Annals.Text.Hex

namespace Annals.Json

open Annals.Number Annals.Text

abbrev Lookup (α : Type) := Json → Option α

namespace Lookup

def text : Lookup String
  | .string s => some s
  | _ => none

def bool : Lookup Bool
  | .bool b => some b
  | _ => none

def integer : Lookup Int64
  | .integer n => int64? n
  | _ => none

def natural : Lookup Nat
  | .integer n => if 0 ≤ n ∧ n < UInt64.size then some n.toNat else none
  | _ => none

def real : Lookup Binary64
  | .integer n => some (Binary64.ofInt n)
  | .real x => some x
  | _ => none

def hex : Lookup (List UInt8)
  | .string s => bytesOfHex? s.toList
  | _ => none

variable {α : Type}

def list (item : Lookup α) : Lookup (List α)
  | .array items => items.mapM item
  | _ => none

def items : Lookup (List Json) := list some

def fields : Lookup (List (String × Json))
  | .object fs => some fs
  | _ => none

def nullable (value : Lookup α) : Lookup (Option α)
  | .null => some none
  | json => some <$> value json

def field (json : Json) (name : String) (value : Lookup α) : Option α :=
  (json.field? name).bind value

def field? (json : Json) (name : String) (value : Lookup α) :
    Option (Option α) :=
  match json.field? name with
  | none => some none
  | some found => nullable value found

def fieldOr (json : Json) (name : String) (value : Lookup α)
    (otherwise : α) : Option α :=
  (field? json name value).map (·.getD otherwise)

end Lookup

end Annals.Json
