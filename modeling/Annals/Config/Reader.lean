import Annals.Config.Basic
import Annals.Number.Shortest
import Annals.Text.Utf8
import Annals.Toml.Reader

namespace Annals

open Annals.Text Annals.Toml
open Annals.Sql (Dialect)

/-- Why a text or file is no configuration. -/
inductive ConfigError where
  /-- The text describes no table. -/
  | notATable
  /-- An entry does not fit, or the dialect is missing. -/
  | misfit (message : String)
  /-- The parameters do not suit the dialect, or the file cannot be read. -/
  | refused (f : Failure)
  deriving DecidableEq

namespace Config

def describe : Item → String
  | .string s => "string " ++ quoted s
  | .integer n => "integer \x60" ++ toString n ++ "\x60"
  | .real x => "floating point \x60" ++ x.toPositional ++ "\x60"
  | .boolean b => "boolean \x60" ++ toString b ++ "\x60"
  | .datetime => "map"
  | .array _ => "sequence"
  | .table _ => "map"
  | .tables _ => "sequence"

def wrongType {α : Type} (item : Item) (expected : String) : Except String α :=
  .error ("invalid type: " ++ describe item ++ ", expected " ++ expected)

def text (expected : String) : Item → Except String String
  | .string s => .ok s
  | item => wrongType item expected

def boolean : Item → Except String Bool
  | .boolean b => .ok b
  | item => wrongType item "a boolean"

def portNumber : Item → Except String UInt16
  | .integer n =>
    if 0 ≤ n ∧ n < UInt16.size then .ok (UInt16.ofNat n.toNat)
    else .error ("invalid value: " ++ describe (.integer n) ++ ", expected u16")
  | item => wrongType item "u16"

def policyOfName (name : String) : Except String DeletePolicy :=
  match DeletePolicy.choices.lookup name with
  | some policy => .ok policy
  | none =>
    .error ("unknown variant \x60" ++ name ++ "\x60, expected " ++
      " or ".intercalate (DeletePolicy.choices.map fun (choice, _) =>
        "\x60" ++ choice ++ "\x60"))

/-- Checks that the item under the name of a policy is without content. -/
def noContent : Item → Except String Unit
  | .table t =>
    if t.entries.isEmpty then .ok () else .error "expected empty table"
  | .array items =>
    if items.isEmpty then .ok () else .error "expected empty table"
  | .tables ts => if ts.isEmpty then .ok () else .error "expected empty array"
  | item => .error ("expected table, found " ++ item.typeName)

/-- A policy is given by its name, or by a table with an empty item under that
name. -/
def deletePolicy : Item → Except String DeletePolicy
  | .string name => policyOfName name
  | .table t =>
    match t.entries with
    | [] => .error "wanted exactly 1 element, found 0 elements"
    | [(name, item)] => do
      let policy ← policyOfName name
      noContent item
      return policy
    | _ => .error "wanted exactly 1 element, more than 1 element"
  | _ => .error "wanted string or table"

/-- The dialect, once it is known, and a configuration to which it will be
given. -/
structure Draft where
  dialect? : Option Dialect := none
  config : Config := { dialect := .sqlite }

def Draft.take (d : Draft) (name : String) (item : Item) :
    Except String Draft := do
  let plain := text "a string" item
  match name with
  | "dialect" =>
    match Dialect.select (← plain) with
    | .ok dialect => return { d with dialect? := some dialect }
    | .error f => throw f.render
  | "path" => return { d with config.path := some (← text "path string" item) }
  | "host" => return { d with config.host := some (← plain) }
  | "port" => return { d with config.port := some (← portNumber item) }
  | "database" => return { d with config.database := some (← plain) }
  | "user" => return { d with config.user := some (← plain) }
  | "password" => return { d with config.password := some (.conceal (← plain)) }
  | "delete_policy" =>
    return { d with config.options.deletePolicy := ← deletePolicy item }
  | "check_group_ordering" =>
    return { d with config.options.checkGroupOrdering := ← boolean item }
  | _ => return d

def ofTable (t : Table) : Except String Config := do
  let draft ← t.entries.foldlM (fun d (name, item) => d.take name item)
    ({} : Draft)
  match draft.dialect? with
  | some dialect => return { draft.config with dialect }
  | none => throw "missing field \x60dialect\x60"

def ofText (s : String) : Except ConfigError Config :=
  match Table.ofText s with
  | none => .error .notATable
  | some t =>
    match ofTable t with
    | .error message => .error (.misfit message)
    | .ok config =>
      match config.validate with
      | .ok () => .ok config
      | .error f => .error (.refused f)

def ofFile : Option (List UInt8) → Except ConfigError Config
  | none =>
    .error
      (.refused (Failure.io "read_config"
        "No such file or directory (os error 2)"))
  | some bytes =>
    match decodeUtf8 bytes with
    | .ok s => ofText s
    | .error _ =>
      .error
        (.refused (Failure.io "read_config"
          "stream did not contain valid UTF-8"))

end Config

end Annals
