import Annals.Failure
import Annals.Sql.Table
import Annals.Text.Blank

namespace Annals.Sql

open Annals.Text

inductive Dialect where
  | derby
  | hsqldb
  | postgres
  | sqlite
  deriving DecidableEq, Repr

namespace Dialect

def all : List Dialect := [derby, hsqldb, postgres, sqlite]

def name : Dialect → String
  | derby => "derby"
  | hsqldb => "hsqldb"
  | postgres => "postgres"
  | sqlite => "sqlite"

def label : Dialect → String
  | derby => "Derby"
  | hsqldb => "Hsqldb"
  | postgres => "Postgres"
  | sqlite => "Sqlite"

def selectors : List (String × Dialect) :=
  [("derby", derby), ("hsqldb", hsqldb), ("hsql", hsqldb),
    ("postgres", postgres), ("postgresql", postgres), ("pg", postgres),
    ("sqlite", sqlite), ("sqlite3", sqlite)]

/-- Selects a dialect.  White space around the selector and the case of its
letters do not matter. -/
def select (selector : String) : Except Failure Dialect :=
  let name := String.ofList (lowerAscii (trimBlank selector.toList))
  match selectors.lookup name with
  | some dialect => .ok dialect
  | none =>
    .error (Failure.configuration ("unknown dialect '" ++ name ++
      "' (expected one of derby, hsqldb, postgres, sqlite)"))

def typeName : Dialect → ColumnType → String
  | sqlite, .id | sqlite, .bigInt => "INTEGER"
  | _, .id | _, .bigInt => "BIGINT"
  | sqlite, .text | sqlite, .longText | postgres, .text | postgres, .longText =>
    "TEXT"
  | derby, .text | hsqldb, .text => "VARCHAR(1024)"
  | derby, .longText => "CLOB"
  | hsqldb, .longText => "LONGVARCHAR"

def placeholder (d : Dialect) (n : Nat) : String :=
  match d with
  | postgres => "$" ++ toString n
  | _ => "?"

def placeholders (d : Dialect) (count : Nat) : List String :=
  (List.range count).map fun n => d.placeholder (n + 1)

end Dialect

end Annals.Sql
