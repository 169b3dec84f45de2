import Annals.Redacted
import Annals.Sql.Dialect
import Annals.Text.Quoted

namespace Annals

open Annals.Sql Annals.Text

/-- What a deletion does with a record that was never stored. -/
inductive DeletePolicy where
  | logAndSkip
  | reject
  deriving DecidableEq, Repr

namespace DeletePolicy

def label : DeletePolicy → String
  | logAndSkip => "LogAndSkip"
  | reject => "Reject"

def choices : List (String × DeletePolicy) :=
  [("log_and_skip", logAndSkip), ("reject", reject)]

end DeletePolicy

structure Options where
  deletePolicy : DeletePolicy := .logAndSkip
  /-- Whether rows that make up groups must arrive in the order of their
  keys. -/
  checkGroupOrdering : Bool := true
  deriving DecidableEq, Repr

namespace Options

def renderFields (o : Options) : String :=
  "delete_policy: " ++ o.deletePolicy.label ++ ", check_group_ordering: " ++
    toString o.checkGroupOrdering

def render (o : Options) : String :=
  "HandleOptions \x7b " ++ o.renderFields ++ " \x7d"

end Options

/-- A database and the options of a store on it. -/
structure Config where
  dialect : Dialect
  path : Option String := none
  host : Option String := none
  port : Option UInt16 := none
  database : Option String := none
  user : Option String := none
  password : Option (Redacted String) := none
  options : Options := {}
  deriving DecidableEq

namespace Config

def inMemoryPath : String := ":memory:"

def embedded (path : String) : Config :=
  { dialect := .sqlite, path := some path }

def inMemory : Config := embedded inMemoryPath

def network (dialect : Dialect) (host database : String) : Config :=
  { dialect, host := some host, database := some database }

def isBlank (parameter : Option String) : Bool :=
  parameter.all isAllBlank

def missing (d : Dialect) (parameter : String) : Failure :=
  Failure.configuration
    (d.name ++ " store requires a non-empty '" ++ parameter ++ "'")

def validate (c : Config) : Except Failure Unit :=
  if c.dialect = .sqlite then
    if c.path.all String.isEmpty then
      .error (missing c.dialect "path")
    else
      .ok ()
  else if isBlank c.host then .error (missing c.dialect "host")
  else if isBlank c.database then .error (missing c.dialect "database")
  else if c.port = some 0 then
    .error (Failure.configuration "'port' must be between 1 and 65535")
  else .ok ()

def descriptor (c : Config) : String :=
  if c.dialect = .sqlite then "sqlite:" ++ c.path.getD ""
  else
    let user := match c.user with
      | some user => user ++ "@"
      | none => ""
    let port := match c.port with
      | some port => ":" ++ toString port
      | none => ""
    c.dialect.name ++ "://" ++ user ++ c.host.getD "" ++ port ++ "/" ++
      c.database.getD ""

/-- The configuration as a rendered record, without the password. -/
def render (c : Config) : String :=
  let port := renderOption id (c.port.map fun port => toString port)
  "StoreConfig \x7b dialect: " ++ c.dialect.label ++ ", path: " ++ renderOption
    quotedPath c.path ++
    ", host: " ++ renderOption quoted c.host ++ ", port: " ++ port ++
    ", database: " ++ renderOption quoted c.database ++ ", user: " ++
      renderOption quoted c.user ++
    ", password: " ++ Redacted.renderOption c.password ++ ", " ++
      c.options.renderFields ++ " \x7d"

end Config

end Annals
