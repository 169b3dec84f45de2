namespace Annals.Sql

/-- What a column holds. -/
inductive ColumnType where
  | id
  | bigInt
  | text
  /-- Text without a bound. -/
  | longText
  deriving DecidableEq, Repr

namespace ColumnType

def all : List ColumnType := [id, bigInt, text, longText]

end ColumnType

structure Column where
  name : String
  type : ColumnType
  nullable : Bool := false
  /-- The table whose identifier the column refers to. -/
  references? : Option String := none
  deriving DecidableEq, Repr

namespace Column

def identifier : Column := { name := "id", type := .id }

def required (name : String) (type : ColumnType) : Column := { name, type }

def optional (name : String) (type : ColumnType) : Column :=
  { name, type, nullable := true }

def referencing (c : Column) (table : String) : Column :=
  { c with references? := some table }

end Column

structure Table where
  name : String
  columns : List Column
  deriving DecidableEq, Repr

namespace Table

def columnNames (t : Table) : List String := t.columns.map Column.name

/-- The names of the columns, each with the name of its table in front if one is
given. -/
def selectList (t : Table) (qualifier : Option String) : String :=
  ", ".intercalate (t.columnNames.map fun name =>
    match qualifier with
    | some q => q ++ "." ++ name
    | none => name)

def keyName (t : Table) : String := (t.columnNames.head?).getD ""

end Table

def branches : Table where
  name := "branches"
  columns := [.identifier, .required "name" .text,
    .required "created_at" .bigInt, .optional "merged_at" .bigInt]

def commits : Table where
  name := "commits"
  columns := [.identifier, .required "revision" .text,
    .optional "author_id" .bigInt, .optional "branch_id" .bigInt,
    .required "committed_at" .bigInt, .required "message" .longText,
    .required "lines_added" .bigInt, .required "lines_removed" .bigInt]

def identities : Table where
  name := "identities"
  columns := [.identifier, .required "name" .text,
    .optional "primary_email" .text]

def identityAliases : Table where
  name := "identity_aliases"
  columns :=
    [.identifier, (Column.required "identity_id" .bigInt).referencing
      "identities", .required "name" .text, .required "email" .text]

def storeTables : List Table := [branches, commits, identities, identityAliases]

end Annals.Sql
