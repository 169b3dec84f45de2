import Annals.Sql.Dialect

namespace Annals.Sql

/-- The rows that a selection reads. -/
inductive Scope where
  | everything
  | withKey
  /-- The rows whose column lies between two parameters, the second excluded, in
  the order of that column and then of the identifiers. -/
  | window (column : String)
  deriving DecidableEq, Repr

structure Index where
  name : String
  table : String
  columns : List String
  deriving DecidableEq, Repr

inductive Statement where
  | createSequence (sequence : String)
  | seedSequence (sequence : String)
  | nextValue (sequence : String)
  | createTable (table : Table)
  | createIndex (index : Index)
  | insert (table : Table)
  /-- Replaces every column but the identifier; the identifier comes last among
  the parameters. -/
  | update (table : Table)
  | delete (table : Table) (column : String)
  | select (table : Table) (scope : Scope)
  /-- Reads a table joined with the rows of a second one whose column `link`
  refers to it; a row without such rows is read once, with nulls.  `one`
  restricts it to one identifier. -/
  | selectFamily (parent child : Table) (link : String) (one : Bool)
  | count (table : String)
  | countIndexes
  | setSequence (sequence : String)
  | clearSequence (sequence : String)
  | drop (table : String)
  /-- Overwrites one column of the row with a given identifier, with the
  parameter's bytes taken as text if `asText` holds. -/
  | overwrite (table column : String) (asText : Bool)
  | verbatim (text : String)
  deriving DecidableEq, Repr

namespace Statement

def sequenceName (entity : String) : String := "seq_" ++ entity ++ "_id"

def columnDefinition (d : Dialect) (c : Column) : String :=
  c.name ++ " " ++ d.typeName c.type ++
    (if c.nullable then "" else " NOT NULL") ++
    (if c.type = .id then " PRIMARY KEY" else "") ++
    match c.references? with
    | some target => " REFERENCES " ++ target ++ " (id)"
    | none => ""

def renderCreateTable (d : Dialect) (t : Table) : String :=
  "CREATE TABLE " ++ t.name ++ " (" ++ ", ".intercalate
    (t.columns.map (columnDefinition d)) ++ ")"

def renderCreateIndex (i : Index) : String :=
  "CREATE INDEX " ++ i.name ++ " ON " ++ i.table ++ " (" ++ ", ".intercalate
    i.columns ++ ")"

def renderInsert (d : Dialect) (t : Table) : String :=
  "INSERT INTO " ++ t.name ++ " (" ++ t.selectList none ++ ") VALUES (" ++
    ", ".intercalate (d.placeholders t.columns.length) ++ ")"

/-- The update of a table; one without columns has none. -/
def renderUpdate? (d : Dialect) (t : Table) : Option String :=
  match t.columns with
  | [] => none
  | key :: others =>
    let assignments :=
      (others.zip (d.placeholders others.length)).map
        fun (column, placeholder) =>
        column.name ++ " = " ++ placeholder
    some ("UPDATE " ++ t.name ++ " SET " ++ ", ".intercalate assignments ++
      " WHERE " ++ key.name ++ " = " ++ d.placeholder (others.length + 1))

def renderDelete (d : Dialect) (t : Table) (column : String) : String :=
  "DELETE FROM " ++ t.name ++ " WHERE " ++ column ++ " = " ++ d.placeholder 1

def renderNextValue (d : Dialect) (sequence : String) : String :=
  match d with
  | .derby => "VALUES (NEXT VALUE FOR " ++ sequence ++ ")"
  | .hsqldb => "CALL NEXT VALUE FOR " ++ sequence
  | .postgres => "SELECT nextval('" ++ sequence ++ "')"
  | .sqlite => "UPDATE " ++ sequence ++ " SET value = value + 1 RETURNING value"

def renderCreateSequence (d : Dialect) (sequence : String) : String :=
  match d with
  | .derby | .hsqldb =>
    "CREATE SEQUENCE " ++ sequence ++ " AS BIGINT START WITH 1 INCREMENT BY 1"
  | .postgres =>
    "CREATE SEQUENCE " ++ sequence ++ " START WITH 1 INCREMENT BY 1"
  | .sqlite => "CREATE TABLE " ++ sequence ++ " (value INTEGER NOT NULL)"

def renderSelect (d : Dialect) (t : Table) (scope : Scope) : String :=
  "SELECT " ++ t.selectList none ++ " FROM " ++ t.name ++
    match scope with
    | .everything => " ORDER BY " ++ t.keyName
    | .withKey => " WHERE " ++ t.keyName ++ " = " ++ d.placeholder 1
    | .window column =>
      " WHERE " ++ column ++ " >= " ++ d.placeholder 1 ++ " AND " ++ column ++
        " < " ++ d.placeholder 2 ++ " ORDER BY " ++ column ++ ", " ++ t.keyName

/-- The columns of the second table of a family that are read: all but the
link. -/
def familyColumns (child : Table) (link : String) : List Column :=
  child.columns.filter fun c => c.name != link

def renderSelectFamily (d : Dialect) (parent child : Table) (link : String)
    (one : Bool) : String :=
  let payload : Table := { child with columns := familyColumns child link }
  "SELECT " ++ parent.selectList (some "i") ++ ", " ++ payload.selectList
    (some "a") ++ " FROM " ++
    parent.name ++ " i LEFT JOIN " ++ child.name ++ " a ON a." ++ link ++
      " = i." ++ parent.keyName ++
    (if one then " WHERE i." ++ parent.keyName ++ " = " ++
      d.placeholder 1 else "") ++
    " ORDER BY i." ++ parent.keyName ++ ", a." ++ child.keyName

def render (d : Dialect) : Statement → String
  | createSequence sequence => renderCreateSequence d sequence
  | seedSequence sequence => "INSERT INTO " ++ sequence ++ " (value) VALUES (0)"
  | nextValue sequence => renderNextValue d sequence
  | createTable table => renderCreateTable d table
  | createIndex index => renderCreateIndex index
  | insert table => renderInsert d table
  | update table => (renderUpdate? d table).getD ""
  | delete table column => renderDelete d table column
  | select table scope => renderSelect d table scope
  | selectFamily parent child link one =>
    renderSelectFamily d parent child link one
  | count table => "SELECT COUNT(*) FROM " ++ table
  | countIndexes =>
    "SELECT COUNT(*) FROM sqlite_master WHERE type = 'index' AND name LIKE 'idx_%'"
  | setSequence sequence => "UPDATE " ++ sequence ++ " SET value = ?"
  | clearSequence sequence => "DELETE FROM " ++ sequence
  | drop table => "DROP TABLE " ++ table
  | overwrite table column asText =>
    "UPDATE " ++ table ++ " SET " ++ column ++ " = " ++
      (if asText then "CAST(? AS TEXT)" else "?") ++ " WHERE id = ?"
  | verbatim text => text

def createSequenceStatements (d : Dialect) (sequence : String) :
    List Statement :=
  match d with
  | .sqlite => [createSequence sequence, seedSequence sequence]
  | _ => [createSequence sequence]

end Statement

end Annals.Sql
