import Annals.Database.Cell
import Annals.Sql.Statement

/-!
The database keeps tables of rows in the order of their keys, and indexes, which
are only names here.  Tables and columns keep the names that they were made
with, and are found whatever the case of the letters.  An open transaction keeps
what the database held when it began.
-/

namespace Annals

open Annals.Sql

namespace Database

/-- Whether two names denote the same table or column.  The case of the letters
of ASCII does not matter. -/
def sameName (a b : String) : Bool :=
  a.toList.map Char.toLower == b.toList.map Char.toLower

/-- A row: its key, and its cells in the other columns. -/
structure StoredRow where
  key : Int64
  cells : List Cell
  deriving DecidableEq, Repr

/-- A table with its rows in the order of their keys. -/
structure StoredTable where
  name : String
  /-- The name of the column that shows the keys, if there is one. -/
  keyColumn : Option String
  columns : List Column
  rows : List StoredRow := []
  deriving DecidableEq, Repr

namespace StoredTable

def ofTable (t : Table) : StoredTable :=
  match t.columns with
  | first :: others =>
    if first.type = .id then
      { name := t.name, keyColumn := some first.name, columns := others }
    else
      { name := t.name, keyColumn := none, columns := t.columns }
  | [] => { name := t.name, keyColumn := none, columns := [] }

def ofSequence (sequence : String) : StoredTable :=
  { name := sequence, keyColumn := none,
    columns := [.required "value" .bigInt] }

def row? (t : StoredTable) (key : Int64) : Option StoredRow :=
  t.rows.find? (·.key == key)

def position? (t : StoredTable) (column : String) : Option Nat :=
  t.columns.findIdx? fun c => sameName c.name column

def isKeyColumn (t : StoredTable) (column : String) : Bool :=
  t.keyColumn.any (sameName · column)

/-- Whether a name denotes the keys of every table, whatever the columns are
called. -/
def isKeyName (name : String) : Bool :=
  ["rowid", "oid", "_rowid_"].any (sameName · name)

/-- The cell of a row in a column; the key counts as one. -/
def cell (t : StoredTable) (r : StoredRow) (column : String) : Cell :=
  if t.isKeyColumn column then .integer r.key
  else ((t.position? column).bind (r.cells[·]?)).getD .null

/-- The cells of a row, the key first if it is shown. -/
def shownCells (t : StoredTable) (r : StoredRow) : List Cell :=
  if t.keyColumn.isSome then .integer r.key :: r.cells else r.cells

def nextKey (t : StoredTable) : Int64 :=
  match t.rows.getLast? with
  | some r => r.key + 1
  | none => 1

def insertRow (row : StoredRow) : List StoredRow → List StoredRow
  | [] => [row]
  | r :: rest =>
    if row.key < r.key then row :: r :: rest else r :: insertRow row rest

def add (t : StoredTable) (row : StoredRow) : StoredTable :=
  { t with rows := insertRow row t.rows }

def remove (t : StoredTable) (condition : StoredRow → Bool) : StoredTable :=
  { t with rows := t.rows.filter fun r => !condition r }

end StoredTable

structure Contents where
  tables : List StoredTable := []
  indexes : List Index := []
  deriving DecidableEq, Repr

namespace Contents

def schema (c : Contents) : List String × List Index :=
  (c.tables.map StoredTable.name, c.indexes)

def table? (c : Contents) (name : String) : Option StoredTable :=
  c.tables.find? fun t => sameName t.name name

/-- Whether a name denotes the list of the tables and indexes, which reads as a
table itself. -/
def isCatalogue (name : String) : Bool :=
  sameName name "sqlite_master" || sameName name "sqlite_schema"

def catalogueSize (c : Contents) : Nat := c.tables.length + c.indexes.length

def put (c : Contents) (t : StoredTable) : Contents :=
  { c with tables := c.tables.map fun other => if other.name = t.name then t
    else other }

def noTable {α : Type} (name : String) : Except Failure α :=
  .error (Failure.backend ("no such table: " ++ name))

def table (c : Contents) (name : String) : Except Failure StoredTable :=
  match c.table? name with
  | some t => .ok t
  | none => noTable name

def targets (t : StoredTable) : List String :=
  t.columns.filterMap Column.references?

/-- Refuses to work on rows that refer to a table which is not there. -/
def requireTargets (c : Contents) (t : StoredTable) : Except Failure Unit :=
  (targets t).forM fun target =>
    if (c.table? target).isSome then .ok () else noTable ("main." ++ target)

def refersTo (c : Contents) (target : String) (cell : Cell) : Bool :=
  match cell with
  | .null => true
  | cell =>
    match cell.key?, c.table? target with
    | some key, some t => (t.row? key).isSome
    | _, _ => false

/-- Whether every reference of a row has its row. -/
def rowIsSound (c : Contents) (t : StoredTable) (r : StoredRow) : Bool :=
  (t.columns.zip r.cells).all fun (column, cell) =>
    match column.references? with
    | some target => c.refersTo target cell
    | none => true

def isSound (c : Contents) : Bool :=
  c.tables.all fun t => t.rows.all (c.rowIsSound t)

def checkReferences (c : Contents) : Except Failure Contents :=
  if c.isSound then
    .ok c
  else
    .error (Failure.backend "FOREIGN KEY constraint failed")

end Contents

end Database

structure Database where
  contents : Database.Contents := {}
  /-- What the database held when the open transaction began. -/
  saved : Option Database.Contents := none
  /-- How often tables or indexes have been undone; results that are open then
  are lost. -/
  upheavals : Nat := 0
  /-- The number of results that are held open; as long as there is one, no
  table can be removed. -/
  held : Nat := 0
  deriving DecidableEq, Repr

end Annals
