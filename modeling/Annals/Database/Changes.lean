import Annals.Database.Basic

namespace Annals.Database

open Annals.Sql

abbrev Change := Except Failure (Nat × Contents)

namespace Contents

/-- Refuses a cell that is null where the column must have a value. -/
def requireValue (table column : String) (nullable : Bool) (cell : Cell) :
    Except Failure Unit :=
  if cell = .null ∧ !nullable then
    .error (Failure.backend
      ("NOT NULL constraint failed: " ++ table ++ "." ++ column))
  else .ok ()

def requireFree (t : StoredTable) (key : Int64) : Except Failure Unit :=
  if (t.row? key).isSome then
    .error (Failure.backend
      ("UNIQUE constraint failed: " ++ t.name ++ "." ++ t.keyColumn.getD ""))
  else .ok ()

def mismatch {α : Type} : Except Failure α :=
  .error (Failure.backend "datatype mismatch")

/-- Makes a table, unless its name is taken; `text` is the statement. -/
def createTable (c : Contents) (t : StoredTable) (text : String) : Change :=
  if (c.table? t.name).isSome then
    .error (Failure.backend
      ("table " ++ t.name ++ " already exists in " ++ text ++ " at offset 13"))
  else .ok (0, { c with tables := c.tables ++ [t] })

def createIndex (c : Contents) (index : Index) : Change :=
  if (c.table? index.table).isNone then noTable ("main." ++ index.table)
  else if c.indexes.any (·.name == index.name) then
    .error (Failure.backend ("index " ++ index.name ++ " already exists"))
  else .ok (0, { c with indexes := c.indexes ++ [index] })

/-- Draws cells to the classes of the columns and refuses nulls where there must
be values. -/
def drawn (table : String) :
    List Column → List Cell → Except Failure (List Cell)
  | column :: columns, cell :: cells => do
    let cell := cell.toward column.type
    requireValue table column.name column.nullable cell
    return cell :: (← drawn table columns cells)
  | column :: columns, [] => do
    requireValue table column.name column.nullable .null
    return .null :: (← drawn table columns [])
  | [], _ => .ok []

/-- The key for a new row: the one that is given, or the next one if none is. -/
def newKey (t : StoredTable) (given : Cell) : Except Failure Int64 :=
  match given with
  | .null => .ok t.nextKey
  | given =>
    match given.key? with
    | some key => .ok key
    | none => mismatch

def place (t : StoredTable) (given : List Cell) :
    Except Failure (Int64 × List Cell) :=
  match t.keyColumn, given with
  | some _, first :: others => do return (← newKey t first, others)
  | some _, [] => .ok (t.nextKey, [])
  | none, given => .ok (t.nextKey, given)

def insert (c : Contents) (name : String) (values : List Value) : Change := do
  let t ← c.table name
  c.requireTargets t
  let (key, given) ← place t (values.map Cell.ofValue)
  let cells ← drawn t.name t.columns given
  requireFree t key
  let c ← (c.put (t.add { key, cells })).checkReferences
  return (1, c)

def update (c : Contents) (name : String) (values : List Value) : Change := do
  let t ← c.table name
  c.requireTargets t
  match ((values.getLast?.map Cell.ofValue).bind Cell.key?).bind t.row? with
  | none => return (0, c)
  | some row =>
    let cells ← drawn t.name t.columns (values.dropLast.map Cell.ofValue)
    let rows :=
      t.rows.map fun r => if r.key = row.key then { r with cells } else r
    let c ← (c.put { t with rows }).checkReferences
    return (1, c)

def hits (t : StoredTable) (column : String) (values : List Value)
    (r : StoredRow) : Bool :=
  match (values.head?.map Cell.ofValue).bind Cell.key? with
  | some n => (t.cell r column).equals n
  | none => false

def delete (c : Contents) (name column : String)
    (values : List Value) : Change := do
  let t ← c.table name
  c.requireTargets t
  let c' ← (c.put (t.remove (hits t column values))).checkReferences
  return ((t.rows.filter (hits t column values)).length, c')

def setValues (c : Contents) (name : String)
    (values : List Value) : Change := do
  let t ← c.table name
  let given := Cell.ofValue (values.head?.getD .null)
  let rows ← t.rows.mapM fun r => do
    return { r with cells := ← drawn t.name t.columns [given] }
  return (rows.length, c.put { t with rows })

def clear (c : Contents) (name : String) : Change := do
  let t ← c.table name
  return (t.rows.length, c.put { t with rows := [] })

/-- Draws the next value of a sequence: the value of every row grows by one.
The answer shows the values. -/
def advance (c : Contents) (name : String) :
    Except Failure (List (List Cell) × Contents) := do
  let t ← c.table name
  let rows ← t.rows.mapM fun r => do
    return { r with
      cells := ← drawn t.name t.columns (r.cells.map Cell.addOne) }
  return (rows.map StoredRow.cells, c.put { t with rows })

def protectCatalogue (name change : String) : Except Failure Unit :=
  if isCatalogue name then
    .error (Failure.backend ("table sqlite_master may not be " ++ change))
  else .ok ()

/-- Removes a table with its indexes, unless rows elsewhere refer to it or
tables are locked. -/
def drop (c : Contents) (name : String) (locked : Bool) : Change := do
  protectCatalogue name "dropped"
  let t ← c.table name
  let c' : Contents :=
    { tables := c.tables.filter (·.name != t.name)
      indexes := c.indexes.filter (·.table != t.name) }
  let c' ← c'.checkReferences
  if locked then
    .error (Failure.backend "database table is locked")
  else
    return (0, c')

def rekey (c : Contents) (t : StoredTable) (row : StoredRow)
    (given : Cell) : Change := do
  match given.key? with
  | none => mismatch
  | some key =>
    if key = row.key then return (1, c)
    else
      requireFree t key
      let moved := (t.remove (·.key == row.key)).add { row with key }
      return (1, ← (c.put moved).checkReferences)

def recell (c : Contents) (t : StoredTable) (row : StoredRow) (position : Nat)
    (column : Column) (given : Cell) : Change := do
  let cell := given.toward column.type
  requireValue t.name column.name column.nullable cell
  let rows := t.rows.map fun r =>
    if r.key = row.key then { r with cells := r.cells.set position cell } else r
  return (1, ← (c.put { t with rows }).checkReferences)

def noColumn {α : Type} (text : String) : Except Failure α :=
  .error (Failure.backend ("no such column: " ++ text))

def columnAt (t : StoredTable) (column : String) : Option (Nat × Column) :=
  (t.position? column).bind fun n => (t.columns[n]?).map (n, ·)

/-- Refuses a column that is not there, and a table whose keys are not called
`id`; `text` is the statement. -/
def requireColumns (t : StoredTable) (column text : String) :
    Except Failure Unit :=
  if (columnAt t column).isNone && !t.isKeyColumn column &&
    !StoredTable.isKeyName column then
    noColumn column
  else if !t.isKeyColumn "id" then
    noColumn ("id in " ++ text ++ " at offset " ++
      toString (text.utf8ByteSize - "id = ?".length))
  else .ok ()

/-- Refuses to overwrite a column that refers to something in a table whose
references are amiss. -/
def requireTargetsOf (c : Contents) (t : StoredTable) (column : String) :
    Except Failure Unit :=
  if (columnAt t column).any (·.2.references?.isSome) then
    c.requireTargets t
  else
    .ok ()

/-- Overwrites one column of the row with a key; `text` is the statement. -/
def overwrite (c : Contents) (name column : String) (given : Cell)
    (key : Option Int64) (text : String) : Change := do
  protectCatalogue name "modified"
  let t ← c.table name
  requireColumns t column text
  c.requireTargetsOf t column
  match key.bind t.row?, columnAt t column with
  | none, _ => return (0, c)
  | some row, some (n, column) => c.recell t row n column given
  | some row, none => c.rekey t row given

end Contents

end Annals.Database
