import Annals.Database.Basic
import Annals.Stream.Cursor

namespace Annals.Database

open Annals.Sql Annals.Stream

/-- The place of a row in a result: a number for the order, a key, and the key
of a second row joined to the first. -/
structure Place where
  rank : Int × Nat := (0, 1)
  key : Int64
  second : Option Int64 := none
  deriving DecidableEq, Repr

namespace Place

def less (a b : Int × Nat) : Bool := a.1 * b.2 < b.1 * a.2

def before (p q : Place) : Bool :=
  less p.rank q.rank || (!less q.rank p.rank &&
    (p.key < q.key || (p.key == q.key && match p.second, q.second with
      | none, some _ => true
      | some m, some n => m < n
      | _, none => false)))

/-- Whether a result that has come to `p` still comes to `q`.  A row that was
read without a second one is done with. -/
def comesTo (p q : Place) : Bool :=
  p.before q && !(p.second.isNone && q.second.isSome && p.key == q.key)

end Place

structure ResultRow where
  place : Place
  cells : List Cell
  deriving DecidableEq, Repr

namespace ResultRow

def values : Nat → List Cell → Except Failure (List Value)
  | _, [] => .ok []
  | column, cell :: cells =>
    match cell.toValue with
    | .ok v => do return v :: (← values (column + 1) cells)
    | .error fault => .error (Failure.decode column fault.message)

def fetch (r : ResultRow) : Fetch :=
  match values 0 r.cells with
  | .ok vs => .row ⟨vs⟩
  | .error f => .fault f

end ResultRow

namespace Contents

def rowsOf (t : StoredTable) (condition : StoredRow → Bool) : List ResultRow :=
  (t.rows.filter condition).map fun r =>
    { place := { key := r.key }, cells := t.shownCells r }

def givenKey (params : List Value) : Option Int64 :=
  (params.head?.map Cell.ofValue).bind Cell.key?

def ordered (rows : List ResultRow) : List ResultRow :=
  rows.mergeSort fun a b => !b.place.before a.place

/-- The rows whose cell in a column lies between two parameters, the second
excluded, by that cell. -/
def window (t : StoredTable) (column : String) (params : List Value) :
    List ResultRow :=
  match params.map fun v => (Cell.ofValue v).fraction? with
  | [some low, some high] =>
    ordered (t.rows.filterMap fun r => do
      let rank ← (t.cell r column).fraction?
      if !Place.less rank low && Place.less rank high then
        return { place := { rank, key := r.key }, cells := t.shownCells r }
      else none)
  | _ => []

def select (t : StoredTable) (scope : Scope) (params : List Value) :
    List ResultRow :=
  match scope with
  | .everything => rowsOf t fun _ => true
  | .withKey => rowsOf t fun r => givenKey params == some r.key
  | .window column => window t column params

def familyCells (child : StoredTable) (link : String)
    (r : StoredRow) : List Cell :=
  .integer r.key :: ((child.columns.zip r.cells).filter fun (c, _) =>
    c.name != link).map Prod.snd

/-- The rows of a family that belong to one row of the first table: one for each
row of the second table that refers to it, or one with nulls. -/
def familyOf (parent child : StoredTable) (link : String) (r : StoredRow) :
    List ResultRow :=
  match child.rows.filter fun s => (child.cell s link).equals r.key with
  | [] =>
    [{ place := { key := r.key }, cells := parent.shownCells r ++
        .null :: (child.columns.filter (·.name != link)).map fun _ => .null }]
  | children => children.map fun s =>
    { place := { key := r.key, second := some s.key },
      cells := parent.shownCells r ++ familyCells child link s }

def selectFamily (parent child : StoredTable) (link : String) (one : Bool)
    (params : List Value) :
    List ResultRow :=
  let chosen :=
    if one then
      parent.rows.filter fun r => givenKey params == some r.key
    else
      parent.rows
  chosen.flatMap (familyOf parent child link)

def read (c : Contents) (s : Statement) (params : List Value) :
    Except Failure (List ResultRow) :=
  let single (n : Nat) : List ResultRow :=
    [{ place := { key := 0 }, cells := [.integer (Int64.ofNat n)] }]
  match s with
  | .select table scope => do return select (← c.table table.name) scope params
  | .selectFamily parent child link one => do
    let parent ← c.table parent.name
    let child ← c.table child.name
    return selectFamily parent child link one params
  | .count table =>
    if isCatalogue table then .ok (single c.catalogueSize)
    else do return single (← c.table table).rows.length
  | .countIndexes =>
    .ok (single (c.indexes.filter fun i => i.name.startsWith "idx_").length)
  | _ => .ok []

def hasIndexOn (c : Contents) (table column : String) : Bool :=
  c.indexes.any fun i => i.table == table && i.columns.head? == some column

/-- Whether a result is read row by row while it is open.  A result that had to
be sorted first, or that has one row at most, is complete once its first row has
been read. -/
def followsChanges (c : Contents) : Statement → Bool
  | .select _ .withKey => false
  | .select table (.window column) => c.hasIndexOn table.name column
  | .selectFamily _ child link false => c.hasIndexOn child.name link
  | _ => true

def behind (last : Option Place) (rows : List ResultRow) : List ResultRow :=
  match last with
  | none => rows
  | some p => rows.filter fun r => p.comesTo r.place

def lastPlace (s : Statement) (params : List Value)
    (trail : List (Contents × Nat)) : Option Place :=
  trail.foldl (fun last (c, count) =>
    match c.read s params, count with
    | .ok rows, n + 1 =>
      ((behind last rows)[n]?).elim last fun r => some r.place
    | _, _ => last) none

/-- What is left of an open result.  One of which nothing has been fetched is
run anew; whether it is sorted is decided when its first row is fetched. -/
def resume (s : Statement) (params : List Value) (trail : List (Contents × Nat))
    (now : Contents) (rest : Cursor) : Cursor :=
  match rest.progress, now.read s params with
  | .fresh, .ok rows => { fetches := rows.map ResultRow.fetch }
  | .fresh, .error f => { fetches := [.lost f] }
  | .underWay, .ok rows =>
    if (trail.find? (0 < ·.2)).any fun (first, _) => first.followsChanges s then
      .underWay ((behind (lastPlace s params trail) rows).map ResultRow.fetch)
    else rest
  | .underWay, .error _ | .ended, _ => rest

end Contents

end Annals.Database
