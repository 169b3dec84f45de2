import Annals.Number.Binary64

namespace Annals.Toml

open Annals.Number

/-- How a table came about, which decides who may still add to it. -/
inductive Origin where
  | header
  | implied
  | dotted
  | inline
  deriving DecidableEq, Repr

mutual

inductive Item where
  | string (s : String)
  | integer (n : Int)
  | real (x : Binary64)
  | boolean (b : Bool)
  | datetime
  | array (items : List Item)
  | table (t : Table)
  | tables (ts : List Table)

/-- Named items in their order. -/
inductive Table where
  | mk (origin : Origin) (entries : List (String × Item))

end

namespace Item

def typeName : Item → String
  | string _ => "string"
  | integer _ => "integer"
  | real _ => "float"
  | boolean _ => "boolean"
  | datetime => "datetime"
  | array _ => "array"
  | table _ => "table"
  | tables _ => "array of tables"

end Item

namespace Table

def origin : Table → Origin
  | mk o _ => o

def entries : Table → List (String × Item)
  | mk _ es => es

def withEntries (t : Table) (entries : List (String × Item)) : Table :=
  mk t.origin entries

def empty (o : Origin) : Table := mk o []

def get? (t : Table) (name : String) : Option Item :=
  t.entries.lookup name

def put (t : Table) (name : String) (item : Item) : Table :=
  if (t.get? name).isSome then
    t.withEntries (t.entries.map fun e =>
      if e.1 = name then (name, item) else e)
  else
    t.withEntries (t.entries ++ [(name, item)])

def erase (t : Table) (name : String) : Table :=
  t.withEntries (t.entries.filter fun e => e.1 ≠ name)

/-- Changes the table at the end of a path of names.  Tables that are missing on
the way are made with the origin `made`; the last of several tables with one
header stands for all of them. -/
def within (made : Origin) : List String → (Table → Option Table) → Table →
    Option Table
  | [], change, t => change t
  | name :: path, change, t =>
    match t.get? name with
    | none => do return t.put name (.table
        (← within made path change (empty made)))
    | some (.table inner) =>
      if inner.origin = .inline ∨
        (made = .dotted ∧ inner.origin = .header) then none
      else do return t.put name (.table (← within made path change inner))
    | some (.tables ts) => do
      let last ← ts.getLast?
      return t.put name
        (.tables (ts.dropLast ++ [← within made path change last]))
    | some _ => none

/-- Adds an entry under a dotted key, whose last name is new. -/
def insert (path : List String) (name : String) (item : Item) (t : Table) :
    Option Table :=
  t.within .dotted path fun inner =>
    if (inner.origin = .dotted ↔ path = []) ∨ (inner.get? name).isSome then none
    else some (inner.put name item)

def insertAll (t : Table) : List (List String × String × Item) → Option Table
  | [] => some t
  | (path, name, item) :: rest => do (← t.insert path name item).insertAll rest

end Table

inductive Header where
  | single (path : List String) (name : String)
  | another (path : List String) (name : String)
  deriving DecidableEq, Repr

/-- A header with the entries below it. -/
structure Section where
  header : Header
  entries : List (List String × String × Item)

/-- A document as it is written: entries before any header, and sections. -/
structure Document where
  start : List (List String × String × Item)
  sections : List Section

namespace Document

/-- The table that a header opens, with what it has already: a table that was
only implied may get its own header, once. -/
def opened (parent : Table) (name : String) : Option (List (String × Item)) :=
  match parent.get? name with
  | none => some []
  | some (.table t) => if t.origin = .implied then some t.entries else none
  | some _ => none

def addSection (root : Table) (s : Section) : Option Table :=
  match s.header with
  | .single path name =>
    root.within .implied path fun parent => do
      let t ← (Table.mk .header (← opened parent name)).insertAll s.entries
      return (parent.erase name).put name (.table t)
  | .another path name =>
    root.within .implied path fun parent => do
      let t ← (Table.empty .header).insertAll s.entries
      match parent.get? name with
      | none => return parent.put name (.tables [t])
      | some (.tables ts) => return parent.put name (.tables (ts ++ [t]))
      | some _ => none

def toTable (d : Document) : Option Table := do
  d.sections.foldlM addSection (← (Table.empty .header).insertAll d.start)

end Document

end Annals.Toml
