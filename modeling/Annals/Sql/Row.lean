import Annals.Failure
import Annals.Identifier
import Annals.Number.Binary64
import Annals.Time.Rfc3339

namespace Annals.Sql

open Annals.Number Annals.Time

inductive Value where
  | null
  | integer (n : Int64)
  | real (x : Binary64)
  | text (s : String)
  | blob (bytes : List UInt8)
  deriving DecidableEq, Repr

namespace Value

def typeName : Value → String
  | null => "NULL"
  | integer _ => "INTEGER"
  | real _ => "REAL"
  | text _ => "TEXT"
  | blob _ => "BLOB"

/-- Equality of values; reals are compared as numbers. -/
def same : Value → Value → Bool
  | real x, real y => x.same y
  | v, w => v == w

def ofId (id : EntityId) : Value := integer id.value

def ofOption {α : Type} (encode : α → Value) : Option α → Value
  | some a => encode a
  | none => null

def ofInstant (t : Instant) : Except Failure Value :=
  match t.epochNanos? with
  | some n => .ok (integer n)
  | none =>
    .error (Failure.invalidArgument "encode_timestamp"
      ("timestamp " ++ t.toText ++ " cannot be stored as epoch nanoseconds"))

def ofOptionalInstant : Option Instant → Except Failure Value
  | some t => ofInstant t
  | none => .ok null

end Value

structure Row where
  values : List Value
  deriving DecidableEq, Repr

namespace Row

def value (r : Row) (column : Nat) : Except Failure Value :=
  match r.values[column]? with
  | some v => .ok v
  | none =>
    .error (Failure.decode column
      ("row has only " ++ toString r.values.length ++ " columns"))

/-- A column that may be null, read by `get` where it is not. -/
def optional {α : Type} (get : Row → Nat → Except Failure α) (r : Row)
    (column : Nat) :
    Except Failure (Option α) := do
  match ← r.value column with
  | .null => return none
  | _ => return some (← get r column)

def isNull (r : Row) (column : Nat) : Except Failure Bool := do
  match ← r.value column with
  | .null => return true
  | _ => return false

def int64 (r : Row) (column : Nat) : Except Failure Int64 := do
  match ← r.value column with
  | .integer n => return n
  | v =>
    throw (Failure.decode column ("expected INTEGER, found " ++ v.typeName))

def entityId (r : Row) (column : Nat) : Except Failure EntityId := do
  match EntityId.ofValue (← r.int64 column) with
  | .ok id => return id
  | .error e => throw (Failure.decode column e.message)

def string (r : Row) (column : Nat) : Except Failure String := do
  match ← r.value column with
  | .text s => return s
  | v => throw (Failure.decode column ("expected TEXT, found " ++ v.typeName))

/-- A stored instant, made of the parts into which its count of nanoseconds is
split. -/
def instant (r : Row) (column : Nat) : Except Failure Instant := do
  let n ← r.int64 column
  let parts := Instant.splitCount n
  match Instant.ofParts? parts.1.toInt parts.2.toNat with
  | some t => return t
  | none =>
    throw (Failure.decode column
      ("timestamp " ++ toString n ++ " ns is out of range"))

end Row

end Annals.Sql
