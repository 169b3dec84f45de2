import Annals.Stream.Groups
import Annals.Stream.Rows

namespace Annals.Stream

/-- Reads records from a cursor, once and in order. -/
inductive RecordStream (α : Type) where
  | rows (s : RowStream α)
  | groups (s : KeyedStream α)

namespace RecordStream

variable {α : Type}

def hasNext : RecordStream α → Except Failure Bool × RecordStream α
  | rows s => let (outcome, s) := s.hasNext; (outcome, rows s)
  | groups s => let (outcome, s) := s.hasNext; (outcome, groups s)

def next : RecordStream α → Except Failure α × RecordStream α
  | rows s => let (outcome, s) := s.next; (outcome, rows s)
  | groups s => let (outcome, s) := s.next; (outcome, groups s)

def cursor : RecordStream α → Cursor
  | rows s => s.cursor
  | groups s => s.cursor

def withCursor (cursor : Cursor) : RecordStream α → RecordStream α
  | rows s => rows { s with cursor }
  | groups s => groups { s with cursor }

/-- One step of going through a stream: the next record or failure, or none at
the end. -/
def step (s : RecordStream α) : Option (Except Failure α) × RecordStream α :=
  match s.hasNext with
  | (.ok true, s) => let (outcome, s) := s.next; (some outcome, s)
  | (.ok false, s) => (none, s)
  | (.error f, s) => (some (.error f), s)

/-- Goes through a stream until it ends, fails for the first time, or has given
`limit` answers. -/
def walk (s : RecordStream α) :
    (limit : Nat) → List (Except Failure α) × RecordStream α
  | 0 => ([], s)
  | limit + 1 =>
    match s.step with
    | (none, s) => ([], s)
    | (some (.error f), s) => ([.error f], s)
    | (some (.ok a), s) =>
      let (rest, s) := s.walk limit
      (.ok a :: rest, s)

/-- More answers than a stream can give: each takes a fetch, or a row or record
already in hand. -/
def bound (s : RecordStream α) : Nat := s.cursor.left + 4

def entities (s : RecordStream α) : List (Except Failure α) × RecordStream α :=
  s.walk s.bound

/-- The records of a stream, if none fails. -/
def collect (s : RecordStream α) : Except Failure (List α) × RecordStream α :=
  let (answers, s) := s.entities
  (answers.mapM id, s)

end RecordStream

end Annals.Stream
