import Annals.Failure

namespace Annals.Log

/-- How much attention an event deserves. -/
inductive Severity where
  | info
  | warning
  | error
  deriving DecidableEq, Repr

namespace Severity

def name : Severity → String
  | info => "INFO"
  | warning => "WARN"
  | error => "ERROR"

end Severity

inductive Stage where
  | start
  | done
  | failed
  | skipped
  | rollbackFailed
  deriving DecidableEq, Repr

namespace Stage

def all : List Stage := [start, done, failed, skipped, rollbackFailed]

def name : Stage → String
  | start => "start"
  | done => "end"
  | failed => "end_error"
  | skipped => "skipped"
  | rollbackFailed => "rollback_failed"

end Stage

/-- The details that events share. -/
inductive Detail where
  | component
  | operation
  | stage
  | duration
  | entity
  | entityId
  | dialect
  | rows
  | failureKind
  | failureCode
  deriving DecidableEq, Repr

namespace Detail

def all : List Detail :=
  [component, operation, stage, duration, entity, entityId, dialect, rows,
    failureKind, failureCode]

def name : Detail → String
  | component => "component"
  | operation => "op"
  | stage => "event"
  | duration => "duration_ms"
  | entity => "entity"
  | entityId => "entity_id"
  | dialect => "dialect"
  | rows => "rows"
  | failureKind => "err_kind"
  | failureCode => "err_code"

end Detail

def messageName : String := "message"

structure Event where
  severity : Severity
  component : String
  operation : String
  stage : Stage
  details : List (String × String) := []
  deriving DecidableEq, Repr

namespace Event

/-- All details of an event by name, those that every event has first. -/
def allDetails (e : Event) : List (String × String) :=
  (Detail.component.name, e.component) :: (Detail.operation.name,
    e.operation) ::
    (Detail.stage.name, e.stage.name) :: e.details

def started (component operation : String)
    (details : List (String × String) := []) : Event :=
  { severity := .info, component, operation, stage := .start, details }

def finished (component operation : String)
    (details : List (String × String) := []) : Event :=
  { severity := .info, component, operation, stage := .done, details }

def failed (component operation : String) (f : Failure)
    (details : List (String × String) := []) :
    Event :=
  { severity := .error, component, operation, stage := .failed,
    details := (Detail.failureKind.name, f.kind.name) ::
      (Detail.failureCode.name, f.kind.code) ::
      details ++ [(messageName, f.render)] }

def skipped (component operation entity : String) (id : Int64)
    (message : String) : Event :=
  { severity := .warning, component, operation, stage := .skipped,
    details :=
      [(Detail.entity.name, entity), (Detail.entityId.name, toString id),
        (messageName, message)] }

/-- The changes of a failed operation could not be undone.  The event keeps the
failure for whose sake they were to be undone. -/
def rollbackFailed (component operation : String) (f cause : Failure) : Event :=
  { severity := .error, component, operation, stage := .rollbackFailed,
    details := [(Detail.failureCode.name, f.kind.code), ("cause", cause.render),
      (messageName, "rollback failed: " ++ f.render)] }

end Event

def find (events : List Event) (operation stage : String) : List Event :=
  events.filter fun e => e.operation == operation && e.stage.name == stage

def count (events : List Event) (severity : Severity) : Nat :=
  (events.filter (·.severity == severity)).length

/-- Says which event is missing, if no event of that stage of the operation is
there. -/
def demand (events : List Event) (operation stage : String) :
    Except String Unit :=
  if (find events operation stage).isEmpty then
    .error ("Expected event op=" ++ operation ++ " event=" ++ stage ++
      " not found in " ++ toString events.length ++ " captured events")
  else
    .ok ()

end Annals.Log
