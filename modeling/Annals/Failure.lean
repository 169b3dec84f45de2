namespace Annals

namespace Failure

inductive Kind where
  | invalidArgument
  | illegalState
  | noSuchElement
  | configuration
  | unsupported
  | backend
  | decode
  | io
  | consistencyViolation
  | orderingViolation
  | internal
  deriving DecidableEq, Repr

namespace Kind

def all : List Kind :=
  [invalidArgument, illegalState, noSuchElement, configuration, unsupported,
    backend, decode, io, consistencyViolation, orderingViolation, internal]

def name : Kind → String
  | invalidArgument => "InvalidArgument"
  | illegalState => "IllegalState"
  | noSuchElement => "NoSuchElement"
  | configuration => "Configuration"
  | unsupported => "Unsupported"
  | backend => "Backend"
  | decode => "Decode"
  | io => "Io"
  | consistencyViolation => "ConsistencyViolation"
  | orderingViolation => "OrderingViolation"
  | internal => "Internal"

def code : Kind → String
  | invalidArgument => "ERR_INVALID_ARGUMENT"
  | illegalState => "ERR_ILLEGAL_STATE"
  | noSuchElement => "ERR_NO_SUCH_ELEMENT"
  | configuration => "ERR_CONFIGURATION"
  | unsupported => "ERR_UNSUPPORTED"
  | backend => "ERR_BACKEND"
  | decode => "ERR_DECODE"
  | io => "ERR_IO"
  | consistencyViolation => "ERR_CONSISTENCY_VIOLATION"
  | orderingViolation => "ERR_ORDERING_VIOLATION"
  | internal => "ERR_INTERNAL"

/-- Fatal classes mean that the store or its configuration is unusable, so that
trying again cannot help. -/
def isFatal : Kind → Bool
  | configuration | consistencyViolation | orderingViolation => true
  | _ => false

end Kind

/-- What is known of one failure: its class and the context in which it
arose. -/
structure Report where
  kind : Kind
  operation : Option String := none
  entity : Option String := none
  entityId : Option Int := none
  message : String := ""
  deriving DecidableEq, Repr

/-- The text of a report: the code, then each part of the context that is
known. -/
def Report.render (r : Report) : String :=
  let operation := match r.operation with
    | some op => " in operation '" ++ op ++ "'"
    | none => ""
  let message := if r.message.isEmpty then "" else ": " ++ r.message
  let entity := match r.entity with
    | some e => " (entity: " ++ e ++ ")"
    | none => ""
  let entityId := match r.entityId with
    | some n => " (entity_id: " ++ toString n ++ ")"
    | none => ""
  "[" ++ r.kind.code ++ "]" ++ operation ++ message ++ entity ++ entityId

end Failure

/-- A failure with the chain of reports that led to it, the direct cause
first. -/
structure Failure extends Failure.Report where
  causes : List Failure.Report := []
  deriving DecidableEq, Repr

namespace Failure

def reports (f : Failure) : List Report :=
  f.toReport :: f.causes

def render (f : Failure) : String :=
  " caused by ".intercalate (f.reports.map Report.render)

/-- The causes of a failure as failures of their own, each with the causes
behind it. -/
def causeChain (f : Failure) : List Failure :=
  unwind f.causes
where
  unwind : List Report → List Failure
    | [] => []
    | report :: causes => { report with causes } :: unwind causes

def withEntity (f : Failure) (entity : String) : Failure :=
  { f with entity := some entity }

def withEntityId (f : Failure) (id : Int) : Failure :=
  { f with entityId := some id }

def configuration (reason : String) : Failure :=
  { kind := .configuration, operation := some "configure", message := reason }

def unsupported (operation entity : String) : Failure :=
  { kind := .unsupported, operation := some operation, entity := some entity,
    message := operation ++ " is not supported for " ++ entity ++ " records" }

def consistencyViolation (operation entity reason : String) : Failure :=
  { kind := .consistencyViolation, operation := some operation,
    entity := some entity, message := reason }

def orderingViolation (entity : String) (previous found : Int) : Failure :=
  { kind := .orderingViolation, operation := some "group_rows",
    entity := some entity, entityId := some found,
    message := "grouping key " ++ toString found ++ " arrived after key " ++
      toString previous ++
      "; rows must be sorted ascending by key" }

def illegalState (operation reason : String) : Failure :=
  { kind := .illegalState, operation := some operation, message := reason }

def noSuchElement (operation : String) : Failure :=
  { kind := .noSuchElement, operation := some operation,
    message := "no further element is available" }

def decode (column : Nat) (reason : String) : Failure :=
  { kind := .decode, operation := some "decode_row",
    message := "column " ++ toString column ++ ": " ++ reason }

def invalidArgument (operation reason : String) : Failure :=
  { kind := .invalidArgument, operation := some operation, message := reason }

def io (operation reason : String) : Failure :=
  { kind := .io, operation := some operation, message := reason }

def backend (reason : String) : Failure :=
  { kind := .backend, operation := some "sqlite", message := reason }

end Failure

end Annals
