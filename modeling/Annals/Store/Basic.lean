import Annals.Config.Basic
import Annals.Log
import Annals.Session.Basic
import Annals.Stream.Basic

/-!
A store owns a session.  What is done with a store is an `Action`: it works on a
world that consists of the store and of whatever else the caller keeps, and it
may stop without a result.  Changes that an action has made before it stops
remain.
-/

namespace Annals

open Annals.Log Annals.Sql Annals.Stream

/-- A session with the way in which it is to be used. -/
structure Store (σ : Type) where
  session : σ
  dialect : Dialect
  options : Options := {}
  writing : Bool := false
  events : List Event := []

/-- A store together with what its caller keeps. -/
structure World (σ ω : Type) where
  store : Store σ
  memory : ω

/-- Why an action stops without a result. -/
inductive Stop where
  | failed (f : Failure)
  /-- The work was given up without a failure to report. -/
  | abandoned
  deriving DecidableEq, Repr

abbrev Action (σ ω : Type) := ExceptT Stop (StateM (World σ ω))

namespace Action

variable {σ ω α : Type}

def fail (f : Failure) : Action σ ω α := throw (.failed f)

def ofExcept : Except Failure α → Action σ ω α
  | .ok a => pure a
  | .error f => fail f

def ofOutcome : Except Stop α → Action σ ω α
  | .ok a => pure a
  | .error stop => throw stop

/-- How an action ends, as a value; the action that observes does not stop. -/
def observe (work : Action σ ω α) : Action σ ω (Except Stop α) :=
  ExceptT.mk fun w =>
    let (outcome, w) := work.run w
    (.ok outcome, w)

end Action

namespace Store

variable {σ ω α : Type}

/-- A store on a session that is connected already. -/
def ofSession [Session σ] (session : σ) (options : Options) : Store σ :=
  { session, dialect := Session.dialect session, options }

def render (s : Store σ) : String :=
  "StoreHandle \x7b dialect: " ++ s.dialect.label ++ ", options: " ++
    s.options.render ++ ", .. \x7d"

def see (f : Store σ → α) : Action σ ω α := return f (← get).store

def change (f : Store σ → Store σ) : Action σ ω Unit :=
  modify fun w => { w with store := f w.store }

def report (e : Event) : Action σ ω Unit :=
  change fun s => { s with events := s.events ++ [e] }

def use (access : Access σ α) : Action σ ω α :=
  ExceptT.mk fun w =>
    let (outcome, session) := access.run w.store.session
    (outcome.mapError .failed, { w with store := { w.store with session } })

variable [Session σ]

def execute (s : Statement) (params : List Value) : Action σ ω Nat :=
  use (Session.execute s params)

/-- Executes a statement whose number of affected rows does not matter. -/
def perform (s : Statement) (params : List Value) : Action σ ω Unit :=
  discard (execute s params)

/-- Runs a query and lets `visit` read its result, which is opened once. -/
def query (s : Statement) (params : List Value)
    (visit : Cursor → Action σ ω α) : Action σ ω α := do
  match ← use (Session.query s params) with
  | [] =>
    Action.fail (Failure.illegalState "query"
      "backend returned without opening a cursor")
  | [cursor] => visit cursor
  | cursor :: _ =>
    let _ ← visit cursor
    Action.fail (Failure.illegalState "query" "cursor visited twice")

def nextId (entity : String) : Action σ ω EntityId := do
  let sequence := Statement.sequenceName entity
  let refuse (reason : String) : Action σ ω EntityId :=
    Action.fail (Failure.consistencyViolation "next_id" entity
      ("sequence " ++ sequence ++ " returned " ++ reason))
  match ← use (Session.queryNumber (.nextValue sequence) []) with
  | none => refuse "no value"
  | some n =>
    match EntityId.ofValue n with
    | .ok id => return id
    | .error _ => refuse ("non-positive value " ++ toString n)

end Store

end Annals
