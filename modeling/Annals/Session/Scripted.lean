import Annals.Session.Basic

namespace Annals

open Annals.Sql Annals.Stream

/-- A call that a session has received. -/
inductive Call where
  | execute (text : String) (params : List Value)
  | query (text : String) (params : List Value)
  | beginTransaction
  | commit
  | rollback
  | close
  deriving DecidableEq, Repr

namespace Call

def isStatement : Call → Bool
  | execute .. | query .. => true
  | _ => false

end Call

/-- Makes the statements fail whose text contains a fragment, after some that
are let through. -/
structure Fault where
  fragment : String
  skip : Nat := 0
  deriving DecidableEq, Repr

namespace Fault

def occursIn (fragment : List Char) : List Char → Bool
  | [] => fragment.isEmpty
  | c :: text => fragment.isPrefixOf (c :: text) || occursIn fragment text

def concerns (fault : Fault) (text : String) : Bool :=
  occursIn fault.fragment.toList text.toList

end Fault

/-- A session whose calls are written down and can be made to fail. -/
structure Scripted (σ : Type) where
  inner : σ
  calls : List Call := []
  faults : List Fault := []
  failCommit : Bool := false
  failRollback : Bool := false

namespace Scripted

variable {σ : Type}

def injected (operation what : String) : Failure :=
  { kind := .backend, operation := some operation,
    message := "injected failure: " ++ what }

/-- What the faults do to a statement: the first of them that concerns it
decides alone, either to let it through, which is counted, or to make it
fail. -/
def meet (text : String) : List Fault → Option Failure × List Fault
  | [] => (none, [])
  | fault :: faults =>
    if fault.concerns text then
      match fault.skip with
      | 0 =>
        (some (injected "execute"
          ("statement matching '" ++ fault.fragment ++ "'")), fault :: faults)
      | skip + 1 => (none, { fault with skip } :: faults)
    else
      let (outcome, faults) := meet text faults
      (outcome, fault :: faults)

/-- Arms a fault behind those that are armed already. -/
def arm (s : Scripted σ) (fault : Fault) : Scripted σ :=
  { s with faults := s.faults ++ [fault] }

def record (call : Call) : Access (Scripted σ) Unit :=
  modify fun s => { s with calls := s.calls ++ [call] }

def screen (text : String) : Access (Scripted σ) Unit := do
  let (outcome, faults) := meet text (← get).faults
  modify fun s => { s with faults }
  match outcome with
  | some f => throw f
  | none => return

def pass {α : Type} (access : Access σ α) : Access (Scripted σ) α :=
  ExceptT.mk fun s =>
    let (outcome, inner) := access.run s.inner
    (outcome, { s with inner })

/-- A failing commit does not reach the other session; a failing rollback
does. -/
instance [Session σ] : Session (Scripted σ) where
  dialect s := Session.dialect s.inner
  execute statement params := do
    let text := statement.render (Session.dialect (← get).inner)
    record (.execute text params)
    screen text
    pass (Session.execute statement params)
  query statement params := do
    let text := statement.render (Session.dialect (← get).inner)
    record (.query text params)
    screen text
    pass (Session.query statement params)
  beginTransaction := do
    record .beginTransaction
    pass Session.beginTransaction
  commit := do
    record .commit
    if (← get).failCommit then throw (injected "commit" "commit")
    pass Session.commit
  rollback := do
    record .rollback
    let outcome ← (pass Session.rollback).observe
    if (← get).failRollback then throw (injected "rollback" "rollback")
    Access.ofExcept outcome
  close := do
    record .close
    pass Session.close
  hold s := { s with inner := Session.hold s.inner }
  release s := { s with inner := Session.release s.inner }
  resume statement params trail now rest :=
    Session.resume statement params (trail.map fun (s, count) =>
      (s.inner, count)) now.inner rest

end Scripted

end Annals
