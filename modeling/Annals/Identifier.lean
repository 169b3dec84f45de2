import Annals.Failure

namespace Annals

/-- A positive identifier, assigned by a store. -/
structure EntityId where
  value : Int64
  positive : 0 < value
  deriving DecidableEq

namespace EntityId

def ofValue? (value : Int64) : Option EntityId :=
  if h : 0 < value then some ⟨value, h⟩ else none

instance : Repr EntityId where
  reprPrec id := reprPrec id.value

end EntityId

/-- The slot of a record for its identifier: empty until the record is
stored. -/
structure Ident where
  id? : Option EntityId := none
  deriving DecidableEq, Repr

/-- Why an identifier cannot be assigned. -/
inductive IdentError where
  | notPositive (value : Int64)
  /-- The slot already holds another identifier. -/
  | reassigned (current requested : Int64)
  deriving DecidableEq, Repr

namespace IdentError

def message : IdentError → String
  | notPositive value =>
    "Invalid identifier " ++ toString value ++ ": identifiers must be positive"
  | reassigned current requested =>
    "Identifier already assigned: " ++ toString current ++ ", refusing " ++
      toString requested

def toFailure : IdentError → Failure
  | notPositive value =>
    { kind := .invalidArgument, operation := some "set_id",
      entityId := some value.toInt, message := "Identifiers must be positive" }
  | reassigned current requested =>
    { kind := .illegalState, operation := some "set_id",
      entityId := some current.toInt, message :=
        "Identifier already assigned, refusing " ++ toString requested }

end IdentError

def EntityId.ofValue (value : Int64) : Except IdentError EntityId :=
  match EntityId.ofValue? value with
  | some id => .ok id
  | none => .error (.notPositive value)

namespace Ident

def unsetValue : Int64 := -1

/-- A slot filled from an outside value, where anything but a positive value
means that it is empty. -/
def ofValue (value : Int64) : Ident :=
  ⟨EntityId.ofValue? value⟩

def value (i : Ident) : Int64 :=
  match i.id? with
  | some id => id.value
  | none => unsetValue

def isSet (i : Ident) : Bool :=
  i.id?.isSome

/-- Assigns an identifier.  Assigning the one that the slot already holds
changes nothing; any other one is refused. -/
def assign (i : Ident) (value : Int64) :
    Except IdentError (EntityId × Ident) := do
  let id ← EntityId.ofValue value
  match i.id? with
  | some current =>
    if current = id then
      pure (id, i)
    else
      throw (.reassigned current.value value)
  | none => pure (id, ⟨some id⟩)

end Ident

end Annals
