import Annals.Identifier

namespace Annals

/-- Types whose values own a slot for an identifier. -/
class Record (α : Type) where
  ident : α → Ident
  withIdent : α → Ident → α

namespace Record

variable {α : Type} [Record α]

def id? (a : α) : Option EntityId := (ident a).id?

def idValue (a : α) : Int64 := (ident a).value

def isPersisted (a : α) : Bool := (ident a).isSet

def assign (a : α) (value : Int64) : Except IdentError (EntityId × α) := do
  let (id, slot) ← (ident a).assign value
  return (id, withIdent a slot)

/-- Fills the slot of a record, which stays as it is if the identifier is
refused. -/
def fill (a : α) (value : Int64) : Except IdentError Unit × α :=
  match assign a value with
  | .ok (_, a) => (.ok (), a)
  | .error e => (.error e, a)

/-- Fills one after the other with what belongs to each, up to the first
refusal.  The list is told as it is then. -/
def fillEach {β κ : Type} (fillOne : β → κ → Except IdentError Unit × β) :
    List β → List κ → Except IdentError Unit × List β
  | b :: bs, key :: keys =>
    match fillOne b key with
    | (.ok (), b) =>
      let (outcome, bs) := fillEach fillOne bs keys
      (outcome, b :: bs)
    | (.error e, b) => (.error e, b :: bs)
  | bs, _ => (.ok (), bs)

end Record

end Annals
