import Annals.Record.Basic

namespace Annals

/-- One name and address that a developer has used. -/
structure Alias where
  ident : Ident := {}
  name : String
  email : String
  deriving DecidableEq

namespace Alias

instance : Record Alias where
  ident := Alias.ident
  withIdent a i := { a with ident := i }

/-- Whether two aliases denote one record: by their identifiers if both have
one, and otherwise by name and address. -/
def sameRecord (a b : Alias) : Bool :=
  match a.ident.id?, b.ident.id? with
  | some i, some j => i == j
  | _, _ => a.name == b.name && a.email == b.email

end Alias

/-- A developer with all of their aliases. -/
structure Identity where
  ident : Ident := {}
  name : String
  primaryEmail : Option String := none
  aliases : List Alias := []
  deriving DecidableEq

namespace Identity

instance : Record Identity where
  ident := Identity.ident
  withIdent i slot := { i with ident := slot }

/-- Adds an alias at the end, unless a member denotes the same record. -/
def addAlias (i : Identity) (a : Alias) : Bool × Identity :=
  if i.aliases.any (·.sameRecord a) then (false, i)
  else (true, { i with aliases := i.aliases ++ [a] })

/-- Detaches the first member that denotes the same record as `a`. -/
def removeAlias (i : Identity) (a : Alias) : Option Alias × Identity :=
  match i.aliases.findIdx? (·.sameRecord a) with
  | some n => (i.aliases[n]?, { i with aliases := i.aliases.eraseIdx n })
  | none => (none, i)

def hasAliasEmail (i : Identity) (email : String) : Bool :=
  i.aliases.any (·.email == email)

end Identity

end Annals
