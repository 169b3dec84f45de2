import Annals.Record.Json
import Annals.Session.Scripted
import Annals.Store.Branches
import Annals.Store.Commits
import Annals.Store.Identities
import Annals.Stream.Reading

namespace Annals.Script

open Annals.Sql Annals.Stream Annals.Time

/-- The kinds of records that a script works with. -/
inductive Subject where
  | commit
  | branch
  | identity
  deriving DecidableEq, Repr

namespace Subject

abbrev Entity : Subject → Type
  | commit => Commit
  | branch => Branch
  | identity => Identity

instance : (s : Subject) → Record s.Entity
  | commit => inferInstanceAs (Record Commit)
  | branch => inferInstanceAs (Record Branch)
  | identity => inferInstanceAs (Record Identity)

def codec : (s : Subject) → Json.Codec s.Entity
  | commit => Commit.codec
  | branch => Branch.codec
  | identity => Identity.codec

def adapter : (s : Subject) → Adapter s.Entity
  | commit => Commit.adapter
  | branch => Branch.adapter
  | identity => Identity.adapter

def all : List Subject := [commit, branch, identity]

def name : Subject → String
  | commit => "commit"
  | branch => "branch"
  | identity => "identity"

end Subject

/-- A change of the aliases of an identity. -/
inductive AliasChange where
  | add (form : Json)
  | remove (form : Json)
  | setId (index : Nat) (value : Int64)

/-- What can be done in one step without other steps inside. -/
inductive Deed where
  | createScheme (s : Subject)
  | createIndexes (s : Subject)
  | capabilities (s : Subject)
  | put (s : Subject) (slot : String) (record : Json)
  | patch (s : Subject) (slot : String) (fields : List (String × Json))
  | showSlot (s : Subject) (slot : String)
  | setId (s : Subject) (slot : String) (value : Int64)
  | save (s : Subject) (slots : List String)
  | update (s : Subject) (slots : List String)
  | delete (s : Subject) (slot : String)
  | deleteAll (s : Subject) (slots : List String)
  | load (s : Subject) (id : Int64) (into : Option String)
  | loadMany (s : Subject) (ids : List Int64)
  | loadAll (s : Subject)
  | create (s : Subject) (row : Row)
  /-- Writes the record of a slot over the stored one, outside any write of its
  own. -/
  | updateRow (s : Subject) (slot : String)
  | deleteRow (s : Subject) (id : Int64)
  | changeAliases (slot : String) (change : AliasChange)
  | nextId (entity : String)
  | execute (statement : Statement) (params : List Value)
  | perform (statement : Statement) (params : List Value)
  | askNumber (statement : Statement) (params : List Value)
  | askRows (statement : Statement) (params : List Value) (limit : Option Nat)
  | arm (fault : Fault)
  | failCommit
  | failRollback
  | describe
  | abandon

/-- How the work of a write ends after its steps. -/
inductive Ending where
  | ok
  | fail
  | abandon
  deriving DecidableEq, Repr

/-- What a reading goes through. -/
inductive Range where
  | everything (s : Subject)
  | window (start stop : Instant)

abbrev Range.subject : Range → Subject
  | everything s => s
  | window _ _ => .commit

mutual

/-- One step of a script. -/
inductive Step where
  | deed (d : Deed)
  /-- A write whose work is a list of steps.  Unless `ignore` holds, the first
  step that fails ends it. -/
  | write (op entity : String) (body : List Step) (ending : Ending)
      (ignore : Bool)
  | read (range : Range) (inquiries : List Inquiry)
  | malformed

/-- One part of a reading. -/
inductive Inquiry where
  | request (r : Request)
  | body (steps : List Step)

end

inductive Content where
  | nothing
  | flag (b : Bool)
  | count (n : Nat)
  | number (n : Option Int64)
  | id (id : EntityId)
  | record (s : Subject) (found : Option s.Entity)
  | records (s : Subject) (found : List s.Entity)
  | capabilities (s : Subject)
  | rows (rs : List Row)
  | store (text : String) (dialect : Dialect)
  /-- An identity after a change of its aliases, with the answer of an addition
  or a removal. -/
  | aliasChanged (i : Identity) (added : Option Bool) (removed : Option Alias)

inductive Outcome where
  | done (c : Content)
  | failed (f : Failure)
  /-- A record could not be read. -/
  | unreadable (message : String)
  | noSlot
  | malformed

mutual

/-- What is known after a step. -/
inductive Answer where
  | plain (o : Outcome)
  | batch (o : Outcome) (s : Subject) (records : List s.Entity)
  | reading (o : Outcome) (notes : List Note)
  | scope (o : Outcome) (body : List Answer)

/-- What one part of a reading gave. -/
inductive Note where
  | reply (s : Subject) (r : Reply s.Entity)
  | body (answers : List Answer)

end

def Answer.outcome : Answer → Outcome
  | plain o => o
  | batch o _ _ => o
  | reading o _ => o
  | scope o _ => o

def Answer.failure? (a : Answer) : Option Failure :=
  match a.outcome with
  | .failed f => some f
  | _ => none

/-- What a script keeps apart from the store. -/
structure Memory where
  commits : List (String × Commit) := []
  branches : List (String × Branch) := []
  identities : List (String × Identity) := []
  answers : List Answer := []
  notes : List Note := []

namespace Memory

def slots (m : Memory) : (s : Subject) → List (String × s.Entity)
  | .commit => m.commits
  | .branch => m.branches
  | .identity => m.identities

def get? (m : Memory) (s : Subject) (slot : String) : Option s.Entity :=
  (m.slots s).lookup slot

def put (m : Memory) : (s : Subject) → String → s.Entity → Memory
  | .commit, slot, c =>
    { m with commits := (slot, c) :: m.commits.filter (·.1 != slot) }
  | .branch, slot, b =>
    { m with branches := (slot, b) :: m.branches.filter (·.1 != slot) }
  | .identity, slot, i =>
    { m with identities := (slot, i) :: m.identities.filter (·.1 != slot) }

def putAll (m : Memory) (s : Subject) : List String → List s.Entity → Memory
  | slot :: slots, r :: records => (m.put s slot r).putAll s slots records
  | _, _ => m

end Memory

end Annals.Script
