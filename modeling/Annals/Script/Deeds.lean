import Annals.Script.Basic

namespace Annals.Script

open Annals.Sql Annals.Stream

abbrev Run (σ : Type) := Action (Scripted σ) Memory

namespace Run

variable {σ α : Type}

def remember (f : Memory → Memory) : Run σ Unit :=
  modify fun w => { w with memory := f w.memory }

def rig (f : Scripted σ → Scripted σ) : Run σ Unit :=
  Store.change fun s => { s with session := f s.session }

/-- The outcome of work, where its failure is one. -/
def capture (work : Run σ Content) : Run σ Outcome := do
  match ← Action.observe work with
  | .ok c => return .done c
  | .error (.failed f) => return .failed f
  | .error .abandoned => throw .abandoned

def withSlot (s : Subject) (slot : String) (work : s.Entity → Run σ Outcome) :
    Run σ Outcome := do
  match (← get).memory.get? s slot with
  | some r => work r
  | none => return .noSlot

def withId (value : Int64) (work : EntityId → Run σ Content) : Run σ Outcome :=
  match EntityId.ofValue value with
  | .ok id => capture (work id)
  | .error e => return .failed e.toFailure

def read (s : Subject) (slot : String) (json : Json) : Run σ Outcome := do
  match s.codec.decode json with
  | .error message => return .unreadable message
  | .ok r =>
    remember (·.put s slot r)
    return .done (.record s (some r))

/-- Writes the records of some slots as one batch; the slots then hold what the
batch became. -/
def writeSlots (s : Subject) (slots : List String)
    (write : List s.Entity → Run σ (Written s.Entity)) : Run σ Answer := do
  let memory := (← get).memory
  match slots.mapM (memory.get? s) with
  | none => return .plain .noSlot
  | some batch =>
    let written ← write batch
    remember (·.putAll s slots written.batch)
    match written.outcome with
    | .ok () => return .batch (.done .nothing) s written.batch
    | .error (.failed f) => return .batch (.failed f) s written.batch
    | .error .abandoned => throw .abandoned

def putChanged (slot : String) (i : Identity) (added : Option Bool)
    (removed : Option Alias) :
    Run σ Outcome := do
  remember (·.put .identity slot i)
  return .done (.aliasChanged i added removed)

def changeAliases (slot : String) (change : AliasChange) : Run σ Outcome :=
  withSlot .identity slot fun (i : Identity) => do
    match change with
    | .add json =>
      match Alias.codec.decode json with
      | .error message => return .unreadable message
      | .ok a =>
        let (added, i) := i.addAlias a
        putChanged slot i (some added) none
    | .remove json =>
      match Alias.codec.decode json with
      | .error message => return .unreadable message
      | .ok a =>
        let (removed, i) := i.removeAlias a
        putChanged slot i none removed
    | .setId index value =>
      match i.aliases[index]? with
      | none => return .noSlot
      | some a =>
        match Record.assign a value with
        | .error e => return .failed e.toFailure
        | .ok (_, a) =>
          putChanged slot { i with aliases := i.aliases.set index a } none none

def firstRows : Option Nat → List Fetch → Except Failure (List Row)
  | _, [] => .ok []
  | some 0, _ => .ok []
  | limit, .row r ::
      rest => do return r :: (← firstRows (limit.map (· - 1)) rest)
  | _, .fault f :: _ | _, .lost f :: _ => .error f

variable [Session σ]

def deed : Deed → Run σ Answer
  | .createScheme s =>
    .plain <$> capture do s.adapter.createScheme; return .nothing
  | .createIndexes s =>
    .plain <$> capture do s.adapter.createIndexes; return .nothing
  | .capabilities s => return .plain (.done (.capabilities s))
  | .put s slot json => .plain <$> read s slot json
  | .patch s slot fields => .plain <$> withSlot s slot fun r =>
    match s.codec.encode r with
    | .object old =>
      read s slot
        (.object (fields.foldl (fun acc (name, v) =>
          Json.insertField name v acc) old))
    | json => read s slot json
  | .showSlot s slot =>
    .plain <$> withSlot s slot fun r => return .done (.record s (some r))
  | .setId s slot value => .plain <$> withSlot s slot fun r => do
    match Record.assign r value with
    | .error e => return .failed e.toFailure
    | .ok (id, r) =>
      remember (·.put s slot r)
      return .done (.id id)
  | .save s slots => writeSlots s slots s.adapter.save
  | .update s slots => writeSlots s slots s.adapter.updateAll
  | .delete s slot => .plain <$> withSlot s slot fun r =>
    capture do return .flag (← s.adapter.deleteOne r)
  | .deleteAll s slots => do
    let memory := (← get).memory
    match slots.mapM (memory.get? s) with
    | none => return .plain .noSlot
    | some batch =>
      .plain <$> capture do return .count (← s.adapter.deleteAll batch)
  | .load s value into => .plain <$> withId value fun id => do
    let found ← s.adapter.load id
    match found, into with
    | some r, some slot => remember (·.put s slot r)
    | _, _ => pure ()
    return .record s found
  | .loadMany s values =>
    match values.mapM EntityId.ofValue with
    | .error e => return .plain (.failed e.toFailure)
    | .ok ids =>
      .plain <$> capture do return .records s (← s.adapter.loadMany ids)
  | .loadAll s => .plain <$> capture do return .records s (← s.adapter.loadAll)
  | .create s row => .plain <$> capture do
    return .record s (some (← Action.ofExcept (s.adapter.ofRow row)))
  | .updateRow s slot => .plain <$> withSlot s slot fun r =>
    capture do return .count (← s.adapter.update r).1
  | .deleteRow s value =>
    .plain <$> withId value fun id => do return .count (← s.adapter.delete id)
  | .changeAliases slot change => .plain <$> changeAliases slot change
  | .nextId entity => .plain <$> capture do return .id (← Store.nextId entity)
  | .execute statement params => .plain <$> capture do
    return .count (← Store.execute statement params)
  | .perform statement params => .plain <$> capture do
    Store.perform statement params
    return .nothing
  | .askNumber statement params => .plain <$> capture do
    return .number (← Store.use (Session.queryNumber statement params))
  | .askRows statement params limit => .plain <$> capture do
    Store.query statement params fun cursor => do
      return .rows (← Action.ofExcept (firstRows limit cursor.fetches))
  | .arm fault => do
    rig (·.arm fault)
    return .plain (.done .nothing)
  | .failCommit => do
    rig fun s => { s with failCommit := true }
    return .plain (.done .nothing)
  | .failRollback => do
    rig fun s => { s with failRollback := true }
    return .plain (.done .nothing)
  | .describe => do
    let s ← Store.see id
    return .plain (.done (.store s.render s.dialect))
  | .abandon => throw .abandoned

end Run

end Annals.Script
