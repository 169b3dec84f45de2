import Annals.Proofs.Survival
import Annals.Proofs.Tracing

/-!
The plan of a batch is made of the plans of its records, one behind the other.
A call that writes the batch keeps to it: what it sends is a first part of the
plan, and the first step that fails decides how the call ends.
-/

namespace Annals

open Annals.Sql Annals.Stream

variable {σ ω : Type}

def anyCount (_ : Nat) : Except Failure Unit := .ok ()

/-- Exactly one row has to be affected, that of the record with an
identifier. -/
def Adapter.exactlyOne {α : Type} (a : Adapter α) (id : EntityId)
    (affected : Nat) :
    Except Failure Unit :=
  if affected = 1 then .ok ()
  else
    .error ((Failure.consistencyViolation "update" a.entity
      ("update of identifier " ++ toString id.value ++ " affected " ++
        toString affected ++
        " rows, expected exactly 1")).withEntityId id.value.toInt)

def Commit.steps (c : Commit) (keys : Keys) : List PlanStep :=
  match Record.id? c with
  | none =>
    [.draw entityName keys.id,
      .execute (.insert commits) (c.payload.map (Value.ofId keys.id :: ·))
        anyCount]
  | some id =>
    [.execute (.update commits) (c.payload.map (· ++ [Value.ofId id]))
      (adapter.exactlyOne id)]

def Branch.payload (b : Branch) : Except Failure (List Value) := do
  let createdAt ← Value.ofInstant b.createdAt
  let mergedAt ← Value.ofOptionalInstant b.mergedAt
  return [.text b.name, createdAt, mergedAt]

/-- Only new branches are written. -/
def Branch.steps (b : Branch) (keys : Keys) : List PlanStep :=
  match Record.id? b with
  | none =>
    [.draw entityName keys.id,
      .execute (.insert branches) (b.payload.map (Value.ofId keys.id :: ·))
        anyCount]
  | some _ => []

def Alias.steps (owner : EntityId) (a : Alias) (id : EntityId) :
    List PlanStep :=
  match Record.id? a with
  | none =>
    [.draw entityName id,
      .execute (.insert identityAliases) (.ok (a.values owner id)) anyCount]
  | some own =>
    [.execute (.insert identityAliases) (.ok (a.values owner own)) anyCount]

def Identity.aliasSteps (i : Identity) (owner : EntityId)
    (parts : List EntityId) :
    List PlanStep :=
  (List.zipWith (Alias.steps owner) i.aliases parts).flatten

def Identity.steps (i : Identity) (keys : Keys) : List PlanStep :=
  match Record.id? i with
  | none =>
    [.draw entityName keys.id,
      .execute (.insert identities)
        (.ok [Value.ofId keys.id, .text i.name,
          Value.ofOption Value.text i.primaryEmail]) anyCount] ++
      i.aliasSteps keys.id keys.parts
  | some id =>
    [.execute (.update identities)
        (.ok [.text i.name, Value.ofOption Value.text i.primaryEmail,
          Value.ofId id]) (adapter.exactlyOne id),
      .execute (.delete identityAliases Alias.ownerColumn)
        (.ok [Value.ofId id]) anyCount] ++ i.aliasSteps id keys.parts

variable [Session σ]

theorem Store.perform_eq_send (statement : Statement) (params : List Value) :
    (Store.perform statement params : Action σ ω Unit) =
      Store.send statement (.ok params) anyCount := by
  change (fun _ => ()) <$> (Store.execute statement params : Action σ ω Nat) = _
  rw [map_eq_pure_bind]
  rfl

theorem Store.send_bind {β : Type} (statement : Statement) (values : List Value)
    (accept : Nat → Except Failure Unit) (next : Unit → Action σ ω β) :
    Store.send statement (.ok values) accept >>= next =
      Store.execute statement values >>= fun n =>
        Action.ofExcept (accept n) >>= next :=
  bind_assoc (Store.execute statement values) _ _

theorem KeepsTo.insertion {entity : String} {table : Table}
    {params : EntityId → Except Failure (List Value)} {whole : Keys → Prop}
    {steps : Keys → List PlanStep} (hwhole : ∀ id, whole { id } ∧ steps { id } =
      [.draw entity id, .execute (.insert table) (params id) anyCount]) :
    KeepsTo (do
        let id ← Store.nextId entity
        Store.send (.insert table) (params id) anyCount
        return ({ id } : Keys) : Action (Traced σ) ω Keys) whole steps := by
  have hinsert : ∀ id : EntityId, KeepsTo (do
      Store.send (.insert table) (params id) anyCount
      return ({ id } : Keys) : Action (Traced σ) ω Keys) (· = { id })
        fun _ => [.execute (.insert table) (params id) anyCount] := by
    intro id
    exact (KeepsTo.send _ _ _).bind_pure (fun _ => ({ id } : Keys)) fun _ _ =>
      ⟨rfl, rfl⟩
  refine (KeepsTo.nextId entity).bind (fun id _ => hinsert id) ?_
  rintro id _ - rfl
  exact hwhole id

section Writing

variable {α : Type} [Record α] {a : Adapter α} {r : α}

theorem Adapter.writeOne_new (hid : Record.id? r = none) :
    (a.writeOne r : Action σ ω Keys) = a.insert r := by
  unfold writeOne
  rw [hid]

theorem Adapter.writeOne_stored {id : EntityId} (hid : Record.id? r = some id) :
    (a.writeOne r : Action σ ω Keys) =
      a.update r >>= fun updated => do
        Action.ofExcept (a.exactlyOne id updated.1)
        return updated.2 := by
  unfold writeOne
  rw [hid]
  refine bind_congr fun updated => ?_
  unfold exactlyOne
  dsimp only
  split
  · rfl
  · rfl

end Writing

theorem Commit.keepsTo (c : Commit) :
    KeepsTo (adapter.writeOne c : Action (Traced σ) ω Keys)
      (Script.Subject.commit.Fits c)
      c.steps := by
  cases hid : Record.id? c with
  | none =>
      have hinsert : (adapter.writeOne c : Action (Traced σ) ω Keys) = do
          let id ← Store.nextId entityName
          Store.send (.insert commits) (c.payload.map (Value.ofId id :: ·))
            anyCount
          return { id } := by
        rw [Adapter.writeOne_new hid]
        change c.insertRow = _
        unfold insertRow
        refine bind_congr fun id => ?_
        rcases c.payload with f | values
        · rfl
        · simp only [Store.perform_eq_send]
          rfl
      rw [hinsert]
      refine KeepsTo.insertion fun id => ⟨Record.fits_of_new hid id, ?_⟩
      unfold steps
      rw [hid]
  | some id =>
      have hupdate : (adapter.writeOne c : Action (Traced σ) ω Keys) = do
          Store.send (.update commits) (c.payload.map (· ++ [Value.ofId id]))
            (adapter.exactlyOne id)
          return { id } := by
        rw [Adapter.writeOne_stored hid]
        change c.updateRow >>= _ = _
        unfold updateRow
        rw [hid]
        rcases c.payload with f | values
        · rfl
        · change (Store.execute _ _ >>= _) >>= _ =
            (Store.execute _ _ >>= _) >>= _
          rw [bind_assoc, bind_assoc]
          rfl
      rw [hupdate]
      refine (KeepsTo.send _ _ _).bind_pure (fun _ => ({ id } : Keys))
        fun _ _ => ?_
      refine ⟨Record.fits_own hid, ?_⟩
      unfold steps
      rw [hid]

theorem Branch.keepsTo (b : Branch) (hid : Record.id? b = none) :
    KeepsTo (adapter.writeOne b : Action (Traced σ) ω Keys)
      (Script.Subject.branch.Fits b)
      b.steps := by
  have hinsert : (adapter.writeOne b : Action (Traced σ) ω Keys) = do
      let id ← Store.nextId entityName
      Store.send (.insert branches) (b.payload.map (Value.ofId id :: ·))
        anyCount
      return { id } := by
    rw [Adapter.writeOne_new hid]
    change b.insertRow = _
    unfold insertRow payload
    refine bind_congr fun id => ?_
    rcases Value.ofInstant b.createdAt with f | createdAt
    · rfl
    · rcases Value.ofOptionalInstant b.mergedAt with f | mergedAt
      · rfl
      · simp only [Store.perform_eq_send]
        rfl
  rw [hinsert]
  refine KeepsTo.insertion fun id => ⟨Record.fits_of_new hid id, ?_⟩
  unfold steps
  rw [hid]

theorem Alias.keepsTo (owner : EntityId) (a : Alias) :
    KeepsTo (insertRow owner a : Action (Traced σ) ω EntityId) (Record.Fits a)
      (a.steps owner) := by
  have hinsert : ∀ id : EntityId, KeepsTo (do
      Store.perform (.insert identityAliases) (a.values owner id)
      return id : Action (Traced σ) ω EntityId) (· = id)
        fun _ =>
          [.execute (.insert identityAliases)
            (.ok (a.values owner id)) anyCount] := by
    intro id
    rw [Store.perform_eq_send]
    exact (KeepsTo.send _ _ _).bind_pure (fun _ => id) fun _ _ => ⟨rfl, rfl⟩
  cases hid : Record.id? a with
  | none =>
      have hdraw : (insertRow owner a : Action (Traced σ) ω EntityId) =
          Store.nextId entityName >>= fun id => do
            Store.perform (.insert identityAliases) (a.values owner id)
            return id := by
        unfold insertRow
        rw [show a.ident.id? = none from hid]
        rfl
      rw [hdraw]
      refine (KeepsTo.nextId entityName).bind (fun id _ => hinsert id)
        fun id drawn _ hdrawn => ?_
      refine ⟨Record.fits_of_new hid drawn, ?_⟩
      unfold steps
      rw [hid, hdrawn]
      rfl
  | some own =>
      have hown : (insertRow owner a : Action (Traced σ) ω EntityId) =
          (do
            Store.perform (.insert identityAliases) (a.values owner own)
            return own) := by
        unfold insertRow
        rw [show a.ident.id? = some own from hid]
        rfl
      rw [hown, Store.perform_eq_send]
      refine (KeepsTo.send _ _ _).bind_pure (fun _ => own) fun _ _ =>
        ⟨Record.fits_own hid, ?_⟩
      unfold steps
      rw [hid]

namespace Identity

theorem keepsTo_aliases (i : Identity) (owner : EntityId)
    (statement : Statement) (params : List Value) :
    KeepsTo (Store.send statement (.ok params) anyCount >>= fun _ => do
        return { id := owner,
                 parts := ← i.aliases.mapM (Alias.insertRow owner) } :
        Action (Traced σ) ω Keys)
      (fun keys => keys.id = owner ∧
        List.Forall₂ Record.Fits i.aliases keys.parts)
      fun keys => .execute statement (.ok params) anyCount :: i.aliasSteps owner
        keys.parts := by
  have hmapM : KeepsTo (i.aliases.mapM (Alias.insertRow owner) :
      Action (Traced σ) ω (List EntityId)) _ _ :=
    KeepsTo.mapM fun a _ => Alias.keepsTo owner a
  have haliases : KeepsTo (do
        return { id := owner,
                 parts := ← i.aliases.mapM (Alias.insertRow owner) } :
        Action (Traced σ) ω Keys)
      (fun keys => keys.id = owner ∧
        List.Forall₂ Record.Fits i.aliases keys.parts)
      fun keys => i.aliasSteps owner keys.parts :=
    hmapM.bind_pure (fun parts => ({ id := owner, parts } : Keys))
      fun parts hparts => ⟨⟨rfl, hparts⟩, rfl⟩
  exact (KeepsTo.send _ _ _).bind (fun _ _ => haliases) fun _ _ _ hkeys =>
    ⟨hkeys, rfl⟩

theorem keepsTo (i : Identity) :
    KeepsTo (adapter.writeOne i : Action (Traced σ) ω Keys)
      (Script.Subject.identity.Fits i)
      i.steps := by
  cases hid : Record.id? i with
  | none =>
      have hinsert : (adapter.writeOne i : Action (Traced σ) ω Keys) =
          Store.nextId entityName >>= fun id =>
            Store.send (.insert identities)
              (.ok [Value.ofId id, .text i.name,
                Value.ofOption Value.text i.primaryEmail]) anyCount >>=
            fun _ => do
              return { id, parts := ← i.aliases.mapM (Alias.insertRow id) } := by
        rw [Adapter.writeOne_new hid]
        change i.insertRows = _
        unfold insertRows
        simp only [Store.perform_eq_send]
      rw [hinsert]
      refine (KeepsTo.nextId entityName).bind
        (fun id _ => i.keepsTo_aliases id _ _) ?_
      rintro id keys - ⟨rfl, hparts⟩
      refine ⟨⟨Record.fits_of_new hid keys.id, hparts⟩, ?_⟩
      unfold steps
      rw [hid]
      rfl
  | some id =>
      have hupdate : (adapter.writeOne i : Action (Traced σ) ω Keys) =
          Store.send (.update identities)
              (.ok [.text i.name, Value.ofOption Value.text i.primaryEmail,
                Value.ofId id]) (adapter.exactlyOne id) >>= fun _ =>
            Store.send (.delete identityAliases Alias.ownerColumn)
              (.ok [Value.ofId id]) anyCount >>=
            fun _ => do
              return { id, parts := ← i.aliases.mapM (Alias.insertRow id) } := by
        rw [Adapter.writeOne_stored hid]
        change i.updateRows >>= _ = _
        unfold updateRows
        rw [hid, Store.send_bind]
        refine (bind_assoc (Store.execute _ _) _ _).trans
          (bind_congr fun affected => ?_)
        unfold Adapter.exactlyOne
        by_cases hone : affected = 1
        · subst hone
          simp [Store.perform_eq_send, Action.ofExcept]
        · simp [hone, Action.ofExcept, Action.fail]
      rw [hupdate]
      refine (KeepsTo.send _ _ _).bind (fun _ _ => i.keepsTo_aliases id _ _) ?_
      rintro - keys - ⟨hown, hparts⟩
      refine ⟨⟨hown ▸ Record.fits_own hid, hparts⟩, ?_⟩
      unfold steps
      rw [hid]
      rfl

end Identity

namespace Script.Subject

def steps : (s : Subject) → s.Entity → Keys → List PlanStep
  | .commit => Commit.steps
  | .branch => Branch.steps
  | .identity => Identity.steps

/-- The steps of a batch whose records are to be written under some
identifiers. -/
def plan (s : Subject) (batch : List s.Entity) (keys : List Keys) :
    List PlanStep :=
  (List.zipWith s.steps batch keys).flatten

theorem keepsTo_writeOne (s : Subject) (r : s.Entity)
    (hbranch : s = .branch → Record.id? r = none) :
    KeepsTo (s.adapter.writeOne r : Action (Traced σ) ω Keys) (s.Fits r)
      (s.steps r) := by
  cases s with
  | commit => exact Commit.keepsTo r
  | branch => exact Branch.keepsTo r (hbranch rfl)
  | identity => exact Identity.keepsTo r

/-- On any session, a batch that is allowed is written by the calls of its plan
between the beginning of a transaction and its end.  What is sent is a first
part of the plan: from the first failure on no statement is, whether a call has
failed, an instant cannot be encoded or an update has missed its row.  The
transaction is undone once then, and that failure is the outcome. -/
theorem batches_fail_fast (s : Subject) (call : BatchCall)
    {batch : List s.Entity} {w : World (Traced σ) ω} (hbatch : batch ≠ [])
    (hallowed : s.adapter.requireAll (call.needed batch) = .ok ())
    (houtermost : w.store.writing = false) :
    ∃ written w' calls keys,
      (call.submit s.adapter batch).exec w = (.ok written, w') ∧
      w'.exchanges = w.exchanges ++ calls ∧ List.Forall₂ s.Fits batch keys ∧
      FailsFast (s.plan batch keys) calls written.outcome ∧
      calls.filterMap Exchange.statement? <+: (s.plan batch keys).map
        PlanStep.statement := by
  have hwork : KeepsTo (batch.mapM s.adapter.writeOne :
      Action (Traced σ) ω (List Keys))
      (List.Forall₂ s.Fits batch) (s.plan batch) := by
    refine KeepsTo.mapM fun r hr => s.keepsTo_writeOne r ?_
    rintro rfl
    exact id?_of_allowed hr hallowed
  obtain ⟨keys, calls, hfits, hcalls, hends⟩ :=
    hwork.write call.op s.adapter.entity houtermost
  rcases hwrite : (Store.write call.op s.adapter.entity
    (batch.mapM s.adapter.writeOne)).exec w with ⟨stop | written, w'⟩
  · have hsubmit := Adapter.exec_submit_stopped hallowed hbatch hwrite
    rw [hwrite] at hcalls hends
    rw [BatchCall.submit_eq]
    exact ⟨_, w', calls, keys, hsubmit, hcalls, hfits, hends, hends.sent⟩
  · obtain ⟨_, _, hrun⟩ := Store.work_of_write_ok hwrite
    have hsubmit :=
      exec_submit_written hallowed hbatch hwrite (fits_of_mapM hrun)
    rw [hwrite] at hcalls hends
    rw [BatchCall.submit_eq]
    exact ⟨_, w', calls, keys, hsubmit, hcalls, hfits, hends, hends.sent⟩

end Script.Subject

/-- A store whose session answers every statement, but has no numbers to
give. -/
def numberless : World (Traced Canned) Unit :=
  { store := Store.ofSession { inner := { dialect := .sqlite } } {},
    memory := () }

theorem batches_fail_fast_numberless :
    ∃ written w' calls keys,
      (Commit.adapter.save [missingCommit, leapCommit]).exec numberless =
        (.ok written, w') ∧
      w'.exchanges = calls ∧
      FailsFast (Script.Subject.plan .commit [missingCommit, leapCommit] keys)
        calls written.outcome := by
  have hbatch : [missingCommit, leapCommit] ≠ [] := List.cons_ne_nil _ _
  have houtermost : numberless.store.writing = false := rfl
  obtain ⟨written, w', calls, keys, hrun, hcalls, -, hends, -⟩ :=
    Script.Subject.batches_fail_fast .commit .save hbatch rfl houtermost
  exact ⟨written, w', calls, keys, hrun, hcalls, hends⟩

example :
    ((Commit.adapter.save [missingCommit, leapCommit]).exec
      numberless).2.exchanges.filterMap
    Exchange.statement? = [.update commits, .nextValue "seq_commit_id"] := rfl

end Annals
