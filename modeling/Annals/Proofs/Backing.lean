import Annals.Proofs.Changes
import Annals.Proofs.Programs

namespace Annals

open Annals.Log Annals.Sql Annals.Stream

variable {σ ω α : Type}

/-- A use of a session does what the corresponding use of its database does, or
else fails and leaves the database as it is. -/
def Mirrors (database : σ → Database) (access : Access σ α)
    (real : Access Database α) : Prop :=
  ∀ s, ((access.run s).1 = (real.run (database s)).1 ∧
      database (access.run s).2 = (real.run (database s)).2) ∨
    (∃ f, (access.run s).1 = .error f) ∧ database (access.run s).2 = database s

theorem Mirrors.run_eq_ok {database : σ → Database} {access : Access σ α}
    {real : Access Database α} (h : Mirrors database access real)
    {s s' : σ} {a : α} (hrun : access.run s = (.ok a, s')) :
    real.run (database s) = (.ok a, database s') := by
  have hmirrors := h s
  rw [hrun] at hmirrors
  rcases hmirrors with ⟨houtcome, hdatabase⟩ | ⟨⟨f, hf⟩, -⟩
  · exact Prod.ext houtcome.symm hdatabase.symm
  · cases hf

theorem Mirrors.database_eq_of_error {database : σ → Database}
    {access : Access σ α} {real : Access Database α}
    (h : Mirrors database access real)
    (hreal : ∀ {db db' : Database} {f : Failure},
      real.run db = (.error f, db') → db' = db)
    {s s' : σ} {f : Failure} (hrun : access.run s = (.error f, s')) :
    database s' = database s := by
  have hmirrors := h s
  rw [hrun] at hmirrors
  rcases hmirrors with ⟨houtcome, hdatabase⟩ | ⟨-, hdatabase⟩
  · rw [hdatabase]
    exact hreal (Prod.ext houtcome.symm rfl)
  · exact hdatabase

/-- Sessions with a database behind them. -/
class Backed (σ : Type) extends Session σ where
  database : σ → Database
  execute_mirrors (s : Statement) (params : List Value) :
    Mirrors database (Session.execute s params) (Session.execute s params)
  query_mirrors (s : Statement) (params : List Value) :
    Mirrors database (Session.query s params) (Session.query s params)
  begin_mirrors : Mirrors database Session.beginTransaction
    Session.beginTransaction
  commit_mirrors : Mirrors database Session.commit Session.commit
  rollback_undoes (s : σ) :
    database (Session.rollback.run s).2 = (Session.rollback.run (database s)).2
  database_hold (s : σ) : database (Session.hold s) = Session.hold (database s)
  database_release (s : σ) : database (Session.release s) =
    Session.release (database s)

namespace Backed

instance : Backed Database where
  database db := db
  execute_mirrors _ _ _ := .inl ⟨rfl, rfl⟩
  query_mirrors _ _ _ := .inl ⟨rfl, rfl⟩
  begin_mirrors _ := .inl ⟨rfl, rfl⟩
  commit_mirrors _ := .inl ⟨rfl, rfl⟩
  rollback_undoes _ := rfl
  database_hold _ := rfl
  database_release _ := rfl

end Backed

namespace Scripted

theorem run_screen (text : String) (s : Scripted σ) :
    (screen text).run s =
      match meet text s.faults with
      | (some f, faults) => (.error f, { s with faults })
      | (none, faults) => (.ok (), { s with faults }) := by
  unfold screen
  rw [Access.run_get_bind]
  rcases meet text s.faults with ⟨_ | f, faults⟩
  · rfl
  · rfl

theorem mirrors_screened {database : σ → Database} {access : Access σ α}
    {real : Access Database α} (h : Mirrors database access real) (call : Call)
    (text : String) :
    Mirrors (fun s : Scripted σ => database s.inner)
      (do record call; screen text; pass access) real := by
  intro s
  have hrecord : (record call).run s =
      (.ok (), { s with calls := s.calls ++ [call] }) := rfl
  rw [Access.run_bind_ok hrecord, Access.run_bind, run_screen]
  rcases meet text s.faults with ⟨_ | f, faults⟩
  · exact h s.inner
  · exact .inr ⟨⟨f, rfl⟩, rfl⟩

/-- A rollback is passed on, even if it is to fail. -/
theorem inner_rollback [Session σ] (s : Scripted σ) :
    ((Session.rollback.run s).2 : Scripted σ).inner =
      (Session.rollback.run s.inner).2 := by
  obtain ⟨inner, calls, faults, failCommit, failRollback⟩ := s
  cases failRollback with
  | true => rfl
  | false =>
      change Scripted.inner
        (ExceptT.run (Access.ofExcept (Session.rollback.run inner).1) _).2 = _
      rw [Access.run_ofExcept]
      rfl

instance [Backed σ] : Backed (Scripted σ) where
  database s := Backed.database s.inner
  execute_mirrors statement params s :=
    mirrors_screened (Backed.execute_mirrors statement params)
      (.execute (statement.render (Session.dialect s.inner)) params)
      (statement.render (Session.dialect s.inner)) s
  query_mirrors statement params s :=
    mirrors_screened (Backed.query_mirrors statement params)
      (.query (statement.render (Session.dialect s.inner)) params)
      (statement.render (Session.dialect s.inner)) s
  begin_mirrors s := Backed.begin_mirrors s.inner
  commit_mirrors s := by
    obtain ⟨inner, calls, faults, failCommit, failRollback⟩ := s
    cases failCommit with
    | true => exact .inr ⟨⟨_, rfl⟩, rfl⟩
    | false => exact Backed.commit_mirrors inner
  rollback_undoes s := by
    rw [inner_rollback]
    exact Backed.rollback_undoes s.inner
  database_hold s := Backed.database_hold s.inner
  database_release s := Backed.database_release s.inner

end Scripted

namespace Database

theorem run_execute (s : Statement) (params : List Value) (db : Database) :
    (Session.execute s params : Access Database Nat).run db =
      match change db.contents (0 < db.held) s params with
      | .ok (count, contents) => (.ok count, { db with contents })
      | .error f => (.error f, db) := by
  change (execute s params).run db = _
  unfold execute
  rw [Access.run_get_bind]
  rcases change db.contents (0 < db.held) s params with f | ⟨count, contents⟩
  · rfl
  · rfl

theorem run_nextValue (sequence : String) (params : List Value)
    (db : Database) :
    (Session.query (.nextValue sequence) params :
      Access Database (List Cursor)).run db =
      match db.contents.advance sequence with
      | .ok (values, contents) =>
        (.ok [{ fetches := values.map fun cells =>
          ({ place := { key := 0 }, cells } : ResultRow).fetch }],
            { db with contents })
      | .error f => (.error f, db) := by
  change (query (.nextValue sequence) params).run db = _
  unfold query
  rw [Access.run_get_bind]
  rcases hadvance : db.contents.advance sequence with f | ⟨values, contents⟩
  · simp only [hadvance]
    rfl
  · simp only [hadvance]
    rfl

theorem query_unchanged {s : Statement}
    (hs : ∀ sequence, s ≠ .nextValue sequence)
    (params : List Value) (db : Database) :
    ((Session.query s params : Access Database (List Cursor)).run db).2 =
      db := by
  change ((query s params).run db).2 = db
  unfold query
  rw [Access.run_get_bind]
  split
  case h_1 sequence => exact absurd rfl (hs sequence)
  case h_2 => rcases db.contents.read s params with f | rows <;> rfl

theorem run_begin (db : Database) :
    (Session.beginTransaction : Access Database Unit).run db =
      if db.saved.isSome then
        (.error (Failure.backend
          "cannot start a transaction within a transaction"), db)
      else (.ok (), { db with saved := some db.contents }) := by
  change beginTransaction.run db = _
  unfold beginTransaction
  rw [Access.run_get_bind]
  cases db.saved <;> rfl

theorem run_commit (db : Database) :
    (Session.commit : Access Database Unit).run db =
      if db.saved.isNone then
        (.error (Failure.backend "cannot commit - no transaction is active"),
          db)
      else (.ok (), { db with saved := none }) := by
  change commit.run db = _
  unfold commit
  rw [Access.run_get_bind]
  cases db.saved <;> rfl

section Guarded

variable {refused : Prop} [Decidable refused] {failure f : Failure}
    {db db' changed : Database}

theorem eq_of_guarded_ok
    (h : (if refused then (.error failure, db) else (.ok (), changed)) =
      ((.ok (), db') : Except Failure Unit × Database)) : db' = changed := by
  split at h
  case isTrue => cases h
  case isFalse => exact (congrArg Prod.snd h).symm

theorem eq_of_guarded_error
    (h : (if refused then (.error failure, db) else (.ok (), changed)) =
      ((.error f, db') : Except Failure Unit × Database)) : db' = db := by
  split at h
  case isTrue => exact (congrArg Prod.snd h).symm
  case isFalse => cases h

end Guarded

theorem contents_rollback (db : Database) :
    ((Session.rollback.run db).2 : Database).contents =
      db.saved.getD db.contents ∧
      ((Session.rollback.run db).2 : Database).saved = none := by
  change (rollback.run db).2.contents = _ ∧ (rollback.run db).2.saved = none
  unfold rollback
  rw [Access.run_get_bind]
  rcases hsaved : db.saved with _ | contents
  · exact ⟨rfl, hsaved⟩
  · exact ⟨rfl, rfl⟩

end Database

namespace Backed

variable [Backed σ] {s s' : σ}

theorem contents_hold (s : σ) :
    (database (Session.hold s)).contents = (database s).contents := by
  rw [database_hold]
  rfl

theorem contents_release (s : σ) :
    (database (Session.release s)).contents = (database s).contents := by
  rw [database_release]
  rfl

theorem begin_eq_ok (h : Session.beginTransaction.run s = (.ok (), s')) :
    database s' = { database s with saved := some (database s).contents } := by
  have hrun := begin_mirrors.run_eq_ok h
  rw [Database.run_begin] at hrun
  exact Database.eq_of_guarded_ok hrun

theorem begin_eq_error {f : Failure}
    (h : Session.beginTransaction.run s = (.error f, s')) :
    database s' = database s := by
  refine begin_mirrors.database_eq_of_error (fun {db} _ _ hrun => ?_) h
  rw [Database.run_begin db] at hrun
  exact Database.eq_of_guarded_error hrun

theorem commit_eq_ok (h : Session.commit.run s = (.ok (), s')) :
    database s' = { database s with saved := none } := by
  have hrun := commit_mirrors.run_eq_ok h
  rw [Database.run_commit] at hrun
  exact Database.eq_of_guarded_ok hrun

theorem commit_eq_error {f : Failure}
    (h : Session.commit.run s = (.error f, s')) :
    database s' = database s := by
  refine commit_mirrors.database_eq_of_error (fun {db} _ _ hrun => ?_) h
  rw [Database.run_commit db] at hrun
  exact Database.eq_of_guarded_error hrun

end Backed

end Annals
