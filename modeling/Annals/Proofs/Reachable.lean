import Annals.Proofs.Backing

/-!
A database is reachable if calls have made it from an empty one.  Every program
leads from reachable databases to reachable ones, and an outermost write that
fails leaves the contents as they were.
-/

namespace Annals

open Annals.Log Annals.Sql Annals.Stream

variable {σ ω α : Type}

namespace Database

/-- What one call without a transaction may do to a database: nothing if it
fails, and otherwise what the statement does. -/
inductive Touched (allowed : Statement → Prop) (db : Database) :
    Database → Prop where
  | same : Touched allowed db db
  | executed {s : Statement} (hs : allowed s) (params : List Value) :
      Touched allowed db (Session.execute s params |>.run db).2
  | queried {s : Statement} (hs : allowed s) (params : List Value) :
      Touched allowed db (Session.query s params |>.run db).2
  | held : Touched allowed db (Session.hold db)
  | released : Touched allowed db (Session.release db)

variable {allowed : Statement → Prop} {db db' : Database}

theorem contents_execute (s : Statement) (params : List Value) (db : Database) :
    ((Session.execute s params).run db).2 = db ∨
      ∃ n contents, change db.contents (0 < db.held) s params =
        .ok (n, contents) ∧
        ((Session.execute s params).run db).2 = { db with contents } := by
  rw [run_execute]
  rcases change db.contents (0 < db.held) s params with f | ⟨count, contents⟩
  · exact .inl rfl
  · exact .inr ⟨count, contents, rfl, rfl⟩

theorem contents_query (s : Statement) (params : List Value) (db : Database) :
    ((Session.query s params).run db).2 = db ∨
      ∃ sequence values contents, s = .nextValue sequence ∧
        db.contents.advance sequence = .ok (values, contents) ∧
        ((Session.query s params).run db).2 = { db with contents } := by
  by_cases hs : ∃ sequence, s = .nextValue sequence
  · obtain ⟨sequence, rfl⟩ := hs
    rw [run_nextValue]
    rcases hadvance : db.contents.advance sequence with f | ⟨values, contents⟩
    · exact .inl rfl
    · exact .inr ⟨sequence, values, contents, rfl, hadvance, rfl⟩
  · exact .inl (query_unchanged (fun sequence h => hs ⟨sequence, h⟩) params db)

theorem Touched.saved_eq (h : Touched allowed db db') :
    db'.saved = db.saved := by
  cases h with
  | same | held | released => rfl
  | executed _ params =>
      obtain h | ⟨n, contents, -, h⟩ := contents_execute _ params db
      · rw [h]
      · rw [h]
  | queried _ params =>
      obtain h | ⟨sequence, values, contents, -, -, h⟩ :=
        contents_query _ params db
      · rw [h]
      · rw [h]

/-- What holds of the contents before a call, and of all that a statement or a
drawing makes of them, holds of the contents after it. -/
theorem Touched.carries {P : Contents → Prop} (h : Touched allowed db db')
    (hsame : P db.contents) (hchange : ∀ {s params locked n c}, allowed s →
      change db.contents locked s params = .ok (n, c) → P c)
    (hadvance : ∀ {sequence values c}, allowed (.nextValue sequence) →
      db.contents.advance sequence = .ok (values, c) → P c) :
      P db'.contents := by
  cases h with
  | same | held | released => exact hsame
  | executed hs params =>
      obtain h | ⟨n, contents, hmade, h⟩ := contents_execute _ params db
      · rwa [h]
      · rw [h]
        exact hchange hs hmade
  | @queried s hs params =>
      obtain h | ⟨sequence, values, contents, rfl, hmade, h⟩ :=
        contents_query s params db
      · rwa [h]
      · rw [h]
        exact hadvance hs hmade

theorem Touched.laid (h : Touched Contents.keepsLayouts db db')
    (hlaid : db.contents.Laid) :
    db'.contents.Laid := by
  apply h.carries hlaid
  · intro s params locked n c hs hmade
    exact Contents.change_laid hmade hs hlaid
  · intro sequence values c _ hmade
    exact (Contents.advance_rewritten hmade).laid hlaid

/-- What calls make of an empty database.  The tables that they make are those
of the adapters; in every other respect the statements are arbitrary. -/
inductive Reachable : Database → Prop where
  | empty : Reachable {}
  | touched {db db' : Database} (h : Reachable db)
      (ht : Touched Contents.keepsLayouts db db') :
      Reachable db'
  | began {db : Database} (h : Reachable db) :
      Reachable (Session.beginTransaction.run db).2
  | committed {db : Database} (h : Reachable db) :
      Reachable (Session.commit.run db).2
  | undone {db : Database} (h : Reachable db) :
      Reachable (Session.rollback.run db).2

/-- What calls with statements that are allowed make of an empty database. -/
inductive ReachableBy (allowed : Statement → Prop) : Database → Prop where
  | empty : ReachableBy allowed {}
  | touched {db db' : Database} (h : ReachableBy allowed db)
      (ht : Touched allowed db db') :
      ReachableBy allowed db'
  | began {db : Database} (h : ReachableBy allowed db) :
      ReachableBy allowed (Session.beginTransaction.run db).2
  | committed {db : Database} (h : ReachableBy allowed db) :
      ReachableBy allowed (Session.commit.run db).2
  | undone {db : Database} (h : ReachableBy allowed db) :
      ReachableBy allowed (Session.rollback.run db).2

theorem Reachable.reachableBy (h : Reachable db) :
    ReachableBy Contents.keepsLayouts db := by
  induction h with
  | empty => exact .empty
  | touched _ ht ih => exact .touched ih ht
  | began _ ih => exact .began ih
  | committed _ ih => exact .committed ih
  | undone _ ih => exact .undone ih

theorem Touched.mono {allowed' : Statement → Prop}
    (hle : ∀ s, allowed s → allowed' s) (h : Touched allowed db db') :
    Touched allowed' db db' := by
  cases h with
  | same => exact .same
  | executed hs params => exact .executed (hle _ hs) params
  | queried hs params => exact .queried (hle _ hs) params
  | held => exact .held
  | released => exact .released

theorem ReachableBy.reachable (hle : ∀ s, allowed s → Contents.keepsLayouts s)
    (h : ReachableBy allowed db) : Reachable db := by
  induction h with
  | empty => exact .empty
  | touched _ ht ih => exact .touched ih (ht.mono hle)
  | began _ ih => exact .began ih
  | committed _ ih => exact .committed ih
  | undone _ ih => exact .undone ih

/-- Something holds of the contents of a database and of those that a rollback
would bring back. -/
structure Throughout (I : Contents → Prop) (db : Database) : Prop where
  now : I db.contents
  saved : ∀ c, db.saved = some c → I c

namespace Throughout

variable {I : Contents → Prop}

theorem touched (h : db.Throughout I) (ht : Touched allowed db db')
    (hstep : I db.contents → I db'.contents) : db'.Throughout I :=
  ⟨hstep h.now, by rw [ht.saved_eq]; exact h.saved⟩

theorem began (h : db.Throughout I) :
    ((Session.beginTransaction.run db).2 : Database).Throughout I := by
  rw [run_begin]
  split
  · exact h
  · refine ⟨h.now, fun c hc => ?_⟩
    cases hc
    exact h.now

theorem committed (h : db.Throughout I) :
    ((Session.commit.run db).2 : Database).Throughout I := by
  rw [run_commit]
  split
  · exact h
  · exact ⟨h.now, fun c hc => by cases hc⟩

theorem undone (h : db.Throughout I) :
    ((Session.rollback.run db).2 : Database).Throughout I := by
  obtain ⟨hcontents, hsaved⟩ := contents_rollback db
  refine ⟨?_, fun c hc => by rw [hsaved] at hc; cases hc⟩
  rw [hcontents]
  cases hdb : db.saved with
  | none => exact h.now
  | some c => exact h.saved c hdb

end Throughout

/-- What holds of the empty contents, and is kept by single calls, holds of the
contents of every reachable database, and also of those that are saved. -/
theorem ReachableBy.invariant {I : Contents → Prop} (hempty : I {})
    (hstep : ∀ {db db' : Database}, Touched allowed db db' → I db.contents →
      I db'.contents) (h : ReachableBy allowed db) : db.Throughout I := by
  induction h with
  | empty => exact ⟨hempty, fun c hc => by cases hc⟩
  | touched _ ht ih => exact ih.touched ht (hstep ht)
  | began _ ih => exact ih.began
  | committed _ ih => exact ih.committed
  | undone _ ih => exact ih.undone

theorem Reachable.laid (h : Reachable db) : db.contents.Laid :=
  (h.reachableBy.invariant (fun _ ht => absurd ht List.not_mem_nil)
    Touched.laid).now

end Database

theorem EntityId.value_of_ofValue {n : Int64} {id : EntityId}
    (h : EntityId.ofValue n = .ok id) :
    id.value = n := by
  unfold ofValue ofValue? at h
  split at h
  case h_1 id' hid =>
    cases h
    obtain ⟨_, heq⟩ := Option.dite_none_right_eq_some.mp hid
    cases heq
    rfl
  case h_2 => cases h

section Worlds

variable [Backed σ]

namespace World

def database (w : World σ ω) : Database := Backed.database w.store.session

def contents (w : World σ ω) : Database.Contents := w.database.contents

@[simp] theorem database_entered (op entity : String) (s : σ) (w : World σ ω) :
    (Store.entered op entity s w).database = Backed.database s := rfl

@[simp] theorem database_undone (op : String) (stop : Stop) (w : World σ ω) :
    (Store.undone op stop w).database = (Session.rollback.run w.database).2 :=
  Backed.rollback_undoes w.store.session

@[simp] theorem database_withSession (w : World σ ω) (s : σ) :
    (w.withSession s).database = Backed.database s := rfl

end World

theorem change_of_execute {s : Statement} {params : List Value} {n : Nat}
    {w w' : World σ ω} (h : (Store.execute s params).exec w = (.ok n, w')) :
    ∃ locked, Database.change w.contents locked s params = .ok (n,
      w'.contents) := by
  obtain ⟨s', hrun, rfl⟩ := Store.exec_use_eq_ok.mp h
  have hreal := (Backed.execute_mirrors s params).run_eq_ok hrun
  rw [Database.run_execute] at hreal
  split at hreal
  case h_1 count contents hchange =>
    obtain ⟨houtcome, hdatabase⟩ := Prod.mk.inj hreal
    cases houtcome
    have hcontents : contents = (w.withSession s').contents :=
      congrArg Database.contents hdatabase
    exact ⟨_, hcontents ▸ hchange⟩
  case h_2 => cases hreal

theorem number_of_nextId {entity : String} {id : EntityId} {w w' : World σ ω}
    (h : (Store.nextId entity).exec w = (.ok id, w')) :
    ∃ values, w.contents.advance (Statement.sequenceName entity) = .ok (values,
      w'.contents) ∧
      Plain.lastNumber [{ fetches := values.map fun cells =>
        ({ place := { key := 0 }, cells } : Database.ResultRow).fetch }] =
          .ok (some id.value) := by
  obtain ⟨found, v, hquery, hrest⟩ := Action.exec_bind_eq_ok.mp h
  obtain ⟨rfl, rfl⟩ : found = some id.value ∧ v = w' := by
    cases found with
    | none => cases hrest
    | some n =>
        cases hvalue : EntityId.ofValue n with
        | error e =>
            simp only [hvalue] at hrest
            cases hrest
        | ok id' =>
            simp only [hvalue] at hrest
            cases hrest
            exact ⟨congrArg some (EntityId.value_of_ofValue hvalue).symm, rfl⟩
  rw [Plain.queryNumber_eq, Store.use_bind] at hquery
  obtain ⟨openings, v', hopen, hnumber⟩ := Action.exec_bind_eq_ok.mp hquery
  rw [Store.use_ofExcept] at hnumber
  obtain ⟨hlast, rfl⟩ := Action.exec_ofExcept_eq_ok.mp hnumber
  obtain ⟨s', hrun, rfl⟩ := Store.exec_use_eq_ok.mp hopen
  have hreal := (Backed.query_mirrors _ _).run_eq_ok hrun
  rw [Database.run_nextValue] at hreal
  split at hreal
  case h_1 values contents hadvance =>
    obtain ⟨hopenings, hdatabase⟩ := Prod.mk.inj hreal
    cases hopenings
    have hcontents : contents = (w.withSession s').contents :=
      congrArg Database.contents hdatabase
    exact ⟨values, hcontents ▸ hadvance, hlast⟩
  case h_2 => cases hreal

theorem advance_of_nextId {entity : String} {id : EntityId} {w w' : World σ ω}
    (h : (Store.nextId entity).exec w = (.ok id, w')) :
    ∃ values, w.contents.advance (Statement.sequenceName entity) = .ok (values,
      w'.contents) := by
  obtain ⟨values, hadvance, -⟩ := number_of_nextId h
  exact ⟨values, hadvance⟩

variable {allowed : Statement → Prop}

theorem touched_of_mirrors {access : Access σ α} {real : Access Database α}
    (h : Mirrors Backed.database access real)
    (hreal : ∀ db, Database.Touched allowed db (real.run db).2)
    (w : World σ ω) :
    Database.Touched allowed w.database
      ((Store.use access : Action σ ω α).exec w).2.database := by
  rw [Store.exec_use, World.database_withSession]
  rcases h w.store.session with ⟨-, hsame⟩ | ⟨-, hsame⟩
  · rw [hsame]
    exact hreal w.database
  · rw [hsame]
    exact .same

theorem Plain.touched {m : Action σ ω α} (h : Plain allowed α m)
    (w : World σ ω) :
    Database.Touched allowed w.database (m.exec w).2.database := by
  cases h with
  | execute hs params =>
      exact touched_of_mirrors (Backed.execute_mirrors _ params)
        (fun _ => .executed hs params) w
  | query hs params =>
      exact touched_of_mirrors (Backed.query_mirrors _ params)
        (fun _ => .queried hs params) w
  | see f => exact .same
  | skip => exact .same
  | hold =>
      have hhold := Backed.database_hold w.store.session
      change Database.Touched allowed _
        (Backed.database (Session.hold w.store.session))
      rw [hhold]
      exact .held
  | release =>
      have hrelease := Backed.database_release w.store.session
      change Database.Touched allowed _
        (Backed.database (Session.release w.store.session))
      rw [hrelease]
      exact .released

theorem AdapterStatement.keepsLayouts {s : Statement} (h : AdapterStatement s) :
    Database.Contents.keepsLayouts s := by
  have hmem : ∀ subject : Script.Subject, subject ∈ Script.Subject.all := by
    intro subject
    cases subject <;> decide
  cases h with
  | createSequence subject hentity =>
      exact List.mem_flatMap.mpr ⟨subject, hmem subject,
        List.mem_append_left _ (List.mem_map.mpr ⟨_, hentity, rfl⟩)⟩
  | createTable subject htable =>
      exact List.mem_flatMap.mpr ⟨subject, hmem subject,
        List.mem_append_right _ (List.mem_map.mpr ⟨_, htable, rfl⟩)⟩
  | _ => trivial

theorem Elementary.touched {m : Action σ ω α} (h : Elementary allowed α m)
    (w : World σ ω) :
    Database.Touched allowed w.database (m.exec w).2.database := by
  cases h with
  | plain h => exact h.touched w
  | remember f => exact .same

theorem Program.saved_within {m : Action σ ω α}
    (h : Program (Elementary allowed) m) (w : World σ ω)
    (hwithin : w.store.writing = true) :
    (m.exec w).2.database.saved = w.database.saved := by
  refine (h.keeps_within
    (R := fun u v : World σ ω => v.database.saved = u.database.saved)
    (fun _ => rfl) (fun huv hvx => hvx.trans huv)
    (fun _ _ => rfl) ?_ w hwithin).2
  intro _ m hm u hu
  exact ⟨(hm.writing u).trans hu, (hm.touched u).saved_eq⟩

/-- An outermost write that ends without a result leaves the contents as they
were. -/
theorem contents_of_write_error {op entity : String} {work : Action σ ω α}
    {w w' : World σ ω} {stop : Stop} (hwork : Program (Elementary allowed) work)
    (houtermost : w.store.writing = false)
    (h : (Store.write op entity work).exec w = (.error stop, w')) :
    w'.contents = w.contents := by
  have hundone :
      ∀ (cause : Stop) {s : σ} {outcome : Except Stop α} {u v : World σ ω},
      Session.beginTransaction.run w.store.session = (.ok (), s) →
      work.exec (Store.entered op entity s w) = (outcome, v) →
      u.database = v.database →
      (Store.undone op cause u).contents = w.contents := by
    intro cause s outcome u v hbegin hrun hu
    have hsaved := hwork.saved_within (Store.entered op entity s w) rfl
    rw [hrun, World.database_entered, Backed.begin_eq_ok hbegin] at hsaved
    unfold World.contents
    rw [World.database_undone, hu,
      (Database.contents_rollback v.database).1, hsaved]
    rfl
  have houtermost := Store.write_outermost op entity work houtermost
  rw [h] at houtermost
  cases houtermost with
  | refused hbegin =>
      exact congrArg Database.contents (Backed.begin_eq_error hbegin)
  | stopped hbegin hrun => exact hundone stop hbegin hrun rfl
  | @uncommitted _ _ _ f _ hbegin hrun hcommit =>
      exact hundone (.failed f) hbegin hrun (Backed.commit_eq_error hcommit)

/-- An outermost write with a result leaves the contents as its work has made
them. -/
theorem contents_of_write_ok {op entity : String} {work : Action σ ω α}
    {w w' : World σ ω} {a : α} (houtermost : w.store.writing = false)
    (h : (Store.write op entity work).exec w = (.ok a, w')) :
    ∃ u v, u.store.writing = true ∧ u.contents = w.contents ∧
      work.exec u = (.ok a, v) ∧
      w'.contents = v.contents := by
  have houtermost := Store.write_outermost op entity work houtermost
  rw [h] at houtermost
  cases houtermost with
  | @committed s s' _ v hbegin hrun hcommit =>
      refine ⟨Store.entered op entity s w, v, rfl, ?_, hrun, ?_⟩
      · change (Backed.database s).contents = _
        rw [Backed.begin_eq_ok hbegin]
        rfl
      · change (Backed.database s').contents = _
        rw [Backed.commit_eq_ok hcommit]
        rfl

theorem contents_of_write {op entity : String} {work : Action σ ω α}
    {w w' : World σ ω} {a : α}
    (h : (Store.write op entity work).exec w = (.ok a, w')) :
    ∃ u v, u.store.writing = true ∧ u.contents = w.contents ∧
      work.exec u = (.ok a, v) ∧
      w'.contents = v.contents := by
  cases hwriting : w.store.writing with
  | false => exact contents_of_write_ok hwriting h
  | true =>
      rw [Store.exec_write_within op entity work hwriting] at h
      rcases hrun : work.exec (w.noting [Store.openingEvent op entity])
        with ⟨outcome, v⟩
      rw [hrun] at h
      cases h
      exact ⟨w.noting [Store.openingEvent op entity], v, hwriting,
        rfl, hrun, rfl⟩

theorem keeps_of_mirrors {P : Database → Prop} {access : Access σ α}
    {real : Access Database α} (h : Mirrors Backed.database access real)
    (hreal : ∀ {db}, P db → P (real.run db).2)
    (w : World σ ω) (hw : P w.database) :
    P (w.withSession (access.run w.store.session).2).database := by
  rw [World.database_withSession]
  rcases h w.store.session with ⟨-, hsame⟩ | ⟨-, hsame⟩
  · rw [hsame]
    exact hreal hw
  · rw [hsame]
    exact hw

theorem Program.keeps_database {P : Database → Prop}
    (hbegin : ∀ {db : Database}, P db → P (Session.beginTransaction.run db).2)
    (hcommit : ∀ {db : Database}, P db → P (Session.commit.run db).2)
    (hrollback : ∀ {db : Database}, P db → P (Session.rollback.run db).2)
    {basic : (α : Type) → Action σ ω α → Prop}
    (hbasic : ∀ {α : Type} {m : Action σ ω α}, basic α m →
      ∀ w, P w.database → P (m.exec w).2.database)
    {m : Action σ ω α} (h : Program basic m) (w : World σ ω)
    (hw : P w.database) :
    P (m.exec w).2.database := by
  refine h.keeps_throughout (R := fun u v : World σ ω => P u.database →
    P v.database)
    (fun _ hu => hu) (fun huv hvx hu => hvx (huv hu)) (fun _ _ hu => hu)
    (fun _ _ hu => hu) (keeps_of_mirrors Backed.begin_mirrors hbegin)
    (keeps_of_mirrors Backed.commit_mirrors hcommit)
    ?_ hbasic w hw
  intro u hu
  rw [World.database_withSession, Backed.rollback_undoes]
  exact hrollback hu

theorem Program.reachableBy {m : Action σ ω α}
    (h : Program (Elementary allowed) m) (w : World σ ω)
    (hreach : Database.ReachableBy allowed w.database) :
    Database.ReachableBy allowed (m.exec w).2.database :=
  h.keeps_database .began .committed .undone
    (fun hm u hu => .touched hu (hm.touched u)) w hreach

theorem Program.reachable {m : Action σ ω α}
    (h : Program (Elementary Database.Contents.keepsLayouts) m) (w : World σ ω)
    (hreach : Database.Reachable w.database) :
    Database.Reachable (m.exec w).2.database :=
  (h.reachableBy w hreach.reachableBy).reachable fun _ hs => hs

end Worlds

end Annals
