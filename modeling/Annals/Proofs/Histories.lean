import Annals.Proofs.Draws

/-!
A history leads from a store with an empty database through calls that are made
one after the other, outside of any write, while calls to the session may fail
at any time.  Throughout, every series stays numbered, and the identifiers that
records receive ascend from the first batch to the last.
-/

namespace Annals

open Annals.Sql Annals.Stream Annals.Database Annals.Database.Contents

/-- A batch that was handed to a save or an update, and what the call has made
of it. -/
structure Submission where
  subject : Script.Subject
  batch : List subject.Entity
  written : Written subject.Entity

namespace Submission

/-- The identifiers that the slots of a series have received, if the batch has
been written. -/
def received (k : Series) (x : Submission) : List EntityId :=
  match x.written.outcome with
  | .ok () => x.subject.receivedIn k x.batch x.written.batch
  | .error _ => []

/-- The identifiers with which parts of the records have come, if the batch has
been written. -/
def supplied (k : Series) (x : Submission) : List EntityId :=
  match x.written.outcome with
  | .ok () => x.batch.flatMap (x.subject.supplied k)
  | .error _ => []

theorem supplied_series (s : Script.Subject) (x : Submission) :
    x.supplied s.series = [] := by
  obtain ⟨subject, batch, ⟨_ | _, after⟩⟩ := x
  · rfl
  · exact List.flatMap_eq_nil_iff.mpr fun r _ => s.supplied_series subject r

end Submission

/-- What a save or an update leaves behind about its batch. -/
def Script.Subject.submission (s : Script.Subject) (batch : List s.Entity) :
    Except Stop (Written s.Entity) → List Submission
  | .ok written => [{ subject := s, batch, written }]
  | .error _ => []

def World.failing {σ ω : Type} (w : World (Scripted σ) ω) (failCommit : Bool) :
    World (Scripted σ) ω := w.withSession { w.store.session with failCommit }

section Histories

variable {σ ω : Type} [Backed σ] {w w' v v' : World σ ω} {xs : List Submission}

theorem numbered_empty (k : Series) : Numbered k [] {} 0 where
  laid _ h := absurd h List.not_mem_nil
  nonneg := Int64.le_refl 0
  value := .inr ⟨rfl, rfl⟩
  keys _ h := nomatch h

theorem moves_of_submit (s : Script.Subject) (needed : List Capability)
    (op : String) (batch : List s.Entity) (houtermost : w.store.writing = false)
    (k : Series) :
    Moves k
      ((s.submission batch
        ((s.adapter.submit needed op batch).exec w).1).flatMap (·.received k))
      ((s.submission batch
        ((s.adapter.submit needed op batch).exec w).1).flatMap (·.supplied k))
      w.contents ((s.adapter.submit needed op batch).exec w).2.contents := by
  have h := Script.Subject.submitted_submit s needed op batch w
  generalize (s.adapter.submit needed op batch).exec w = after at h
  cases h with
  | refused f => exact .refl k w.contents
  | empty hbatch =>
      subst hbatch
      exact .refl k w.contents
  | stopped hwrite =>
      have hwork : Program (Elementary AdapterStatement)
          (batch.mapM s.adapter.writeOne :
          Action σ ω (List Keys)) :=
        (Program.mapM (Script.Subject.writeOne_program s) batch).elementary
          fun _ h => h
      exact .of_eq (contents_of_write_error hwork houtermost hwrite)
  | @written keys w' hwrite hfits =>
      obtain ⟨u, v, -, hu, hwork, hv⟩ := contents_of_write_ok houtermost hwrite
      have hmoves := moves_of_mapM hwork k
      rw [hu, ← hv] at hmoves
      simpa [Script.Subject.submission, Submission.received,
        Submission.supplied] using hmoves

/-- Where calls outside of any write lead a store, and the batches that have
been submitted on the way.  It starts with an empty database.  In between the
session may be changed, as long as its database stays as it is; so faults can be
armed at any time. -/
inductive History : World σ ω → List Submission → Prop where
  | start {w : World σ ω} (hdatabase : w.database = {})
      (hdialect : w.store.dialect = .sqlite)
      (houtermost : w.store.writing = false) : History w []
  | createScheme {w : World σ ω} {xs : List Submission} (h : History w xs)
      (s : Script.Subject) :
      History (s.adapter.createScheme.exec w).2 xs
  | createIndexes {w : World σ ω} {xs : List Submission} (h : History w xs)
      (s : Script.Subject) :
      History (s.adapter.createIndexes.exec w).2 xs
  | save {w : World σ ω} {xs : List Submission} (h : History w xs)
      (s : Script.Subject) (batch : List s.Entity) :
      History ((s.adapter.save batch).exec w).2
        (xs ++ s.submission batch ((s.adapter.save batch).exec w).1)
  | updateAll {w : World σ ω} {xs : List Submission} (h : History w xs)
      (s : Script.Subject) (batch : List s.Entity) :
      History ((s.adapter.updateAll batch).exec w).2
        (xs ++ s.submission batch ((s.adapter.updateAll batch).exec w).1)
  | deleteAll {w : World σ ω} {xs : List Submission} (h : History w xs)
      (s : Script.Subject) (batch : List s.Entity) :
      History ((s.adapter.deleteAll batch).exec w).2 xs
  | reading {w : World σ ω} {xs : List Submission} {α : Type} {m : Action σ ω α}
      (h : History w xs) (hm : Program (Elementary IsReading) m) :
      History (m.exec w).2 xs
  | aside {w w' : World σ ω} {xs : List Submission} (h : History w xs)
      (hdatabase : w'.database = w.database)
      (hdialect : w'.store.dialect = w.store.dialect)
      (houtermost : w'.store.writing = w.store.writing) : History w' xs

namespace History

theorem failing {w : World (Scripted σ) ω} (h : History w xs)
    (failCommit : Bool) :
    History (w.failing failCommit) xs := h.aside rfl rfl rfl

theorem outside (h : History w xs) :
    w.store.writing = false ∧ w.store.dialect = .sqlite := by
  have hkept :
      ∀ {α : Type} {m : Action σ ω α} {u : World σ ω}
        {allowed : Statement → Prop},
      Program (Elementary allowed) m → u.store.writing = false ∧
      u.store.dialect = .sqlite →
      (m.exec u).2.store.writing = false ∧
      (m.exec u).2.store.dialect = .sqlite :=
    fun hm hu => ⟨(hm.writing_eq _).trans hu.1, (hm.settings_eq _).2.trans hu.2⟩
  induction h with
  | start _ hdialect houtermost => exact ⟨houtermost, hdialect⟩
  | createScheme _ s ih =>
      exact hkept (s.createScheme_program.elementary fun _ h => h) ih
  | createIndexes _ s ih =>
      exact hkept (s.createIndexes_program.elementary fun _ h => h) ih
  | save _ s batch ih | updateAll _ s batch ih =>
      exact hkept ((s.submit_program _ _ batch).elementary fun _ h => h) ih
  | deleteAll _ s batch ih =>
      exact hkept ((s.deleteAll_program batch).elementary fun _ h => h) ih
  | reading _ hm ih => exact hkept hm ih
  | aside _ _ hdialect houtermost ih =>
      exact ⟨houtermost.trans ih.1, hdialect.trans ih.2⟩

/-- At the end of a history a series is numbered up to some value, and the
identifiers that it has drawn lead there from zero. -/
theorem numbered (h : History w xs) (k : Series) :
    ∃ n, Numbered k (xs.flatMap (·.supplied k)) w.contents n ∧
      Consecutive 0 (xs.flatMap (·.received k)) n := by
  have hstep :
      ∀ {u u' : World σ ω} {xs : List Submission}
        {drawn supplied : List EntityId},
      Moves k drawn supplied u.contents u'.contents →
      (∃ n, Numbered k (xs.flatMap (·.supplied k)) u.contents n ∧
        Consecutive 0 (xs.flatMap (·.received k)) n) →
      ∃ n, Numbered k (xs.flatMap (·.supplied k) ++ supplied) u'.contents n ∧
        Consecutive 0 (xs.flatMap (·.received k) ++ drawn) n := by
    rintro u u' xs drawn supplied hmoves ⟨n, hn, hdrawn⟩
    obtain ⟨n', hn', hdrawn'⟩ := hmoves _ n hn
    exact ⟨n', hn', hdrawn.append hdrawn'⟩
  -- every call moves the series, and only one that writes a batch draws or
  -- supplies anything
  induction h with
  | start hdatabase _ _ =>
      rw [show World.contents _ = {} from congrArg Database.contents hdatabase]
      exact ⟨0, numbered_empty k, .nil 0⟩
  | createScheme h s ih =>
      simpa using hstep (moves_of_createScheme s h.outside.1 h.outside.2 k) ih
  | createIndexes h s ih =>
      simpa using hstep (moves_of_createIndexes s h.outside.1 k) ih
  | save h s batch ih | updateAll h s batch ih =>
      rw [List.flatMap_append, List.flatMap_append]
      exact hstep (moves_of_submit s _ _ batch h.outside.1 k) ih
  | deleteAll h s batch ih =>
      simpa using hstep (moves_of_deleteAll s batch h.outside.1 k) ih
  | reading h hm ih => simpa using hstep (.of_eq (hm.contents_of_reading _)) ih
  | aside h hdatabase _ _ ih =>
      simpa using hstep (.of_eq (congrArg Database.contents hdatabase)) ih

end History

/-- A state within an outermost batch: its transaction has begun, and the
records that come first have been written. -/
def Underway (s : Script.Subject) (earlier : List s.Entity)
    (w v : World σ ω) : Prop :=
  ∃ (op : String) (session : σ) (keys : List Keys),
    Session.beginTransaction.run w.store.session = (.ok (), session) ∧
      (earlier.mapM s.adapter.writeOne).exec
        (Store.entered op s.adapter.entity session w) = (.ok keys, v)

theorem World.contents_entered (op entity : String) {session : σ}
    (hbegin : Session.beginTransaction.run w.store.session =
      (.ok (), session)) :
    (Store.entered op entity session w).contents = w.contents := by
  change (Backed.database session).contents = _
  rw [Backed.begin_eq_ok hbegin]
  rfl

theorem Underway.exists_moves {s : Script.Subject} {earlier : List s.Entity}
    (h : Underway s earlier w v) (k : Series) :
    ∃ drawn, Moves k drawn (earlier.flatMap (s.supplied k)) w.contents
      v.contents := by
  obtain ⟨op, session, keys, hbegin, hrun⟩ := h
  have hmoves := moves_of_mapM hrun k
  rw [World.contents_entered op _ hbegin] at hmoves
  exact ⟨_, hmoves⟩

/-- Within a batch a series is numbered as at the end of the history, but for
what the batch itself has drawn and supplied. -/
theorem History.numbered_underway (h : History w xs) {s : Script.Subject}
    {earlier : List s.Entity} (hunderway : Underway s earlier w v)
    (k : Series) :
    ∃ n,
      Numbered k (xs.flatMap (·.supplied k) ++ earlier.flatMap (s.supplied k))
        v.contents n := by
  obtain ⟨n, hn, -⟩ := h.numbered k
  obtain ⟨drawn, hmoves⟩ := hunderway.exists_moves k
  obtain ⟨n', hn', -⟩ := hmoves _ n hn
  exact ⟨n', hn'⟩

/-- Identifiers of commits, branches and identities are fresh.  After every
history, and in the midst of a batch, the keys of a table lie between one and
the value of its sequence; so the identifier that is drawn for a new record has
no row; and the identifiers that records have received ascend strictly from the
first batch of the history to the last. -/
theorem History.identifiers_fresh (h : History w xs) (s : Script.Subject) :
    (∀ v, v = w ∨ (∃ s' earlier, Underway s' earlier w v) →
      ∀ t r, v.contents.table? s.series.table.name = some t → r ∈ t.rows →
        ∃ n, v.contents.value? s.series.sequence = some n ∧
          1 ≤ r.key ∧ r.key ≤ n) ∧
    (∀ s' earlier v id v', Underway s' earlier w v →
      (Store.nextId s.adapter.entity).exec v = (.ok id, v') →
      ∀ t, v'.contents.table? s.series.table.name = some t →
        requireFree t id.value = .ok ()) ∧
    (xs.flatMap (·.received s.series)).Pairwise fun id id' =>
      id.value < id'.value := by
  -- nothing is ever supplied to the series of records themselves
  have hnone : xs.flatMap (·.supplied s.series) = [] :=
    List.flatMap_eq_nil_iff.mpr fun x _ => x.supplied_series s
  have hnone' : ∀ (s' : Script.Subject) (earlier : List s'.Entity),
      earlier.flatMap (s'.supplied s.series) = [] := fun s' earlier =>
    List.flatMap_eq_nil_iff.mpr fun r _ => s.supplied_series s' r
  have hunderway : ∀ {s' earlier v}, Underway s' earlier w v →
      ∃ n, Numbered s.series [] v.contents n := by
    intro s' earlier v hv
    obtain ⟨n, hn⟩ := h.numbered_underway hv s.series
    rw [hnone, hnone'] at hn
    exact ⟨n, hn⟩
  obtain ⟨n, hn, hdrawn⟩ := h.numbered s.series
  rw [hnone] at hn
  refine ⟨fun v hv t r ht hr => ?_, fun s' earlier v id v' hv hid t ht => ?_,
    hdrawn.ordered⟩
  · have hnumbered : ∃ n, Numbered s.series [] v.contents n := by
      rcases hv with rfl | ⟨s', earlier, hv⟩
      · exact ⟨n, hn⟩
      · exact hunderway hv
    obtain ⟨n, hn⟩ := hnumbered
    obtain ⟨hvalue, hkeys⟩ := hn.keys t ht
    obtain ⟨hpositive, hle | ⟨id, hid, -⟩⟩ := hkeys r hr
    · exact ⟨n, hvalue, hpositive, hle⟩
    · cases hid
  · obtain ⟨n, hn⟩ := hunderway hv
    have hid : (Store.nextId s.series.entity).exec v = (.ok id, v') := by
      cases s <;> exact hid
    exact (hn.free_of_nextId hid).elim (fun hfree => hfree t ht) nofun

end Histories

/-- A new store with the tables of identities, in which commits fail. -/
def unreliable : World (Scripted Database) Unit :=
  (Identity.adapter.createScheme.exec fresh).2.failing true

def lone : Identity := { name := "grace" }

/-- The store after an identity could not be saved, and commits succeed
again. -/
def repaired : World (Scripted Database) Unit :=
  ((Identity.adapter.save [lone]).exec unreliable).2.failing false

/-- The store after an identity has been saved and deleted, and another one has
been saved. -/
def renewed : World (Scripted Database) Unit :=
  ((Identity.adapter.save [lone]).exec
    ((Identity.adapter.deleteAll [{ lone with ident := .ofValue 1 }]).exec
      ((Identity.adapter.save [lone]).exec repaired).2).2).2

theorem identifiers_fresh_renewed : ∃ xs : List Submission, History renewed xs ∧
    xs.map (·.written.outcome.isOk) = [false, true, true] ∧
    (xs.flatMap (·.received .identities)).map EntityId.value = [1, 2] ∧
    (xs.flatMap (·.received .identities)).Pairwise fun id id' =>
      id.value < id'.value := by
  have hfresh : History fresh [] := .start rfl rfl rfl
  have hunreliable : History unreliable _ :=
    (hfresh.createScheme .identity).failing true
  have hrepaired : History repaired _ :=
    (hunreliable.save .identity [lone]).failing false
  have hrenewed : History renewed _ :=
    ((hrepaired.save .identity [lone]).deleteAll .identity
      [{ lone with ident := .ofValue 1 }]).save .identity [lone]
  refine ⟨_, hrenewed, ?_, ?_, (hrenewed.identifiers_fresh .identity).2.2⟩
  · decide +kernel
  · decide +kernel

end Annals
