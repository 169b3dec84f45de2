import Annals.Proofs.Rereading

namespace Annals

open Annals.Sql Annals.Stream Annals.Time Annals.Database
    Annals.Database.Contents

namespace Script.Subject

section Rows

variable {σ ω : Type} [Backed σ] {w w' : World σ ω} {s : Subject}
    {batch : List s.Entity} {keys : List Keys}

theorem rowWritten_of_writeOne (hs : s ≠ .identity) {r : s.Entity} {keys : Keys}
    (h : (s.adapter.writeOne r).exec w = (.ok keys, w'))
    (hlaid : w.contents.Laid) :
    RowWritten s.series.table (s.kept r) keys.id w.contents w'.contents := by
  cases s with
  | commit => exact Commit.rowWritten_of_writeOne h hlaid
  | branch => exact Branch.rowWritten_of_writeOne h hlaid
  | identity => exact absurd rfl hs

theorem keptIn_of_storedIn (hs : s ≠ .identity) {c : Contents} {r : s.Entity}
    (h : s.StoredIn c r) : KeptIn s.series.table s.kept c r := by
  cases s with
  | commit | branch => exact h
  | identity => exact absurd rfl hs

theorem rows_of_mapM (hs : s ≠ .identity)
    (h : (batch.mapM s.adapter.writeOne).exec w = (.ok keys, w'))
    (hlaid : w.contents.Laid) :
    (w'.contents.table? s.series.table.name).isSome =
        (w.contents.table? s.series.table.name).isSome ∧
      ∀ key, (∀ k ∈ keys, key ≠ k.id.value) →
        w'.contents.cells? s.series.table.name key =
          w.contents.cells? s.series.table.name key := by
  induction batch generalizing keys w with
  | nil =>
      cases h
      exact ⟨rfl, fun _ _ => rfl⟩
  | cons r batch ih =>
      obtain ⟨k, v, rest, hone, hrest, rfl⟩ := Action.exec_mapM_cons_eq_ok.mp h
      obtain ⟨hlaid', hhoused, cells, -, hset⟩ :=
        rowWritten_of_writeOne hs hone hlaid
      obtain ⟨hhoused', hothers⟩ := ih hrest hlaid'
      refine ⟨hhoused'.trans hhoused, fun key hkey => ?_⟩
      rw [hothers key fun k' hk' => hkey k' (List.mem_cons_of_mem k hk'),
        hset.2 key (hkey k List.mem_cons_self)]

theorem isSome_epochNanos?_of_mapM (hs : s ≠ .identity)
    (h : (batch.mapM s.adapter.writeOne).exec w = (.ok keys, w'))
    (hlaid : w.contents.Laid) :
    ∀ r ∈ batch, ∀ t ∈ s.instants r, t.epochNanos?.isSome := by
  induction batch generalizing keys w with
  | nil => exact fun r hr => absurd hr List.not_mem_nil
  | cons first batch ih =>
      obtain ⟨k, v, rest, hone, hrest, rfl⟩ := Action.exec_mapM_cons_eq_ok.mp h
      obtain ⟨hlaid', -, cells, hkept, -⟩ :=
        rowWritten_of_writeOne hs hone hlaid
      intro r hr
      rcases List.mem_cons.mp hr with rfl | hr
      · exact isSome_epochNanos? hkept
      · exact ih hrest hlaid' r hr

end Rows

end Script.Subject

theorem Sql.Value.ofInstant_eq_error {t : Instant} (h : t.epochNanos? = none) :
    ∃ f, ofInstant t = .error f ∧ f.kind = .invalidArgument := by
  unfold ofInstant
  rw [h]
  exact ⟨_, rfl, rfl⟩

section Unstorable

variable {σ ω : Type} [Session σ] {w v w' : World σ ω} {f : Failure}

theorem Commit.writeOne_of_unstorable {c : Commit}
    (hf : Value.ofInstant c.committedAt = .error f)
    (hdrawn : Record.id? c = none →
      ∃ id v, (Store.nextId entityName).exec w = (.ok id, v)) :
    ∃ v, (adapter.writeOne c).exec w = (.error (.failed f), v) := by
  have hpayload : c.payload = .error f := by
    unfold payload
    rw [hf]
    rfl
  unfold Adapter.writeOne
  cases hid : Record.id? c with
  | none =>
      obtain ⟨id, v, hnext⟩ := hdrawn hid
      refine ⟨v, ?_⟩
      change (insertRow c).exec w = _
      unfold insertRow
      rw [Action.exec_bind_ok hnext, hpayload]
      rfl
  | some id =>
      refine ⟨w, Action.exec_bind_error ?_ _⟩
      change (updateRow c).exec w = _
      unfold updateRow
      rw [hid, hpayload]
      rfl

theorem Branch.writeOne_of_unstorable {b : Branch} (hid : Record.id? b = none)
    (hf : Value.ofInstant b.createdAt = .error f ∨
      b.createdAt.epochNanos?.isSome ∧ Value.ofOptionalInstant b.mergedAt =
        .error f)
    (hdrawn : Record.id? b = none →
      ∃ id v, (Store.nextId entityName).exec w = (.ok id, v)) :
    ∃ v, (adapter.writeOne b).exec w = (.error (.failed f), v) := by
  obtain ⟨id, v, hnext⟩ := hdrawn hid
  refine ⟨v, ?_⟩
  unfold Adapter.writeOne
  rw [hid]
  change (insertRow b).exec w = _
  unfold insertRow
  rw [Action.exec_bind_ok hnext]
  rcases hf with hf | ⟨hcreated, hf⟩
  · rw [hf]
    rfl
  · obtain ⟨n, hn⟩ := Option.isSome_iff_exists.mp hcreated
    rw [Value.ofInstant_eq_ok.mpr ⟨n, hn, rfl⟩, hf]
    rfl

end Unstorable

inductive BatchCall where
  | save
  | update

namespace BatchCall

variable {α σ ω : Type} [Record α]

def op : BatchCall → String
  | save => Capability.save.name
  | update => Capability.update.name

def submit [Session σ] (a : Adapter α) (batch : List α) :
    BatchCall → Action σ ω (Written α)
  | save => a.save batch
  | update => a.updateAll batch

/-- What a call takes to be allowed. -/
def needed (batch : List α) : BatchCall → List Capability
  | save => if batch.any Record.isPersisted then [.save, .update] else [.save]
  | update =>
    if batch.any fun record =>
      !Record.isPersisted record then [.update, .save] else [.update]

theorem submit_eq [Session σ] (call : BatchCall) (a : Adapter α)
    (batch : List α) :
    (call.submit a batch : Action σ ω (Written α)) =
      a.submit (call.needed batch) call.op batch := by
  cases call <;> rfl

end BatchCall

namespace Script.Subject

variable {σ ω : Type} {s : Subject} {call : BatchCall}
    {earlier later : List s.Entity} {r : s.Entity}

/-- A call comes to encode a record of its batch: it is allowed, its transaction
begins, the records in front are written, and if the record is new, then its
identifier is drawn. -/
structure ComesTo [Session σ] (s : Subject) (call : BatchCall)
    (earlier : List s.Entity) (r : s.Entity)
    (later : List s.Entity) (w : World σ ω) : Prop where
  allowed : s.adapter.requireAll (call.needed (earlier ++ r :: later)) = .ok ()
  begun : ∃ session keys v,
    Session.beginTransaction.run w.store.session = (.ok (), session) ∧
    (earlier.mapM s.adapter.writeOne).exec
      (Store.entered call.op s.adapter.entity session w) = (.ok keys, v) ∧
    (Record.id? r = none →
      ∃ id u, (Store.nextId s.adapter.entity).exec v = (.ok id, u))

/-- The first instant of a record that has no count. -/
def unstorable? (s : Subject) (r : s.Entity) : Option Instant :=
  (s.instants r).find? fun t => t.epochNanos?.isNone

theorem id?_of_allowed {b : Branch} {batch : List Branch} (hb : b ∈ batch)
    (h : Branch.adapter.requireAll (call.needed batch) = .ok ()) :
    Record.id? b = none := by
  unfold BatchCall.needed at h
  cases call with
  | save =>
      dsimp only at h
      split at h
      case isTrue => cases h
      case isFalse hnew =>
        by_contra hid
        exact hnew (List.any_eq_true.mpr
          ⟨b, hb, Option.isSome_iff_ne_none.mpr hid⟩)
  | update =>
      dsimp only at h
      split at h <;> cases h

theorem writeOne_of_unstorable [Session σ] {w : World σ ω} (hs : s ≠ .identity)
    {t : Instant} {f : Failure} (hbranch : s = .branch → Record.id? r = none)
    (ht : s.unstorable? r = some t) (hf : Value.ofInstant t = .error f)
    (hdrawn : Record.id? r = none →
      ∃ id v, (Store.nextId s.adapter.entity).exec w = (.ok id, v)) :
    ∃ v, (s.adapter.writeOne r).exec w = (.error (.failed f), v) := by
  cases s with
  | commit =>
      have hmem := List.mem_of_find?_eq_some ht
      cases List.mem_singleton.mp hmem
      exact Commit.writeOne_of_unstorable hf hdrawn
  | branch =>
      obtain ⟨ident, name, createdAt, mergedAt⟩ := r
      have hnone : t.epochNanos? = none := by
        simpa using List.find?_some ht
      refine Branch.writeOne_of_unstorable (hbranch rfl) ?_ hdrawn
      rcases List.find?_cons_eq_some.mp ht with ⟨-, rfl⟩ | ⟨hcreated, ht⟩
      · exact .inl hf
      · have hmerged := Option.mem_toList.mp (List.mem_of_find?_eq_some ht)
        refine .inr ⟨by simpa [Option.isSome_iff_ne_none] using hcreated, ?_⟩
        rw [show mergedAt = some t from hmerged]
        exact hf
  | identity => exact absurd rfl hs

section Calls

variable [Backed σ] {w w' : World σ ω} {batch : List s.Entity}
    {written : Written s.Entity}

theorem outcome_of_comesTo (hs : s ≠ .identity)
    (houtermost : w.store.writing = false)
    (h : (call.submit s.adapter (earlier ++ r :: later)).exec w =
      (.ok written, w'))
    (hcomes : s.ComesTo call earlier r later w) {t : Instant}
    (ht : s.unstorable? r = some t) :
    ∃ f, Value.ofInstant t = .error f ∧ f.kind = .invalidArgument ∧
      written.outcome = .error (.failed f) := by
  obtain ⟨hallowed, session, keys, v, hbegin, hearlier, hdrawn⟩ := hcomes
  obtain ⟨f, hf, hkind⟩ :=
    Value.ofInstant_eq_error (t := t) (by simpa using List.find?_some ht)
  have hbranch : s = .branch → Record.id? r = none := by
    rintro rfl
    exact id?_of_allowed (List.mem_append_right earlier List.mem_cons_self)
      hallowed
  obtain ⟨u, hone⟩ := writeOne_of_unstorable hs hbranch ht hf hdrawn
  have hwork := Action.exec_mapM_stopped hearlier hone later
  have hwrite := Store.exec_write_stopped houtermost hbegin hwork
  rw [BatchCall.submit_eq,
    Adapter.exec_submit_stopped hallowed (by simp) hwrite] at h
  cases h
  exact ⟨f, hf, hkind, rfl⟩

/-- Once a batch has been written, its records are loaded as the call has left
them, and all others as before. -/
theorem load_of_submit (hs : s ≠ .identity) {needed : List Capability}
    {op : String} (hreach : Database.ReachableBy keepsIntegrity w.database)
    (h : (s.adapter.submit needed op batch).exec w = (.ok written, w'))
    (hok : written.outcome = .ok ())
    (hanswers' : Answers w'.store.session s.selectOne) :
    (∀ earlier r later, written.batch = earlier ++ r :: later →
      (∀ x ∈ later, Record.id? x ≠ Record.id? r) →
        ∃ id loaded, Record.id? r = some id ∧ s.LoadedAs r loaded ∧
          ((s.adapter.load id).exec w').1 = .ok (some loaded)) ∧
    (Answers w.store.session s.selectOne →
      ∀ id, (∀ x ∈ written.batch, Record.id? x ≠ some id) →
      ((s.adapter.load id).exec w').1 = ((s.adapter.load id).exec w).1) := by
  have hprogram : Program (Plain AdapterStatement)
      (s.adapter.submit needed op batch :
      Action σ ω (Written s.Entity)) := submit_program s needed op batch
  have hreach' :=
    (hprogram.elementary fun _ hp => hp.keepsIntegrity).reachableBy w hreach
  have hoptions := ((hprogram.elementary fun _ hp => hp).settings_eq w).1
  rw [h] at hreach' hoptions
  have hw := hreach.orderly
  have hw' : w'.contents.Orderly := hreach'.orderly
  rcases written_of_submit h hok with
    ⟨-, hbatch, rfl⟩ | ⟨keys, hwrite, hfits, hbatch⟩
  · rw [hbatch]
    refine ⟨fun earlier r later hsplit => ?_, fun _ _ _ => rfl⟩
    simp at hsplit
  · -- within another write, too, the contents are as the work has made them
    obtain ⟨u, v, -, hu, hwork, hv⟩ := contents_of_write hwrite
    have hlaid : u.contents.Laid := hu ▸ hw.laid
    rw [hbatch]
    refine ⟨fun earlier r later hsplit hlater => ?_,
      fun hanswers id hother => ?_⟩
    · have hstored := storedIn_of_writeBatch hwork hlaid hsplit hlater
      rw [← hv] at hstored
      exact load_of_keptIn hs hanswers' hw' (keptIn_of_storedIn hs hstored)
    · obtain ⟨hhoused, hcells⟩ := rows_of_mapM hs hwork hlaid
      rw [← hv, hu] at hhoused hcells
      refine load_congr hs hanswers hanswers' hw hw' hoptions hhoused
        (hcells id.value ?_)
      intro k hk heq
      exact ne_of_zipWith hfits hother k hk
        (congrArg some (EntityId.value_inj.mp heq))

theorem not_written_of_unstorable (hs : s ≠ .identity)
    {needed : List Capability} {op : String}
    (hlaid : w.contents.Laid)
    (h : (s.adapter.submit needed op batch).exec w = (.ok written, w'))
    (hunstorable : ∃ r ∈ batch, ∃ t ∈ s.instants r, t.epochNanos? = none) :
    written.outcome ≠ .ok () ∧ written.batch = batch ∧
      (w.store.writing = false → w'.contents = w.contents) := by
  obtain ⟨r, hr, t, ht, hnone⟩ := hunstorable
  have hsubmitted : Submitted s op batch w (.ok written, w') :=
    h ▸ submitted_submit s needed op batch w
  cases hsubmitted with
  | refused f => exact ⟨nofun, rfl, fun _ => rfl⟩
  | empty hbatch =>
      subst hbatch
      cases hr
  | stopped hwrite =>
      have hprogram : Program (Elementary AdapterStatement)
          (batch.mapM s.adapter.writeOne : Action σ ω (List Keys)) :=
        (Program.mapM (writeOne_program s) batch).elementary fun _ hp => hp
      exact ⟨nofun, rfl, fun houtermost =>
        contents_of_write_error hprogram houtermost hwrite⟩
  | written hwrite hfits =>
      obtain ⟨u, v, -, hu, hwork, -⟩ := contents_of_write hwrite
      have hsome := isSome_epochNanos?_of_mapM hs hwork (hu ▸ hlaid) r hr t ht
      rw [hnone] at hsome
      cases hsome

/-- Commits and branches survive the store.  Once a batch has been saved or
updated, every record of it, unless a later one has its identifier, is loaded
with all that it held as the call has left it, and with its instants as they are
read; any other record is loaded as before.  A batch with an instant that cannot
be encoded is not written, and its records stay as they were.  Outside of other
writes nothing is stored then, and if the call comes as far as that instant,
then that is why it fails. -/
theorem records_survive (hs : s ≠ .identity)
    (hreach : Database.ReachableBy keepsIntegrity w.database) (call : BatchCall)
    (batch : List s.Entity) :
    ∃ written w', (call.submit s.adapter batch).exec w = (.ok written, w') ∧
      (written.outcome = .ok () → Answers w'.store.session s.selectOne →
        (∀ earlier r later, written.batch = earlier ++ r :: later →
          (∀ x ∈ later, Record.id? x ≠ Record.id? r) →
            ∃ id loaded, Record.id? r = some id ∧ s.LoadedAs r loaded ∧
              ((s.adapter.load id).exec w').1 = .ok (some loaded)) ∧
        (Answers w.store.session s.selectOne →
          ∀ id, (∀ x ∈ written.batch, Record.id? x ≠ some id) →
            ((s.adapter.load id).exec w').1 = ((s.adapter.load id).exec w).1)) ∧
      ((∃ r ∈ batch, ∃ t ∈ s.instants r, t.epochNanos? = none) →
        written.outcome ≠ .ok () ∧ written.batch = batch ∧
          (w.store.writing = false → w'.contents = w.contents ∧
            ∀ earlier r later t, batch = earlier ++ r :: later →
              s.unstorable? r = some t →
              s.ComesTo call earlier r later w →
                ∃ f, Value.ofInstant t = .error f ∧ f.kind = .invalidArgument ∧
                  written.outcome = .error (.failed f))) := by
  rcases hrun : (call.submit s.adapter batch).exec w with ⟨outcome, w'⟩
  have hsubmit : (s.adapter.submit (call.needed batch) call.op batch).exec w =
      (outcome, w') := by
    rw [← BatchCall.submit_eq]
    exact hrun
  obtain ⟨written, rfl, -⟩ :=
    (hsubmit ▸ submitted_submit s (call.needed batch) call.op batch w :
      Submitted s call.op batch w (outcome, w')).exists_written
  refine ⟨written, w', rfl, load_of_submit hs hreach hsubmit,
    fun hunstorable => ?_⟩
  obtain ⟨hfailed, hbatch, hcontents⟩ :=
    not_written_of_unstorable hs hreach.orderly.laid hsubmit hunstorable
  refine ⟨hfailed, hbatch, fun houtermost => ⟨hcontents houtermost, ?_⟩⟩
  intro earlier r later t hsplit ht hcomes
  subst hsplit
  exact outcome_of_comesTo hs houtermost hrun hcomes ht

end Calls

end Script.Subject

def commitStore : World Database Unit :=
  (Commit.adapter.createScheme.exec
    { store := Store.ofSession {} {}, memory := () }).2

def lateInstant : Instant :=
  ⟨10000000000, 999999999, by decide, by decide, by decide⟩

def leapCommit : Commit :=
  { revision := "r1", committedAt := leapSecond, linesRemoved := -3 }

def lateCommit : Commit := { revision := "r2", committedAt := lateInstant }

def missingCommit : Commit :=
  { ident := .ofValue 999, revision := "r1", committedAt := .ofEpochNanos 0 }

theorem reachable_commitStore :
    Database.ReachableBy keepsIntegrity commitStore.database := by
  have hscheme : Program (Plain AdapterStatement)
      (Commit.adapter.createScheme : Action Database Unit Unit) :=
    Script.Subject.createScheme_program .commit
  exact (hscheme.elementary fun _ hs => hs.keepsIntegrity).reachableBy _ .empty

theorem save_leapCommit :
    ∃ written w', (Commit.adapter.save [leapCommit]).exec commitStore =
      (.ok written, w') ∧
      written.outcome = .ok () ∧
      written.batch = [{ leapCommit with ident := .ofValue 1 }] :=
  Written.exists_of_map (by decide +kernel)

theorem records_survive_commitStore :
    Database.ReachableBy keepsIntegrity commitStore.database ∧
      (∃ written w', (Commit.adapter.save [leapCommit]).exec commitStore =
        (.ok written, w') ∧
        written.outcome = .ok () ∧
        ∃ id loaded, Commit.LoadedAs { leapCommit with ident := .ofValue 1 }
          loaded ∧
          ((Commit.adapter.load id).exec w').1 = .ok (some loaded)) ∧
      ∃ written w', (Commit.adapter.save [leapCommit, lateCommit]).exec
        commitStore = (.ok written, w') ∧ written.outcome ≠ .ok () ∧
        written.batch = [leapCommit, lateCommit] ∧
        w'.contents = commitStore.contents := by
  have hflat : Script.Subject.commit ≠ .identity := by decide
  have hlate : ∃ c ∈ [leapCommit, lateCommit],
      ∃ t ∈ Script.Subject.instants .commit c,
      t.epochNanos? = none :=
    ⟨lateCommit, by simp, lateInstant, List.mem_cons_self, by decide⟩
  refine ⟨reachable_commitStore, ?_, ?_⟩
  · obtain ⟨written, w', hrun, hok, hbatch⟩ := save_leapCommit
    obtain ⟨written', w'', hrun', hloads, -⟩ :=
      Script.Subject.records_survive hflat reachable_commitStore .save
        [leapCommit]
    cases hrun.symm.trans hrun'
    obtain ⟨id, loaded, -, hloaded, hload⟩ :=
      (hloads hok fun _ => rfl).1 [] _ [] hbatch fun x hx => by cases hx
    exact ⟨written, w', hrun, hok, id, loaded, hloaded, hload⟩
  · obtain ⟨written, w', hrun, -, hfails⟩ :=
      Script.Subject.records_survive hflat reachable_commitStore .save
        [leapCommit, lateCommit]
    obtain ⟨hfailed, hbatch, hcontents⟩ := hfails hlate
    exact ⟨written, w', hrun, hfailed, hbatch, (hcontents rfl).1⟩

/-- It is not so that a batch with an instant that cannot be encoded always
fails because of it: here a record in front cannot be written either. -/
theorem late_behind_missing :
    ¬ ∀ (w w' : World Database Unit) (batch : List Commit)
      (written : Written Commit),
      Database.ReachableBy keepsIntegrity w.database →
        (Commit.adapter.save batch).exec w = (.ok written, w') →
        (∃ c ∈ batch, c.committedAt.epochNanos? = none) →
          ∃ f, written.outcome = .error (.failed f) ∧
            f.kind = .invalidArgument := by
  intro hclaim
  obtain ⟨written, w', hrun, houtcome, -⟩ : ∃ written w',
      (Commit.adapter.save [missingCommit, lateCommit]).exec commitStore =
        (.ok written, w') ∧
        written.outcome = .error
          (.failed ((Failure.consistencyViolation "update" "commit"
          "update of identifier 999 affected 0 rows, expected exactly 1").withEntityId 999)) ∧
        written.batch = [missingCommit, lateCommit] :=
      Written.exists_of_map (by decide +kernel)
  obtain ⟨f, hfailed, hkind⟩ :=
    hclaim commitStore w' _ written reachable_commitStore hrun
      ⟨lateCommit, by simp, by decide⟩
  cases houtcome.symm.trans hfailed
  cases hkind

end Annals
