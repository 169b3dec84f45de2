import Annals.Proofs.Families
import Annals.Proofs.Histories

/-!
The tables of identities and of aliases are made in one write.  So the first is
never there without the second, unless that write is part of another one which
goes on after the second table could not be made.
-/

namespace Annals

open Annals.Sql Annals.Database Annals.Database.Contents

/-- A statement of some adapter that does not make the table of identities. -/
def SparesIdentities (s : Statement) : Prop :=
  AdapterStatement s ∧ s ≠ .createTable identities

theorem SparesIdentities.of_drawing {s : Statement} (h : Drawing s) :
    SparesIdentities s := by
  refine ⟨h.adapterStatement, ?_⟩
  rintro rfl
  cases h

theorem SparesIdentities.of_edit {subject : Script.Subject} {s : Statement}
    {params : List Value} (h : Edits subject s params) :
    SparesIdentities s := by
  refine ⟨(Licensed.edit h).issued.adapterStatement, ?_⟩
  rintro rfl
  cases h

theorem SparesIdentities.of_licensed {subject : Script.Subject} {s : Statement}
    {params : List Value} (hother : identities ∉ subject.adapter.tables)
    (h : Licensed subject s params) : SparesIdentities s := by
  refine ⟨h.issued.adapterStatement, ?_⟩
  rintro rfl
  cases h with
  | createTable htable => exact hother htable
  | edit h => cases h

namespace Database.Contents

variable {c c' : Contents} {s : Statement}

theorem isSome_identities_of_createTable {t : StoredTable} {text : String}
    {n : Nat} (h : c.createTable t text = .ok (n, c')) (ht : t.blank ∈ layouts)
    (hne : identities.name ≠ t.name)
    (hsome : (c'.table? identities.name).isSome) :
    (c.table? identities.name).isSome := by
  have hidentities : StoredTable.ofTable identities ∈ layouts := by decide
  obtain ⟨-, -, hothers⟩ := table?_of_createTable h ht
  have hsame : c'.table? identities.name = c.table? identities.name :=
    hothers hidentities rfl hne
  rwa [hsame] at hsome

theorem isSome_identities_of_change {locked : Bool} {params : List Value}
    {n : Nat} (hs : SparesIdentities s)
    (h : change c locked s params = .ok (n, c'))
    (hsome : (c'.table? identities.name).isSome) :
    (c.table? identities.name).isSome := by
  obtain ⟨hs, hne⟩ := hs
  have hlayouts := hs.keepsLayouts
  cases hs with
  | createSequence =>
      refine isSome_identities_of_createTable h hlayouts ?_ hsome
      exact ne_sequenceName hlayouts (show identities ∈ storeTables by decide)
  | @createTable subject table htable =>
      have hnames : ∀ table ∈ subject.adapter.tables, table ≠ identities →
          identities.name ≠ table.name := by
        cases subject <;> decide
      refine isSome_identities_of_createTable (t := .ofTable table) h ?_
        ?_ hsome
      · rw [ofTable_blank]
        exact hlayouts
      · rw [ofTable_name]
        apply hnames table htable
        rintro rfl
        exact hne rfl
  | _ => rwa [isSome_of_change h nofun nofun nofun] at hsome

theorem Whole.change {locked : Bool} {params : List Value} {n : Nat}
    (hc : c.Whole) (hs : SparesIdentities s)
    (h : change c locked s params = .ok (n, c')) : c'.Whole := by
  intro hsome
  have hdrop : ∀ table, s ≠ .drop table := by
    rintro table rfl
    cases hs.1
  exact change_isSome h hdrop (hc (isSome_identities_of_change hs h hsome))

theorem Whole.advance {sequence : String} {values : List (List Cell)}
    (hc : c.Whole) (h : c.advance sequence = .ok (values, c')) : c'.Whole := by
  unfold Whole
  rw [(advance_rewritten h).isSome_table?, (advance_rewritten h).isSome_table?]
  exact hc

end Database.Contents

theorem Database.Touched.whole {db db' : Database}
    (h : Touched SparesIdentities db db') (hdb : db.contents.Whole) :
    db'.contents.Whole := by
  apply h.carries hdb
  · intro s params locked n c hs hmade
    exact hdb.change hs hmade
  · intro sequence values c _ hmade
    exact hdb.advance hmade

section Worlds

variable {σ ω α : Type} [Backed σ] {w w' : World σ ω}

theorem Program.whole {m : Action σ ω α}
    (h : Program (Plain SparesIdentities) m)
    (w : World σ ω) (hw : w.database.Throughout Whole) :
    (m.exec w).2.database.Throughout Whole := by
  refine h.keeps_database (fun hdb => hdb.began) (fun hdb => hdb.committed)
    (fun hdb => hdb.undone) ?_ w hw
  intro _ m hm u hu
  exact hu.touched (hm.touched u) (hm.touched u).whole

theorem Program.saved_eq_none {allowed : Statement → Prop} {m : Action σ ω α}
    (h : Program (Elementary allowed) m) (w : World σ ω)
    (hw : w.store.writing = false → w.database.saved = none) :
    (m.exec w).2.store.writing = false →
    (m.exec w).2.database.saved = none := by
  refine h.keeps (R := fun u v : World σ ω =>
    (u.store.writing = false → u.database.saved = none) →
      v.store.writing = false → v.database.saved = none)
    (fun _ hu => hu) (fun huv hvx hu => hvx (huv hu)) ?_ ?_ w hw
  · intro _ m hm u hu hv
    rw [hm.writing] at hv
    rw [(hm.touched u).saved_eq]
    exact hu hv
  · intro op entity _ work _ ih u hu hv
    cases hwriting : u.store.writing with
    | true =>
        rw [Store.exec_write_within op entity work hwriting] at hv ⊢
        exact ih _ hu hv
    | false =>
        have hundone : ∀ stop (v : World σ ω),
            (Store.undone op stop v).database.saved = none := by
          intro stop v
          rw [World.database_undone]
          exact (contents_rollback v.database).2
        have houtermost := Store.write_outermost op entity work hwriting
        generalize (Store.write op entity work).exec u = after at houtermost hv
        cases houtermost with
        | refused hbegin =>
            exact (congrArg Database.saved (Backed.begin_eq_error hbegin)).trans
              (hu hwriting)
        | @stopped s stop v => exact hundone stop v
        | @uncommitted s s' a f v =>
            exact hundone (.failed f) (v.withSession s')
        | committed _ _ hcommit =>
            exact congrArg Database.saved (Backed.commit_eq_ok hcommit)

/-- A scheme for identities that is made on its own is made as a whole or not at
all. -/
theorem whole_of_createScheme (houtermost : w.store.writing = false)
    (hw : w.contents.Whole) :
    (Identity.adapter.createScheme.exec w).2.contents.Whole := by
  have hcreate : Identity.adapter.createScheme.exec w =
      (Store.write Capability.createScheme.name Identity.adapter.entity
        (Adapter.performAll (Identity.adapter.scheme w.store.dialect))).exec
          w :=
    exec_createScheme .identity w
  rw [hcreate]
  rcases hwrite : (Store.write _ _ (Adapter.performAll _)).exec w
    with ⟨stop | ⟨⟩, w'⟩
  · have hwork : Program (Plain AdapterStatement)
        (Adapter.performAll (Identity.adapter.scheme w.store.dialect) :
          Action σ ω Unit) :=
      Program.adapterStatements (s := .identity)
        (Acts.performAll fun _ => Script.Subject.identity.licensed_of_scheme)
    have hsame :=
      contents_of_write_error (hwork.elementary fun _ h => h) houtermost hwrite
    rwa [hsame]
  · obtain ⟨u, v, -, -, hrun, hafter⟩ := contents_of_write_ok houtermost hwrite
    -- the table of aliases is the last one that is made
    obtain ⟨u', -, htables⟩ := exec_performAll_append_eq_ok.mp hrun
    obtain ⟨n, u'', -, haliases⟩ := exec_performAll_cons_eq_ok.mp htables
    obtain ⟨n', v', haliases, hdone⟩ := exec_performAll_cons_eq_ok.mp haliases
    cases hdone
    obtain ⟨locked, hmade⟩ := change_of_execute haliases
    have hlayout : (StoredTable.ofTable identityAliases).blank ∈ layouts := by
      decide
    obtain ⟨-, htable, -⟩ := table?_of_createTable
      (t := .ofTable identityAliases) hmade hlayout
    rw [hafter]
    intro _
    exact Option.isSome_of_mem htable

namespace History

variable {xs : List Submission}

/-- Between calls outside of any write no transaction is open. -/
theorem saved_eq_none (h : History w xs) : w.database.saved = none := by
  have hkept :
      ∀ {α : Type} {m : Action σ ω α} {u : World σ ω}
        {allowed : Statement → Prop}
      {xs : List Submission}, History u xs → Program (Elementary allowed) m →
      u.database.saved = none → (m.exec u).2.database.saved = none := by
    intro α m u allowed xs hu hm hsaved
    apply hm.saved_eq_none u fun _ => hsaved
    exact (hm.writing_eq u).trans hu.outside.1
  induction h with
  | start hdatabase _ _ => rw [hdatabase]
  | createScheme h s ih =>
      exact hkept h (s.createScheme_program.elementary fun _ h => h) ih
  | createIndexes h s ih =>
      exact hkept h (s.createIndexes_program.elementary fun _ h => h) ih
  | save h s batch ih | updateAll h s batch ih =>
      exact hkept h ((s.submit_program _ _ batch).elementary fun _ h => h) ih
  | deleteAll h s batch ih =>
      exact hkept h ((s.deleteAll_program batch).elementary fun _ h => h) ih
  | reading h hm ih => exact hkept h hm ih
  | aside _ hdatabase _ _ ih => rw [hdatabase, ih]

/-- The calls of a history keep the scheme for identities whole, whichever of
them fail. -/
theorem whole (h : History w xs) : w.contents.Whole := by
  have hkept :
      ∀ {α : Type} {m : Action σ ω α} {u : World σ ω} {xs : List Submission},
      History u xs → Program (Plain SparesIdentities) m → u.contents.Whole →
      (m.exec u).2.contents.Whole := by
    intro α m u xs hu hm hwhole
    have hthroughout : u.database.Throughout Whole := by
      refine ⟨hwhole, fun c hc => ?_⟩
      rw [hu.saved_eq_none] at hc
      cases hc
    exact (hm.whole u hthroughout).now
  induction h with
  | start hdatabase _ _ =>
      rw [show World.contents _ = {} from congrArg Database.contents hdatabase]
      intro hsome
      cases hsome
  | createScheme h s ih =>
      by_cases hs : identities ∈ s.adapter.tables
      · cases s with
        | identity => exact whole_of_createScheme h.outside.1 ih
        | commit | branch => exact absurd hs (by decide)
      · exact hkept h (s.createScheme_acts.plain (.of_licensed hs) .of_drawing)
          ih
  | createIndexes h s ih =>
      have hindexes : Program (Acts fun t _ => SparesIdentities t)
          (s.adapter.createIndexes : Action σ ω Unit) :=
        s.createIndexes_acts fun _ => ⟨.createIndex _, nofun⟩
      refine hkept h ?_ ih
      apply hindexes.plain
      · intro t params ht
        exact ht
      · exact .of_drawing
  | save h s batch ih | updateAll h s batch ih =>
      exact hkept h ((s.submit_acts _ _ batch).plain .of_edit .of_drawing) ih
  | deleteAll h s batch ih =>
      exact hkept h ((s.deleteAll_acts batch).plain .of_edit .of_drawing) ih
  | reading h hm ih =>
      unfold Whole
      rwa [hm.contents_of_reading]
  | aside _ hdatabase _ _ ih =>
      rwa [show World.contents _ = World.contents _ from
        congrArg Database.contents hdatabase]

end History

end Worlds

end Annals
