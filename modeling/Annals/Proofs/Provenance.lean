import Annals.Proofs.Batches
import Annals.Proofs.Integrity
import Annals.Proofs.Readings

namespace Annals

open Annals.Sql Annals.Stream Annals.Database Annals.Database.Contents

namespace Database

/-- The row is that of some record which has its row in the table. -/
structure StoredRow.Of (r : StoredRow) (table : Table) : Prop where
  positive : 0 < r.key
  payload : ∃ values, Payload table values ∧
    drawn table.name (StoredTable.ofTable table).columns
      (values.map Cell.ofValue) = .ok r.cells

namespace StoredTable

/-- If the table is one of those for records, then all its rows are those of
records. -/
def Recorded (t : StoredTable) : Prop :=
  ∀ table ∈ storeTables, t.blank = .ofTable table → ∀ r ∈ t.rows, r.Of table

theorem Recorded.of_rows {t t' : StoredTable} (h : t.Recorded)
    (hblank : t'.blank = t.blank) (hrows : ∀ r ∈ t'.rows, r ∈ t.rows ∨
      ∀ table ∈ storeTables, t.blank = .ofTable table → r.Of table) :
      t'.Recorded := by
  intro table htable ht r hr
  rw [hblank] at ht
  rcases hrows r hr with hr | hr
  · exact h table htable ht r hr
  · exact hr table htable ht

theorem Recorded.of_nil {t : StoredTable} (h : t.rows = []) : t.Recorded := by
  intro table _ _ r hr
  rw [h] at hr
  cases hr

theorem recorded_of_sequence {t : StoredTable} {sequence : String}
    (h : t.blank = .ofSequence sequence) :
    t.Recorded := by
  intro table htable ht
  have hkeyed := isSome_keyColumn table htable
  rw [← ht, h] at hkeyed
  cases hkeyed

theorem table_eq_of_blank {t : StoredTable} {table other : Table}
    (ht : t.blank = .ofTable table) (hother : t.blank = .ofTable other)
    (htable : table ∈ storeTables) (hmem : other ∈ storeTables) :
    other = table := by
  have hall : ∀ table ∈ storeTables, ∀ other ∈ storeTables,
      StoredTable.ofTable table = .ofTable other → other = table := by
    decide
  exact hall table htable other hmem (ht.symm.trans hother)

end StoredTable

namespace Contents

/-- The contents are in order, and every row is that of a record. -/
structure Recorded (c : Contents) : Prop extends Orderly c where
  rows : ∀ t ∈ c.tables, t.Recorded

theorem recorded_empty : Recorded {} where
  toOrderly := orderly_empty
  rows _ ht := absurd ht List.not_mem_nil

variable {c c' : Contents}

section Changes

variable (hc : c.Recorded) {n : Nat} {table : Table}
include hc

theorem Recorded.of_rewritten {sequence : String}
    (hlayout : .ofSequence sequence ∈ layouts)
    (h : Rewritten sequence c c') : ∀ t ∈ c'.tables, t.Recorded := by
  obtain rfl | ⟨t, t', ht, hblank, rfl⟩ := h
  · exact hc.rows
  · have hsequence : t.blank = .ofSequence sequence :=
      hc.laid.blank_eq hlayout ht
    exact forall_put hc.rows
      (StoredTable.recorded_of_sequence (hblank.trans hsequence))

theorem Recorded.of_createTable {t : StoredTable} {text : String}
    (hrows : t.rows = []) (h : c.createTable t text = .ok (n, c')) :
    ∀ u ∈ c'.tables, u.Recorded := by
  obtain ⟨-, rfl⟩ := createTable_eq_ok h
  intro u hu
  rcases List.mem_append.mp hu with hu | hu
  · exact hc.rows u hu
  · rw [List.mem_singleton.mp hu]
    exact .of_nil hrows

theorem Recorded.of_insert (htable : table ∈ storeTables) {id : EntityId}
    {values : List Value} (hvalues : Payload table values)
    (h : c.insert table.name (Value.ofId id :: values) = .ok (n, c')) :
    ∀ t ∈ c'.tables, t.Recorded := by
  obtain ⟨t, cells, ht, hblank, hcells, -, rfl⟩ :=
    hc.laid.insert_eq_ok (mem_layouts table htable)
      (isSome_keyColumn table htable) h
  refine forall_put hc.rows
    ((hc.rows t (mem_of_table? ht)).of_rows rfl fun r hr => ?_)
  rcases List.mem_cons.mp ((StoredTable.insertRow_perm _ _).mem_iff.mp hr)
    with rfl | hr
  · right
    intro other hother ht'
    cases StoredTable.table_eq_of_blank hblank ht' htable hother
    exact ⟨id.positive, values, hvalues, hcells⟩
  · exact .inl hr

theorem Recorded.of_update (htable : table ∈ storeTables) {id : EntityId}
    {values : List Value} (hvalues : Payload table values)
    (h : c.update table.name (values ++ [Value.ofId id]) = .ok (n, c')) :
    ∀ t ∈ c'.tables, t.Recorded := by
  obtain ⟨-, rfl⟩ | ⟨-, t, key, cells, ht, -, -, hcells, rfl⟩ := update_eq_ok h
  · exact hc.rows
  · have hblank := hc.laid.ofTable_eq (mem_layouts table htable) ht
    rw [List.dropLast_concat, StoredTable.name_eq_of_blank hblank,
      StoredTable.columns_eq_of_blank hblank, ofTable_name] at hcells
    have hrecorded := hc.rows t (mem_of_table? ht)
    refine forall_put hc.rows
      (hrecorded.of_rows (StoredTable.blank_withCells _ _ _) fun r hr => ?_)
    -- the row with the key gets new cells, and keeps its key
    obtain ⟨r, hmem, rfl⟩ := List.mem_map.mp hr
    split
    case isFalse => exact .inl hmem
    case isTrue =>
      right
      intro other hother ht'
      cases StoredTable.table_eq_of_blank hblank ht' htable hother
      exact ⟨(hrecorded table htable hblank r hmem).positive, values,
        hvalues, hcells⟩

theorem Recorded.of_delete {column : String} {params : List Value}
    (h : c.delete table.name column params = .ok (n, c')) : ∀ t ∈ c'.tables,
      t.Recorded := by
  obtain ⟨t, ht, -, rfl⟩ := delete_eq_ok h
  refine forall_put hc.rows
    ((hc.rows t (mem_of_table? ht)).of_rows rfl fun r hr => ?_)
  exact .inl (List.mem_filter.mp hr).1

theorem Recorded.change {locked : Bool} {s : Statement} {params : List Value}
    (hs : Issued s params) (h : change c locked s params = .ok (n, c')) :
    c'.Recorded := by
  have hintegrity := hs.adapterStatement.keepsIntegrity
  refine ⟨hc.toOrderly.change hintegrity h, ?_⟩
  cases hs with
  | createSequence s hs => exact hc.of_createTable rfl h
  | seedSequence s hs =>
      exact hc.of_rewritten (AdapterStatement.createSequence s hs).keepsLayouts
        (insert_rewritten h)
  | createTable s hs =>
      exact hc.of_createTable (congrArg StoredTable.rows (ofTable_blank _)).symm
        h
  | createIndex index =>
      intro t ht
      rw [createIndex_tables h] at ht
      exact hc.rows t ht
  | insert hvalues id => exact hc.of_insert hvalues.mem hvalues h
  | update hvalues id => exact hc.of_update hvalues.mem hvalues h
  | delete s hs column id => exact hc.of_delete h

end Changes

end Contents

theorem Touched.recorded {db db' : Database} (h : Touched Drawing db db')
    (hdb : db.contents.Recorded) : db'.contents.Recorded := by
  apply h.carries hdb
  · -- a drawing is a query, and executing it has no effect
    intro s params locked n c hs hmade
    cases hs
    cases hmade
    exact hdb
  · intro sequence values c hs hmade
    have hlayout := hs.adapterStatement.keepsIntegrity
    exact ⟨hdb.toOrderly.advance hlayout hmade,
      hdb.of_rewritten hlayout (advance_rewritten hmade)⟩

end Database

section Stores

variable {σ ω α : Type}

variable [Backed σ]

/-- What is done with an adapter in one go: a scheme or its indexes are made, a
batch is saved, updated or deleted, a single row is written, or something is
read, looked at or remembered.  The session may also change, as long as its
database stays as it is. -/
inductive Operation : (α : Type) → Action σ ω α → Prop where
  | createScheme (s : Script.Subject) : Operation Unit s.adapter.createScheme
  | createIndexes (s : Script.Subject) : Operation Unit s.adapter.createIndexes
  | save (s : Script.Subject) (batch : List s.Entity) :
      Operation (Written s.Entity) (s.adapter.save batch)
  | updateAll (s : Script.Subject) (batch : List s.Entity) :
      Operation (Written s.Entity) (s.adapter.updateAll batch)
  | deleteAll (s : Script.Subject) (batch : List s.Entity) :
      Operation Nat (s.adapter.deleteAll batch)
  | edit (s : Script.Subject) {α : Type} {m : Action σ ω α}
      (h : Acts (Edits s) α m) : Operation α m
  | reading {α : Type} {m : Action σ ω α} (h : Elementary IsReading α m) :
      Operation α m
  | aside (f : σ → σ)
      (hdatabase : ∀ s, Backed.database (f s) = Backed.database s) :
      Operation Unit (Store.change fun s => { s with session := f s.session })

/-- The states to which adapters lead from an empty database, also those in the
midst of writes.  In between the session may change, as long as its database
stays as it is; so calls can be made to fail. -/
inductive Reached : World σ ω → Prop where
  | start {w : World σ ω} (hdatabase : w.database = {}) : Reached w
  | run {w : World σ ω} {α : Type} {m : Action σ ω α} (h : Reached w)
      (hm : Program Operation m) :
      Reached (m.exec w).2
  | entered {w : World σ ω} (h : Reached w) (op entity : String) :
      Reached (Store.entered op entity
        (Session.beginTransaction.run w.store.session).2 w)
  | aside {w w' : World σ ω} (h : Reached w)
      (hdatabase : w'.database = w.database) : Reached w'

theorem Acts.recorded {m : Action σ ω α} (h : Acts Issued α m) (w : World σ ω)
    (hw : w.database.Throughout Recorded) :
    (m.exec w).2.database.Throughout Recorded := by
  cases h with
  | plain h => exact hw.touched (h.touched w) (h.touched w).recorded
  | @issue s params h =>
      refine keeps_of_mirrors (P := Database.Throughout Recorded)
        (Backed.execute_mirrors s params)
        (fun {db} hdb => hdb.touched (.executed h.adapterStatement params)
          fun hnow => ?_) w hw
      obtain hsame | ⟨n, contents, hchange, hafter⟩ :=
        contents_execute s params db
      · rwa [hsame]
      · rw [hafter]
        exact hnow.change h hchange

theorem Program.recorded {m : Action σ ω α} (h : Program (Acts Issued) m)
    (w : World σ ω) (hw : w.database.Throughout Recorded) :
    (m.exec w).2.database.Throughout Recorded :=
  h.keeps_database Throughout.began Throughout.committed Throughout.undone
    (fun hm u => hm.recorded u) w hw

theorem Operation.recorded {m : Action σ ω α} (h : Operation α m)
    (w : World σ ω) (hw : w.database.Throughout Recorded) :
    (m.exec w).2.database.Throughout Recorded := by
  cases h with
  | createScheme s => exact s.createScheme_acts.issued.recorded w hw
  | createIndexes s =>
      exact (s.createIndexes_acts Licensed.createIndex).issued.recorded w hw
  | save s batch | updateAll s batch =>
      exact ((s.submit_acts _ _ batch).acts .edit).issued.recorded w hw
  | deleteAll s batch =>
      exact ((s.deleteAll_acts batch).acts .edit).issued.recorded w hw
  | edit s h =>
      exact ((Program.basic h).acts Licensed.edit).issued.recorded w hw
  | aside f hdatabase =>
      change (Backed.database (f w.store.session)).Throughout Recorded
      rwa [hdatabase]
  | reading h =>
      refine hw.touched (h.touched w) fun hnow => ?_
      rwa [(h.touched w).contents_eq]

/-- Whatever adapters have led to, every row is that of a record, and also every
row that a rollback would bring back. -/
theorem Reached.recorded {w : World σ ω} (h : Reached w) :
    w.database.Throughout Recorded := by
  induction h with
  | start hdatabase =>
      rw [hdatabase]
      exact ⟨recorded_empty, fun c hc => by cases hc⟩
  | run _ hm ih =>
      exact hm.keeps_database Throughout.began Throughout.committed
        Throughout.undone (fun hm u => hm.recorded u) _ ih
  | @entered w _ op entity ih =>
      exact keeps_of_mirrors (P := Database.Throughout Recorded)
        Backed.begin_mirrors Throughout.began w ih
  | aside _ hdatabase ih => rwa [hdatabase]

theorem Operation.reachableBy {m : Action σ ω α} (h : Operation α m)
    (w : World σ ω) (hw : ReachableBy keepsIntegrity w.database) :
    ReachableBy keepsIntegrity (m.exec w).2.database := by
  have hkept : ∀ {α : Type} {m : Action σ ω α},
      Program (Plain AdapterStatement) m →
      ReachableBy keepsIntegrity (m.exec w).2.database :=
    fun hm => (hm.elementary fun _ hs => hs.keepsIntegrity).reachableBy w hw
  cases h with
  | createScheme s => exact hkept s.createScheme_program
  | createIndexes s => exact hkept s.createIndexes_program
  | save s batch | updateAll s batch => exact hkept (s.submit_program _ _ batch)
  | deleteAll s batch => exact hkept (s.deleteAll_program batch)
  | edit s h =>
      exact hkept ((Program.basic h).acts Licensed.edit).adapterStatements
  | reading h =>
      refine hw.touched ((h.touched w).mono fun s hs => ?_)
      cases s with
      | select | selectFamily => trivial
      | _ => exact hs.elim
  | aside f hdatabase =>
      change ReachableBy keepsIntegrity (Backed.database (f w.store.session))
      rwa [hdatabase]

theorem Reached.reachableBy {w : World σ ω} (h : Reached w) :
    ReachableBy keepsIntegrity w.database := by
  induction h with
  | start hdatabase =>
      rw [hdatabase]
      exact .empty
  | run _ hm ih =>
      exact hm.keeps_database .began .committed .undone
        (fun hm u => hm.reachableBy u) _ ih
  | @entered w _ op entity ih =>
      exact keeps_of_mirrors (P := ReachableBy keepsIntegrity)
        Backed.begin_mirrors .began w ih
  | aside _ hdatabase ih => rwa [hdatabase]

end Stores

end Annals
