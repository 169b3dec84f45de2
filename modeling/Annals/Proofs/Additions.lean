import Annals.Proofs.Instants
import Annals.Proofs.Provenance

namespace Annals

open Annals.Sql Annals.Stream Annals.Database Annals.Database.Contents

/-- The statement changes no row of branches that is there already. -/
def Sql.Statement.Sparing : Statement → Prop
  | .update table => table ≠ branches
  | .delete table _ => table ≠ branches
  | _ => True

theorem Edits.sparing {s : Script.Subject} {t : Statement} {params : List Value}
    (h : Edits s t params) : t.Sparing := by
  have hall : ∀ s ∈ Script.Subject.all,
      s.adapter.supports .update = true ∨ s.adapter.supports .delete = true →
        ∀ table ∈ s.adapter.tables, table ≠ branches := by
    decide
  have hs : s ∈ Script.Subject.all := by
    cases s <;> decide
  cases h with
  | insert => trivial
  | update hallowed htable => exact hall s hs (.inl hallowed) _ htable
  | delete hallowed htable => exact hall s hs (.inr hallowed) _ htable

namespace Database

/-- What a rollback would bring back: the contents as they were when the
transaction began. -/
def committed (db : Database) : Contents := db.saved.getD db.contents

namespace Contents

/-- All branches of the first contents are in the second, as they are in the
first. -/
def KeepsBranches (c c' : Contents) : Prop :=
  ∀ key cells, c.cells? branches.name key = some cells →
    c'.cells? branches.name key = some cells

namespace KeepsBranches

variable {c c' c'' : Contents}

theorem refl (c : Contents) : c.KeepsBranches c := fun _ _ h => h

theorem trans (h : c.KeepsBranches c') (h' : c'.KeepsBranches c'') :
    c.KeepsBranches c'' :=
  fun key cells hcells => h' key cells (h key cells hcells)

theorem of_table (h :
    ∀ t, c.table? branches.name = some t → c'.table? branches.name = some t) :
    c.KeepsBranches c' := fun _ _ hcells => cells?_of_table h hcells

theorem of_createTable {t : StoredTable} {text : String} {n : Nat}
    (h : c.createTable t text = .ok (n, c')) : c.KeepsBranches c' :=
  of_table fun _ => table?_createTable h

section Laid

variable (hc : c.Laid)
include hc

theorem of_rewritten {b : StoredTable} (hb : b ∈ layouts)
    (hne : branches.name ≠ b.name) (h : Rewritten b.name c c') :
    c.KeepsBranches c' := by
  apply of_table
  intro t ht
  rw [h.table?_other hc hb rfl (mem_layouts branches (by decide))
    (ofTable_name branches) hne]
  exact ht

theorem of_sequence {sequence : String}
    (hsequence : .ofSequence sequence ∈ layouts)
    (h : Rewritten sequence c c') : c.KeepsBranches c' :=
  of_rewritten hc hsequence (ne_sequenceName hsequence (by decide)) h

theorem of_other {table : Table} (htable : table ∈ storeTables)
    (hne : table ≠ branches) (h : Rewritten table.name c c') :
    c.KeepsBranches c' := by
  have hnames : ∀ table ∈ storeTables, table ≠ branches →
      branches.name ≠ table.name := by
    decide
  rw [← ofTable_name table] at h
  refine of_rewritten hc (mem_layouts table htable) ?_ h
  rw [ofTable_name]
  exact hnames table htable hne

theorem of_insert {key : Int64} {others : List Value} {n : Nat}
    (h : c.insert branches.name (.integer key :: others) = .ok (n, c')) :
    c.KeepsBranches c' := by
  obtain ⟨t, own, ht, -, -, hfree, rfl⟩ :=
    hc.insert_eq_ok (mem_layouts branches (by decide)) rfl h
  intro other cells hcells
  rw [cells?_eq_of_table ht] at hcells
  rw [cells?_put_self ht (StoredTable.blank_add _ _),
    StoredTable.row?_add_other t ?_, hcells]
  rintro rfl
  rw [hfree] at hcells
  cases hcells

theorem of_edit {s : Script.Subject} {locked : Bool} {t : Statement}
    {params : List Value} {n : Nat} (ht : Edits s t params)
    (h : change c locked t params = .ok (n, c')) : c.KeepsBranches c' := by
  have hsparing := ht.sparing
  cases ht with
  | @insert table _ _ hvalues id =>
      by_cases hbranch : table = branches
      · subst hbranch
        exact of_insert hc h
      · exact of_other hc hvalues.mem hbranch (insert_rewritten h)
  | update _ _ hvalues id =>
      exact of_other hc hvalues.mem hsparing (update_rewritten h)
  | @delete table _ htable column id =>
      have hmem : ∀ s ∈ Script.Subject.all, ∀ table ∈ s.adapter.tables,
          table ∈ storeTables := by
        decide
      have hs : s ∈ Script.Subject.all := by
        cases s <;> decide
      exact of_other hc (hmem s hs table htable) hsparing (delete_rewritten h)

theorem of_change {s : Script.Subject} {locked : Bool} {t : Statement}
    {params : List Value} {n : Nat} (ht : Licensed s t params)
    (h : change c locked t params = .ok (n, c')) :
    c.KeepsBranches c' := by
  cases ht with
  | createSequence | createTable => exact of_createTable h
  | seedSequence hentity =>
      exact of_sequence hc
        (AdapterStatement.createSequence s hentity).keepsLayouts
        (insert_rewritten h)
  | createIndex =>
      apply of_table
      intro u hu
      unfold table? at hu ⊢
      rwa [createIndex_tables h]
  | edit ht => exact of_edit hc ht h

end Laid

end KeepsBranches

end Contents

theorem Touched.keepsBranches {db db' : Database} (h : Touched Drawing db db')
    (hdb : db.contents.Laid) : db.contents.KeepsBranches db'.contents := by
  apply h.carries (.refl _)
  · intro s params locked n c hs hmade
    cases hs
    cases hmade
    exact .refl _
  · intro sequence values c hs hmade
    exact .of_sequence hdb hs.adapterStatement.keepsIntegrity
      (advance_rewritten hmade)

/-- The branches that were committed once are so still, and all that are
committed are there now. -/
structure Secures (earlier : Contents) (db : Database) : Prop where
  recorded : db.Throughout Recorded
  committed : earlier.KeepsBranches db.committed
  now : db.committed.KeepsBranches db.contents

namespace Secures

variable {earlier : Contents} {db db' : Database}

theorem advance (h : db.Secures earlier) (hrecorded : db'.Throughout Recorded)
    (hsaved : db'.saved = db.saved)
    (hcontents : db.contents.KeepsBranches db'.contents) :
    db'.Secures earlier := by
  obtain ⟨-, hcommitted, hnow⟩ := h
  unfold Database.committed at hcommitted hnow
  cases hdb : db.saved with
  | none =>
      rw [hdb] at hcommitted hsaved
      refine ⟨hrecorded, ?_, ?_⟩ <;> rw [Database.committed, hsaved]
      · exact hcommitted.trans hcontents
      · exact .refl _
  | some c =>
      rw [hdb] at hcommitted hnow hsaved
      refine ⟨hrecorded, ?_, ?_⟩ <;> rw [Database.committed, hsaved]
      · exact hcommitted
      · exact hnow.trans hcontents

theorem began (h : db.Secures earlier) :
    ((Session.beginTransaction.run db).2 : Database).Secures earlier := by
  refine ⟨h.recorded.began, ?_, ?_⟩ <;> rw [run_begin] <;> split
  · exact h.committed
  · exact h.committed.trans h.now
  · exact h.now
  · exact .refl _

theorem committed_transaction (h : db.Secures earlier) :
    ((Session.commit.run db).2 : Database).Secures earlier := by
  refine ⟨h.recorded.committed, ?_, ?_⟩ <;> rw [run_commit] <;> split
  · exact h.committed
  · exact h.committed.trans h.now
  · exact h.now
  · exact .refl _

theorem undone (h : db.Secures earlier) :
    ((Session.rollback.run db).2 : Database).Secures earlier := by
  obtain ⟨hcontents, hsaved⟩ := contents_rollback db
  refine ⟨h.recorded.undone, ?_, ?_⟩ <;> rw [Database.committed, hsaved] <;>
    simp only [Option.getD_none]
  · rw [hcontents]
    exact h.committed
  · exact .refl _

end Secures

end Database

section Stores

variable {σ ω α : Type} [Backed σ]

def World.committed (w : World σ ω) : Contents := w.database.committed

/-- The states to which adapters lead from a state; in between the session may
change, as long as its database stays as it is. -/
inductive Later (w : World σ ω) : World σ ω → Prop where
  | now : Later w w
  | run {v : World σ ω} {α : Type} {m : Action σ ω α} (h : Later w v)
      (hm : Program Operation m) :
      Later w (m.exec v).2
  | entered {v : World σ ω} (h : Later w v) (op entity : String) :
      Later w (Store.entered op entity
        (Session.beginTransaction.run v.store.session).2 v)
  | aside {v v' : World σ ω} (h : Later w v)
      (hdatabase : v'.database = v.database) : Later w v'

theorem Acts.secures {s : Script.Subject} {m : Action σ ω α}
    (h : Acts (Licensed s) α m) {earlier : Contents} (w : World σ ω)
    (hw : w.database.Secures earlier) :
    (m.exec w).2.database.Secures earlier := by
  cases h with
  | plain h =>
      have htouched := h.touched w
      exact hw.advance (hw.recorded.touched htouched htouched.recorded)
        htouched.saved_eq (htouched.keepsBranches hw.recorded.now.laid)
  | @issue t params h =>
      refine keeps_of_mirrors (P := Database.Secures earlier)
        (Backed.execute_mirrors t params) (fun {db} hdb => ?_) w hw
      have htouched : Touched AdapterStatement db _ :=
        .executed h.issued.adapterStatement params
      refine hdb.advance (hdb.recorded.touched htouched fun hnow => ?_)
        htouched.saved_eq ?_
      all_goals
        obtain hsame | ⟨n, contents, hchange, hafter⟩ :=
          contents_execute t params db
      · rwa [hsame]
      · rw [hafter]
        exact hnow.change h.issued hchange
      · rw [hsame]
        exact .refl _
      · rw [hafter]
        exact .of_change hdb.recorded.now.laid h hchange

theorem Program.secures_of_acts {s : Script.Subject} {m : Action σ ω α}
    (h : Program (Acts (Licensed s)) m)
    {earlier : Contents} (w : World σ ω) (hw : w.database.Secures earlier) :
    (m.exec w).2.database.Secures earlier :=
  h.keeps_database Secures.began Secures.committed_transaction Secures.undone
    (fun hm u => hm.secures u) w hw

theorem Operation.secures {m : Action σ ω α} (h : Operation α m)
    {earlier : Contents} (w : World σ ω) (hw : w.database.Secures earlier) :
    (m.exec w).2.database.Secures earlier := by
  cases h with
  | createScheme s => exact s.createScheme_acts.secures_of_acts w hw
  | createIndexes s =>
      exact (s.createIndexes_acts Licensed.createIndex).secures_of_acts w hw
  | save s batch | updateAll s batch =>
      exact ((s.submit_acts _ _ batch).acts .edit).secures_of_acts w hw
  | deleteAll s batch =>
      exact ((s.deleteAll_acts batch).acts .edit).secures_of_acts w hw
  | edit s h =>
      exact ((Program.basic h).acts Licensed.edit).secures_of_acts w hw
  | aside f hdatabase =>
      change (Backed.database (f w.store.session)).Secures earlier
      rwa [hdatabase]
  | reading h =>
      have htouched := h.touched w
      have hcontents := htouched.contents_eq
      refine hw.advance (hw.recorded.touched htouched fun hnow => ?_)
        htouched.saved_eq ?_
      · rwa [hcontents]
      · rw [hcontents]
        exact .refl _

theorem Program.secures {m : Action σ ω α} (h : Program Operation m)
    {earlier : Contents} (w : World σ ω) (hw : w.database.Secures earlier) :
    (m.exec w).2.database.Secures earlier :=
  h.keeps_database Secures.began Secures.committed_transaction Secures.undone
    (fun hm u => hm.secures u) w hw

theorem Later.secures {w w' : World σ ω} (h : Later w w') {earlier : Contents}
    (hw : w.database.Secures earlier) : w'.database.Secures earlier := by
  induction h with
  | now => exact hw
  | run _ hm ih => exact hm.secures _ ih
  | @entered v _ op entity ih =>
      exact keeps_of_mirrors (P := Database.Secures earlier)
        Backed.begin_mirrors Secures.began v ih
  | aside _ hdatabase ih => rwa [hdatabase]

/-- In the midst of a transaction, too, nothing that is committed is missing. -/
theorem Reached.secures {w : World σ ω} (h : Reached w) :
    w.database.Secures w.database.committed := by
  have hempty : w.database.Secures {} := by
    induction h with
    | start hdatabase =>
        rw [hdatabase]
        exact ⟨⟨recorded_empty, fun c hc => by cases hc⟩, .refl _, .refl _⟩
    | run _ hm ih => exact hm.secures _ ih
    | @entered v _ op entity ih =>
        exact keeps_of_mirrors (P := Database.Secures {}) Backed.begin_mirrors
          Secures.began v ih
    | aside _ hdatabase ih => rwa [hdatabase]
  exact ⟨hempty.recorded, .refl _, hempty.now⟩

end Stores

namespace Branch

section Refusals

variable {σ ω : Type} [Session σ]

/-- A call ends in a refusal, and the store is as before: nothing was asked of
its session, and nothing was reported. -/
def Refuses {α : Type} (w : World σ ω) (m : Action σ ω α)
    (c : Capability) : Prop :=
  m.exec w = (.error (.failed (Failure.unsupported c.name entityName)), w)

/-- A batch is refused, and its records stay as they are. -/
def RefusesBatch (w : World σ ω)
    (submit : List Branch → Action σ ω (Written Branch))
    (batch : List Branch) : Prop :=
  (submit batch).exec w =
    (.ok
      { outcome := .error
          (.failed (Failure.unsupported Capability.update.name entityName)),
        batch }, w)

theorem refusesBatch_of_requireAll {w : World σ ω} {needed : List Capability}
    {op : String} (h : adapter.requireAll needed =
      .error (Failure.unsupported Capability.update.name entityName))
        (batch : List Branch) :
    RefusesBatch w (adapter.submit needed op) batch := by
  unfold RefusesBatch Adapter.submit
  rw [h]
  rfl

theorem refusesBatch_updateAll (w : World σ ω) (batch : List Branch) :
    RefusesBatch w adapter.updateAll batch := by
  apply refusesBatch_of_requireAll
  split <;> rfl

theorem refusesBatch_save (w : World σ ω) {batch : List Branch}
    (h : ∃ b ∈ batch, (Record.id? b).isSome) :
    RefusesBatch w adapter.save batch := by
  have hany : batch.any Record.isPersisted = true := List.any_eq_true.mpr h
  apply refusesBatch_of_requireAll
  rw [if_pos hany]
  rfl

end Refusals

/-- Branches are only added.  The row of a branch that has been committed is
there ever after, with the same cells, whatever adapters do and whatever calls
fail.  To update or delete branches, to make indexes for them, and to save a
batch in which some branch has an identifier is refused at once. -/
theorem append_only {σ ω : Type} [Backed σ] {w w' : World σ ω} (hw : Reached w)
    (h : Later w w') :
    (∀ key cells, w.committed.cells? branches.name key = some cells →
      w'.committed.cells? branches.name key = some cells ∧
        w'.contents.cells? branches.name key = some cells) ∧
    ∀ (v : World σ ω) (batch : List Branch),
      RefusesBatch v adapter.updateAll batch ∧
      ((∃ b ∈ batch, (Record.id? b).isSome) →
        RefusesBatch v adapter.save batch) ∧
      Refuses v (adapter.deleteAll batch) .delete ∧
      (∀ b, Refuses v (adapter.deleteOne b) .delete) ∧
      Refuses v adapter.createIndexes .createIndexes := by
  have hsecures := h.secures hw.secures
  constructor
  · intro key cells hcells
    have hcommitted := hsecures.committed key cells hcells
    exact ⟨hcommitted, hsecures.now key cells hcommitted⟩
  · intro v batch
    exact ⟨refusesBatch_updateAll v batch, refusesBatch_save v, rfl,
      fun _ => rfl, rfl⟩

def trunk : Branch := { name := "trunk", createdAt := .ofEpochNanos 5 }

def planted : World Database Unit :=
  ((do adapter.createScheme; adapter.save [trunk] :
    Action Database Unit (Written Branch)).exec
    { store := Store.ofSession {} {}, memory := () }).2

theorem reached_planted : Reached planted := by
  have hplanting : Program Operation
      (do adapter.createScheme; adapter.save [trunk] :
        Action Database Unit (Written Branch)) :=
    (Program.basic (.createScheme .branch)).andThen fun _ =>
      .basic (.save .branch [trunk])
  exact (Reached.start rfl).run hplanting

/-- Another branch is added, and then both are submitted again. -/
theorem append_only_planted :
    Reached planted ∧
      ∃ w', Later planted w' ∧
        w'.contents.cells? branches.name 1 =
          some [.text "trunk", .integer 5, .null] ∧
        RefusesBatch w' adapter.save
          [{ trunk with ident := .ofValue 1 }, trunk] := by
  have hlater : Later planted ((adapter.save [trunk]).exec planted).2 :=
    Later.now.run (.basic (.save .branch [trunk]))
  obtain ⟨hkept, hrefused⟩ := append_only reached_planted hlater
  refine ⟨reached_planted, _, hlater, ?_, ?_⟩
  · exact (hkept 1 _ (by decide +kernel)).2
  · exact (hrefused _ _).2.1 ⟨{ trunk with ident := .ofValue 1 },
      List.mem_cons_self, rfl⟩

end Branch

end Annals
