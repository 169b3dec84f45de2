import Annals.Proofs.Loading
import Annals.Proofs.Integrity
import Annals.Proofs.Plans
import Mathlib.Data.List.Dedup

namespace Annals

open Annals.Log Annals.Sql Annals.Database Annals.Database.Contents

namespace Script.Subject

def hasRow (s : Subject) (c : Contents) (id : EntityId) : Bool :=
  (c.cells? s.series.table.name id.value).isSome

/-- The rows that go away with some records.  Branches stay. -/
def gone (s : Subject) (ids : List EntityId) (t : StoredTable)
    (r : StoredRow) : Bool :=
  match s with
  | commit => t.name = commits.name && ids.any (·.value = r.key)
  | branch => false
  | identity =>
    (t.name = identities.name && ids.any (·.value = r.key)) ||
      (t.name = identityAliases.name &&
        ids.any fun id => (t.cell r Alias.ownerColumn).equals id.value)

theorem gone_nil (s : Subject) (t : StoredTable) (r : StoredRow) :
    s.gone [] t r = false := by
  cases s <;> simp [gone]

theorem gone_cons (s : Subject) (id : EntityId) (ids : List EntityId)
    (t : StoredTable) (r : StoredRow) : s.gone (id :: ids) t r =
      (s.gone [id] t r || s.gone ids t r) := by
  cases s with
  | commit => simp [gone, Bool.and_or_distrib_left]
  | branch => rfl
  | identity =>
      simp only [gone, List.any_cons, List.any_nil, Bool.or_false,
        Bool.and_or_distrib_left]
      ac_rfl

theorem gone_congr (s : Subject) (ids : List EntityId) {t t' : StoredTable}
    (h : t'.blank = t.blank) (r : StoredRow) :
    s.gone ids t' r = s.gone ids t r := by
  have hname : t'.name = t.name := StoredTable.name_eq_of_blank (b := t.blank) h
  have hcell : t'.cell r Alias.ownerColumn = t.cell r Alias.ownerColumn :=
    StoredTable.cell_eq_of_blank (b := t.blank) h r _
  unfold gone
  rw [hname, hcell]

/-- The contents are as before without the rows that go away with some
records. -/
structure Without (s : Subject) (ids : List EntityId)
    (c c' : Contents) : Prop where
  schema : c'.schema = c.schema
  tables : ∀ name, c'.table? name = (c.table? name).map fun t =>
    t.remove (s.gone ids t)

theorem Without.nil (s : Subject) (c : Contents) : s.Without [] c c := by
  refine ⟨rfl, fun name => ?_⟩
  have hall : ∀ t : StoredTable, t.remove (s.gone [] t) = t := by
    intro t
    simp [StoredTable.remove, gone_nil]
  simp [hall]

theorem remove_gone (s : Subject) (id : EntityId) (ids : List EntityId)
    (t : StoredTable) :
    (t.remove (s.gone [id] t)).remove (s.gone ids (t.remove (s.gone [id] t))) =
      t.remove (s.gone (id :: ids) t) := by
  have hboth : ∀ r,
      (!s.gone ids (t.remove (s.gone [id] t)) r && !s.gone [id] t r) =
      !s.gone (id :: ids) t r := by
    intro r
    rw [s.gone_congr ids (StoredTable.blank_remove t _), s.gone_cons id ids,
      Bool.not_or, Bool.and_comm]
  simp only [StoredTable.remove, List.filter_filter] at hboth ⊢
  rw [List.filter_congr fun r _ => hboth r]

theorem Without.cons {s : Subject} {id : EntityId} {ids : List EntityId}
    {c c' c'' : Contents} (h : s.Without [id] c c')
    (h' : s.Without ids c' c'') : s.Without (id :: ids) c c'' := by
  refine ⟨h'.schema.trans h.schema, fun name => ?_⟩
  rw [h'.tables, h.tables, Option.map_map]
  congr 1
  funext t
  exact s.remove_gone id ids t

end Script.Subject

namespace Database.Contents

variable {c c' : Contents}

theorem schema_put (c : Contents) (t : StoredTable) :
    (c.put t).schema = c.schema := by
  have hnames : ∀ other : StoredTable,
      (if other.name = t.name then t else other).name = other.name := by
    intro other
    split
    case isTrue h => exact h.symm
    case isFalse => rfl
  unfold put schema
  simp only [List.map_map, Prod.mk.injEq, and_true]
  exact List.map_congr_left fun other _ => hnames other

theorem table?_congr {name other : String} (h : sameName name other = true) :
    c.table? name = c.table? other := by
  have hlower : name.toList.map Char.toLower =
      other.toList.map Char.toLower := by
    simpa [sameName] using h
  unfold table? sameName
  rw [hlower]

theorem table?_name {name : String} {t : StoredTable}
    (h : c.table? name = some t) :
    c.table? t.name = some t := by
  have hsame : sameName t.name name = true := by simpa using List.find?_some h
  rw [table?_congr hsame, h]

namespace Laid

variable (hc : c.Laid) {table : Table} {column : String} {values : List Value}
    {n : Nat}
include hc

theorem delete_tables (htable : table ∈ storeTables)
    (h : c.delete table.name column values = .ok (n, c')) :
    c'.Laid ∧ c'.schema = c.schema ∧ ∀ name, c'.table? name =
      (c.table? name).map fun t =>
        if t.name = table.name then t.remove (hits t column values) else t := by
  refine ⟨(delete_rewritten h).laid hc, ?_⟩
  obtain ⟨t, ht, -, rfl⟩ := delete_eq_ok h
  have hname : t.name = table.name :=
    (StoredTable.name_eq_of_blank
      (hc.ofTable_eq (mem_layouts table htable) ht)).trans (ofTable_name table)
  refine ⟨schema_put _ _, fun name => ?_⟩
  rw [table?_put]
  cases hu : c.table? name with
  | none => rfl
  | some u =>
      change some (if u.name = t.name then _ else u) = _
      rw [hname]
      simp only [Option.map_some]
      split
      case isFalse => rfl
      case isTrue heq =>
        have hsame := table?_name hu
        rw [heq, ht] at hsame
        cases hsame
        rfl

end Laid

theorem hits_key {table : Table} (htable : table ∈ storeTables)
    {t : StoredTable} (ht : t.blank = .ofTable table) (id : EntityId)
    (r : StoredRow) :
    hits t table.keyName [Value.ofId id] r = decide (r.key = id.value) := by
  have hkey : ∀ table ∈ storeTables,
      (StoredTable.ofTable table).isKeyColumn table.keyName = true := by decide
  have hcell : t.cell r table.keyName = .integer r.key := by
    rw [StoredTable.cell_eq_of_blank ht]
    exact if_pos (hkey table htable)
  change (t.cell r table.keyName).equals id.value = _
  rw [hcell, Cell.integer_equals]

end Database.Contents

namespace Script.Subject

variable {c c' : Contents} {id : EntityId} {n : Nat}

/-- How many rows of the table of records go away with some records. -/
def loss (s : Subject) (ids : List EntityId) (c : Contents) : Nat :=
  ((c.table? s.series.table.name).map fun t =>
    (t.rows.filter (s.gone ids t)).length).getD 0

theorem gone_main {s : Subject} (hs : s ≠ .branch) {t : StoredTable}
    (hname : t.name = s.series.table.name) (ids : List EntityId)
    (r : StoredRow) :
    s.gone ids t r = ids.any (·.value = r.key) := by
  cases s with
  | commit => simp [gone, hname, series, Series.table]
  | branch => exact absurd rfl hs
  | identity =>
      have hne : identities.name ≠ identityAliases.name := by decide
      simp [gone, hname, series, Series.table, hne]

theorem hits_main {s : Subject} (hs : s ≠ .branch) (hc : c.Laid)
    {t : StoredTable} (ht : c.table? s.series.table.name = some t)
    (id : EntityId) :
    t.name = s.series.table.name ∧
      hits t s.series.table.keyName [Value.ofId id] = s.gone [id] t := by
  have hblank := hc.ofTable_eq (mem_layouts _ s.series.table_mem) ht
  have hname :=
    (StoredTable.name_eq_of_blank hblank).trans (ofTable_name s.series.table)
  refine ⟨hname, ?_⟩
  funext r
  rw [hits_key s.series.table_mem hblank, gone_main hs hname]
  simp [eq_comm]

theorem loss_of_delete {s : Subject} (hs : s ≠ .branch) (hc : c.Laid)
    (h : c.delete s.series.table.name s.series.table.keyName [Value.ofId id] =
      .ok (n, c')) :
    n = s.loss [id] c := by
  obtain ⟨t, ht, hn, -⟩ := delete_eq_ok h
  unfold loss
  rw [hn, ht, (hits_main hs hc ht id).2]
  rfl

theorem without_commit (hc : c.Laid)
    (h : c.delete commits.name commits.keyName [Value.ofId id] = .ok (n, c')) :
    c'.Laid ∧ commit.Without [id] c c' ∧ n = commit.loss [id] c := by
  have hcommit : commit ≠ .branch := by decide
  obtain ⟨hlaid, hschema, htables⟩ := hc.delete_tables (by decide) h
  refine ⟨hlaid, ⟨hschema, fun name => ?_⟩, loss_of_delete hcommit hc h⟩
  rw [htables]
  cases ht : c.table? name with
  | none => rfl
  | some t =>
      simp only [Option.map_some]
      split
      case isTrue hname =>
        rw [← (hits_main hcommit hc (hname ▸ table?_name ht) id).2]; rfl
      case isFalse hname => simp [StoredTable.remove, gone, hname]

theorem without_identity {c₁ : Contents} {m : Nat} (hc : c.Laid)
    (h : c.delete identityAliases.name Alias.ownerColumn [Value.ofId id] =
      .ok (m, c₁))
    (h' : c₁.delete identities.name identities.keyName [Value.ofId id] =
      .ok (n, c')) :
    c'.Laid ∧ identity.Without [id] c c' ∧ n = identity.loss [id] c := by
  have hidentity : identity ≠ .branch := by decide
  have hne : identityAliases.name ≠ identities.name := by decide
  obtain ⟨hlaid₁, hschema₁, htables₁⟩ := hc.delete_tables (by decide) h
  obtain ⟨hlaid, hschema, htables⟩ := hlaid₁.delete_tables (by decide) h'
  refine ⟨hlaid, ⟨hschema.trans hschema₁, fun name => ?_⟩, ?_⟩
  · rw [htables, htables₁]
    cases ht : c.table? name with
    | none => rfl
    | some t =>
        have ht := table?_name ht
        simp only [Option.map_some]
        by_cases halias : t.name = identityAliases.name
        · have hgone : hits t Alias.ownerColumn [Value.ofId id] =
              identity.gone [id] t := by
            funext r
            simp [gone, halias, hne]
            rfl
          have hother : ¬(t.remove (identity.gone [id] t)).name =
              identities.name :=
            fun hmain => hne (halias.symm.trans hmain)
          rw [if_pos halias, hgone, if_neg hother]
        · rw [if_neg halias]
          split
          case isTrue hmain =>
            rw [hmain] at ht
            have ht₁ : c₁.table? identities.name = some t := by
              rw [htables₁, ht, Option.map_some, if_neg halias]
            rw [← (hits_main hidentity hlaid₁ ht₁ id).2]
            rfl
          case isFalse hmain => simp [StoredTable.remove, gone, halias, hmain]
  · have hmain : c₁.table? identities.name = c.table? identities.name :=
      table?_of_rewritten (delete_rewritten h) hc (by decide) (by decide)
        (by decide)
    rw [loss_of_delete hidentity hlaid₁ h']
    unfold loss
    rw [show c₁.table? identity.series.table.name = _ from hmain]
    rfl

theorem loss_nil (s : Subject) (c : Contents) : s.loss [] c = 0 := by
  unfold loss
  cases c.table? s.series.table.name with
  | none => rfl
  | some t => simp [gone_nil]

theorem Without.loss_cons {s : Subject} (h : s.Without [id] c c')
    (ids : List EntityId) :
    s.loss (id :: ids) c = s.loss [id] c + s.loss ids c' := by
  unfold loss
  rw [h.tables]
  cases c.table? s.series.table.name with
  | none => rfl
  | some t =>
      have hsplit := List.length_eq_length_filter_add
        (l := t.rows.filter (s.gone (id :: ids) t)) (s.gone [id] t)
      have hfirst : ∀ r,
          (s.gone [id] t r && s.gone (id :: ids) t r) = s.gone [id] t r := by
        intro r
        rw [s.gone_cons id ids]
        cases s.gone [id] t r <;> simp
      have hothers : ∀ r, (!s.gone [id] t r && s.gone (id :: ids) t r) =
          (s.gone ids (t.remove (s.gone [id] t)) r && !s.gone [id] t r) := by
        intro r
        rw [s.gone_cons id ids, s.gone_congr ids (StoredTable.blank_remove t _)]
        cases s.gone [id] t r <;> simp
      simp only [List.filter_filter, hfirst, hothers] at hsplit
      simpa [StoredTable.remove, List.filter_filter] using hsplit

theorem hasRow_iff {s : Subject} {t : StoredTable}
    (ht : c.table? s.series.table.name = some t)
    (id : EntityId) : s.hasRow c id = true ↔ ∃ r ∈ t.rows,
      r.key = id.value := by
  unfold hasRow
  rw [cells?_eq_of_table ht, Option.isSome_map]
  simp [StoredTable.row?]

/-- As many rows go away as identifiers are stored, if each of these is counted
once. -/
theorem loss_eq {s : Subject} (hs : s ≠ .branch) (hc : c.Orderly)
    (ids : List EntityId) :
    s.loss ids c = (ids.filter (s.hasRow c)).dedup.length := by
  unfold loss
  cases ht : c.table? s.series.table.name with
  | none =>
      have hnone : s.hasRow c = fun _ => false := by
        funext id
        simp [hasRow, cells?, ht]
      simp [hnone]
  | some t =>
      have hname := (hits_main hs hc.laid ht ⟨1, by decide⟩).1
      have hkeys : (t.rows.map StoredRow.key).Nodup :=
        (hc.ordered t (mem_of_table? ht)).imp fun hlt => Int64.ne_of_lt hlt
      have hrows : ((t.rows.filter (s.gone ids t)).map StoredRow.key).Nodup :=
        hkeys.sublist (List.filter_sublist.map StoredRow.key)
      have hids : ((ids.filter (s.hasRow c)).dedup.map EntityId.value).Nodup :=
        (List.nodup_dedup _).map fun _ _ => EntityId.value_inj.mp
      -- the keys of the rows that go away are the identifiers that are stored
      have hperm := (List.perm_ext_iff_of_nodup hrows hids).mpr (by
        intro key
        simp only [List.mem_map, List.mem_filter, List.mem_dedup,
          gone_main hs hname, hasRow_iff ht, List.any_eq_true,
          decide_eq_true_eq]
        constructor
        · rintro ⟨r, ⟨hr, id, hid, hvalue⟩, rfl⟩
          exact ⟨id, ⟨hid, r, hr, hvalue.symm⟩, hvalue⟩
        · rintro ⟨id, ⟨hid, r, hr, hkey⟩, rfl⟩
          exact ⟨r, ⟨hr, id, hid, hkey.symm⟩, hkey⟩)
      simpa using hperm.length_eq

section Removing

variable {σ ω : Type} [Backed σ] {u v : World σ ω}

theorem removeOne_exact {s : Subject} (hs : s ≠ .branch) (hu : u.contents.Laid)
    (h : (s.adapter.removeOne id).exec u = (.ok n, v)) :
    v.contents.Laid ∧ s.Without [id] u.contents v.contents ∧
    n = s.loss [id] u.contents := by
  obtain ⟨affected, u', hdelete, h⟩ := Action.exec_bind_eq_ok.mp h
  change (if affected ≤ 1 then _ else _ : Action σ ω Nat).exec u' = _ at h
  split at h
  case isFalse => cases h
  case isTrue =>
    cases h
    cases s with
    | commit =>
        obtain ⟨_, hchange⟩ := change_of_execute hdelete
        exact without_commit hu hchange
    | branch => exact absurd rfl hs
    | identity =>
        obtain ⟨⟨⟩, u', haliases, hrow⟩ := Action.exec_bind_eq_ok.mp hdelete
        obtain ⟨m, haliases⟩ := Store.exec_perform_eq_ok.mp haliases
        obtain ⟨_, haliases⟩ := change_of_execute haliases
        obtain ⟨_, hrow⟩ := change_of_execute hrow
        exact without_identity hu haliases hrow

theorem removeEach_exact {s : Subject} (hs : s ≠ .branch) {ids : List EntityId}
    {counts : List Nat} (hu : u.contents.Laid)
    (h : (ids.mapM s.adapter.removeOne).exec u = (.ok counts, v)) :
    s.Without ids u.contents v.contents ∧
      ∀ before, counts.foldl (· + ·) before =
        before + s.loss ids u.contents := by
  induction ids generalizing u counts with
  | nil =>
      cases h
      exact ⟨.nil s _, fun before => by rw [s.loss_nil]; rfl⟩
  | cons id ids ih =>
      obtain ⟨n, u', rest, hone, hrest, rfl⟩ := Action.exec_mapM_cons_eq_ok.mp h
      obtain ⟨hu', hwithout, hn⟩ := removeOne_exact hs hu hone
      obtain ⟨hwithout', hsum⟩ := ih hu' hrest
      refine ⟨hwithout.cons hwithout', fun before => ?_⟩
      rw [List.foldl_cons, hsum, hn, hwithout.loss_cons ids, Nat.add_assoc]

end Removing

end Script.Subject

namespace Adapter

variable {α σ ω : Type} [Record α]

/-- The warnings about the records of a batch that were never stored. -/
def skips (a : Adapter α) (batch : List α) : List Event :=
  (batch.filter fun r => (Record.id? r).isNone).map fun r =>
    .skipped component Capability.delete.name a.entity (Record.idValue r)
      neverSaved

def refusal (a : Adapter α) (r : α) : Failure :=
  ((Failure.invalidArgument Capability.delete.name neverSaved).withEntity
    a.entity).withEntityId (Record.idValue r).toInt

/-- What a deletion makes of one record under a policy. -/
def pick (a : Adapter α) (policy : DeletePolicy) (r : α) :
    Action σ ω (Option EntityId) :=
  match Record.id? r, policy with
  | some id, _ => return some id
  | none, .logAndSkip => do
    Store.report (.skipped component Capability.delete.name a.entity
      (Record.idValue r) neverSaved)
    return none
  | none, .reject => Action.fail (a.refusal r)

theorem exec_pick_stored {a : Adapter α} {r : α} {id : EntityId}
    (hid : Record.id? r = some id) (policy : DeletePolicy) (w : World σ ω) :
    (a.pick policy r).exec w = (.ok (some id), w) := by
  unfold pick
  rw [hid]
  rfl

theorem exec_pick_each {a : Adapter α} {policy : DeletePolicy} {batch : List α}
    (h : policy = .logAndSkip ∨ ∀ r ∈ batch, (Record.id? r).isSome)
    (w : World σ ω) :
    (batch.mapM (a.pick policy)).exec w =
      (.ok (batch.map Record.id?), w.noting (a.skips batch)) := by
  induction batch generalizing w with
  | nil => exact (congrArg (Prod.mk _) w.noting_nil).symm
  | cons r batch ih =>
      have hrest :=
        ih (h.imp_right fun hall x hx => hall x (List.mem_cons_of_mem r hx))
      cases hid : Record.id? r with
      | some id =>
          rw [List.mapM_cons,
            Action.exec_bind_ok (exec_pick_stored hid policy w),
            Action.exec_bind_ok (hrest w)]
          simp [skips, hid]
      | none =>
          have hpolicy : policy = .logAndSkip := by
            refine h.resolve_right fun hall => ?_
            simpa [hid] using hall r List.mem_cons_self
          have hskip : (a.pick policy r).exec w =
              (.ok none, w.noting (a.skips [r])) := by
            unfold pick
            simp only [hid, hpolicy, skips, List.filter_cons, List.filter_nil]
            rfl
          rw [List.mapM_cons, Action.exec_bind_ok hskip,
            Action.exec_bind_ok (hrest _)]
          simp [skips, hid, World.noting]

theorem exec_pick_refused {a : Adapter α} {batch : List α} {r : α}
    (w : World σ ω)
    (hr : batch.find? (fun r => (Record.id? r).isNone) = some r) :
    (batch.mapM (a.pick .reject)).exec w =
      (.error (.failed (a.refusal r)), w) := by
  obtain ⟨hid, front, back, rfl, hfront⟩ := List.find?_eq_some_iff_append.mp hr
  have hsaved : ∀ x ∈ front, (Record.id? x).isSome := by
    intro x hx
    simpa [Option.isSome_iff_ne_none] using hfront x hx
  have hnone : a.skips front = [] := by
    simpa [skips, Option.isSome_iff_ne_none] using hsaved
  have hfirst : (front.mapM (a.pick .reject)).exec w =
      (.ok (front.map Record.id?), w.noting (a.skips front)) :=
    exec_pick_each (.inr hsaved) w
  rw [hnone, World.noting_nil] at hfirst
  refine Action.exec_mapM_stopped hfirst ?_ back
  unfold pick
  rw [Option.isNone_iff_eq_none.mp hid]
  rfl

section Identifiers

variable {a : Adapter α} {batch : List α} {w : World σ ω}

theorem storedIds_eq (a : Adapter α) (batch : List α) :
    (a.storedIds batch : Action σ ω (List EntityId)) = do
      let policy ← Store.see (·.options.deletePolicy)
      return (← batch.mapM (a.pick policy)).filterMap id := rfl

theorem exec_storedIds
    (h : w.store.options.deletePolicy = .logAndSkip ∨
      ∀ r ∈ batch, (Record.id? r).isSome) :
    (a.storedIds batch).exec w =
      (.ok (batch.filterMap Record.id?), w.noting (a.skips batch)) := by
  rw [storedIds_eq, Action.exec_bind_ok (Store.exec_see _ _),
    Action.exec_bind_ok (exec_pick_each h w),
    Action.exec_pure, List.filterMap_map, Function.id_comp]

theorem exec_storedIds_refused {r : α}
    (hpolicy : w.store.options.deletePolicy = .reject)
    (hr : batch.find? (fun r => (Record.id? r).isNone) = some r) :
    (a.storedIds batch).exec w = (.error (.failed (a.refusal r)), w) := by
  rw [storedIds_eq, Action.exec_bind_ok (Store.exec_see _ _), hpolicy]
  exact Action.exec_bind_error (exec_pick_refused w hr) _

end Identifiers

end Adapter

/-- At most one row may go away with the identifier of a record. -/
def Adapter.atMostOne {α : Type} (a : Adapter α) (id : EntityId)
    (affected : Nat) :
    Except Failure Nat :=
  if affected ≤ 1 then .ok affected
  else
    .error ((Failure.consistencyViolation "delete" a.entity
      ("identifier " ++ toString id.value ++ " removed " ++ toString affected ++
        " rows")).withEntityId id.value.toInt)

namespace Script.Subject

variable {σ ω : Type}

/-- The steps by which a record is removed: an identity loses its aliases before
its row. -/
def removal (s : Subject) (id : EntityId) : List PlanStep :=
  let row : PlanStep :=
    .execute (.delete s.series.table s.series.table.keyName)
      (.ok [Value.ofId id])
      fun n => (s.adapter.atMostOne id n).map fun _ => ()
  match s with
  | commit => [row]
  | branch => []
  | identity =>
    [.execute (.delete identityAliases Alias.ownerColumn) (.ok [Value.ofId id])
      anyCount, row]

theorem removeOne_eq [Session σ] (s : Subject) (id : EntityId) :
    (s.adapter.removeOne id : Action σ ω Nat) =
      s.adapter.delete id >>= fun n =>
        Action.ofExcept (s.adapter.atMostOne id n) := by
  unfold Adapter.removeOne
  refine bind_congr fun n => ?_
  unfold Adapter.atMostOne
  split
  · rfl
  · rfl

theorem keepsTo_row [Session σ] (s : Subject) (id : EntityId) :
    KeepsTo (Store.execute (.delete s.series.table s.series.table.keyName)
      [Value.ofId id] >>= fun n =>
        Action.ofExcept (s.adapter.atMostOne id n) : Action (Traced σ) ω Nat)
          (fun _ => True) fun _ =>
      [.execute (.delete s.series.table s.series.table.keyName)
        (.ok [Value.ofId id])
        fun n => (s.adapter.atMostOne id n).map fun _ => ()] :=
  KeepsTo.answered 0 (fun _ _ h => .execute (by rw [h]; rfl))
    (fun _ _ h => .unaccepted (by rw [h]; rfl)) fun _ => .unexecuted

theorem keepsTo_removeOne [Session σ] {s : Subject} (hs : s ≠ .branch)
    (id : EntityId) :
    KeepsTo (s.adapter.removeOne id : Action (Traced σ) ω Nat)
      (fun _ => True) fun _ =>
      s.removal id := by
  rw [removeOne_eq]
  cases s with
  | commit => exact keepsTo_row .commit id
  | branch => exact absurd rfl hs
  | identity =>
      have hdelete : (Script.Subject.identity.adapter.delete id :
          Action (Traced σ) ω Nat) =
          Store.send (.delete identityAliases Alias.ownerColumn)
            (.ok [Value.ofId id]) anyCount >>=
            fun _ => Store.execute (.delete identities identities.keyName)
              [Value.ofId id] := by
        rw [← Store.perform_eq_send]
        rfl
      rw [hdelete, bind_assoc]
      refine (KeepsTo.send _ _ _).bind (fun _ _ => keepsTo_row .identity id) ?_
      exact fun _ _ _ _ => ⟨trivial, rfl⟩

def removeAll [Session σ] (s : Subject) (ids : List EntityId) :
    Action σ ω Nat := do
  return (← ids.mapM s.adapter.removeOne).foldl (· + ·) 0

theorem keepsTo_removeAll [Session σ] {s : Subject} (hs : s ≠ .branch)
    (ids : List EntityId) :
    KeepsTo (s.removeAll ids : Action (Traced σ) ω Nat) (fun _ => True) fun _ =>
      ids.flatMap s.removal := by
  have hplan : ∀ {counts : List Nat},
      List.Forall₂ (fun _ _ => True) ids counts →
      ids.flatMap s.removal =
        (List.zipWith (fun id _ => s.removal id) ids counts).flatten := by
    intro counts hcounts
    induction hcounts with
    | nil => rfl
    | cons _ _ ih =>
        rw [List.flatMap_cons, ih, List.zipWith_cons_cons, List.flatten_cons]
  refine (KeepsTo.mapM fun id _ => keepsTo_removeOne hs id).bind_pure _
    fun counts hcounts => ?_
  exact ⟨trivial, hplan hcounts⟩

end Script.Subject

def Unskipped (es : List Event) : Prop := ∀ e ∈ es, e.stage ≠ .skipped

namespace Unskipped

theorem append {es es' : List Event} (h : Unskipped es) (h' : Unskipped es') :
    Unskipped (es ++ es') := List.forall_mem_append.mpr ⟨h, h'⟩

theorem opening (op entity : String) :
    Unskipped [Store.openingEvent op entity] := by
  intro e he hstage
  rw [List.mem_singleton.mp he] at hstage
  cases hstage

theorem closing {α : Type} (op entity : String) (outcome : Except Stop α) :
    Unskipped (Store.closingEvent op entity outcome) := by
  intro e he hstage
  rcases outcome with (f | _) | a
  · rw [List.mem_singleton.mp he] at hstage
    cases hstage
  · cases he
  · rw [List.mem_singleton.mp he] at hstage
    cases hstage

theorem undoing (op : String) (cause : Failure) (answer : Except Failure Unit) :
    Unskipped (Store.undoingEvents op cause answer) := by
  intro e he hstage
  rcases answer with f | _
  · rw [List.mem_singleton.mp he] at hstage
    cases hstage
  · cases he

end Unskipped

def Quiet {σ ω α : Type} (m : Action σ ω α) : Prop :=
  ∀ w, (m.exec w).2.store.events = w.store.events

namespace Quiet

variable {σ ω α β : Type}

theorem bind {m : Action σ ω α} {k : α → Action σ ω β} (hm : Quiet m)
    (hk : ∀ a, Quiet (k a)) :
    Quiet (m >>= k) := by
  intro w
  have hfirst := hm w
  rcases hrun : m.exec w with ⟨stop | a, w'⟩
  · rw [Action.exec_bind_error hrun]
    rwa [hrun] at hfirst
  · rw [Action.exec_bind_ok hrun, hk a w']
    rwa [hrun] at hfirst

theorem mapM {f : α → Action σ ω β} (hf : ∀ a, Quiet (f a)) (as : List α) :
    Quiet (as.mapM f) := by
  induction as with
  | nil => exact fun _ => rfl
  | cons a as ih =>
      rw [List.mapM_cons]
      exact (hf a).bind fun b => ih.bind fun bs _ => rfl

theorem removeOne [Session σ] (s : Script.Subject) (id : EntityId) :
    Quiet (s.adapter.removeOne id : Action σ ω Nat) := by
  have hexecute : ∀ (statement : Statement) (params : List Value),
      Quiet (Store.execute statement params : Action σ ω Nat) :=
        fun _ _ _ => rfl
  have hcheck : ∀ n,
      Quiet (Action.ofExcept (s.adapter.atMostOne id n) : Action σ ω Nat) := by
    intro n w
    rw [Action.exec_ofExcept]
  rw [Script.Subject.removeOne_eq]
  refine Quiet.bind ?_ hcheck
  cases s with
  | commit => exact hexecute _ _
  | branch => exact fun _ => rfl
  | identity =>
      have haliases : Quiet
          (Store.perform (.delete identityAliases Alias.ownerColumn)
          [Value.ofId id] : Action σ ω Unit) := by
        rw [Store.perform_eq_send]
        exact (hexecute _ _).bind fun _ _ => rfl
      exact haliases.bind fun _ => hexecute _ _

theorem write [Session σ] {work : Action σ ω α} (hwork : Quiet work)
    (op entity : String) {w : World σ ω}
    (houtermost : w.store.writing = false) :
    ∃ later, ((Store.write op entity work).exec w).2.store.events =
      w.store.events ++ later ∧
      Unskipped later := by
  have hworked : ∀ {s : σ} {outcome : Except Stop α} {v : World σ ω},
      work.exec (Store.entered op entity s w) = (outcome, v) →
      v.store.events = w.store.events ++ [Store.openingEvent op entity] := by
    intro s outcome v hrun
    have hquiet := hwork (Store.entered op entity s w)
    rwa [hrun] at hquiet
  have hopening := Unskipped.opening op entity
  have hclosing := @Unskipped.closing α op entity
  have hundoing := Unskipped.undoing op
  have h := Store.write_outermost op entity work houtermost
  generalize (Store.write op entity work).exec w = after at h
  cases h with
  | refused hbegin =>
      exact ⟨_, List.append_assoc _ _ _, hopening.append (hclosing _)⟩
  | @stopped s stop v hbegin hrun =>
      refine ⟨_, ?_, (hopening.append (hundoing (Store.causeOf op stop)
        (Session.rollback.run v.store.session).1)).append
          (hclosing (.error stop))⟩
      simp only [Store.left, Store.undone, World.noting, World.withWriting,
        World.withSession, hworked hrun, List.append_assoc]
  | @uncommitted s s' a f v hbegin hrun hcommit =>
      refine ⟨_, ?_,
        (hopening.append (hundoing f (Session.rollback.run s').1)).append
        (hclosing (.error (.failed f)))⟩
      simp only [Store.left, Store.undone, Store.causeOf, World.noting,
        World.withWriting, World.withSession, hworked hrun, List.append_assoc]
  | @committed s s' a v hbegin hrun hcommit =>
      refine ⟨_, ?_, hopening.append (hclosing (.ok a))⟩
      simp only [Store.left, World.noting, World.withWriting, World.withSession,
        hworked hrun, List.append_assoc]

end Quiet

instance {σ : Type} [Backed σ] : Backed (Traced σ) where
  database s := Backed.database s.inner
  execute_mirrors statement params s :=
    Backed.execute_mirrors statement params s.inner
  query_mirrors statement params s :=
    Backed.query_mirrors statement params s.inner
  begin_mirrors s := Backed.begin_mirrors s.inner
  commit_mirrors s := Backed.commit_mirrors s.inner
  rollback_undoes s := Backed.rollback_undoes s.inner
  database_hold s := Backed.database_hold s.inner
  database_release s := Backed.database_release s.inner

namespace Script.Subject

variable {σ ω : Type}

theorem require_delete {s : Subject} (hs : s ≠ .branch) :
    s.adapter.require .delete = .ok () := by
  cases s with
  | commit => rfl
  | branch => exact absurd rfl hs
  | identity => rfl

theorem exec_deleteAll [Session σ] {s : Subject} (hs : s ≠ .branch)
    {batch : List s.Entity} {ids : List EntityId} {w w' : World σ ω}
    (hids : (s.adapter.storedIds batch).exec w = (.ok ids, w')) :
    (s.adapter.deleteAll batch).exec w =
      if ids = [] then (.ok 0, w')
      else (Store.write Capability.delete.name s.adapter.entity
        (s.removeAll ids)).exec w' := by
  unfold Adapter.deleteAll
  rw [require_delete hs]
  refine (Action.exec_bind_ok (Action.exec_ofExcept _ _) _).trans ?_
  rw [Action.exec_bind_ok hids]
  cases ids with
  | nil => rfl
  | cons id ids => rfl

theorem exec_deleteAll_refused [Session σ] {s : Subject} (hs : s ≠ .branch)
    {batch : List s.Entity} {r : s.Entity} {w : World σ ω}
    (hpolicy : w.store.options.deletePolicy = .reject)
    (hr : batch.find? (fun r => (Record.id? r).isNone) = some r) :
    (s.adapter.deleteAll batch).exec w =
      (.error (.failed (s.adapter.refusal r)), w) := by
  unfold Adapter.deleteAll
  rw [require_delete hs]
  exact (Action.exec_bind_ok (Action.exec_ofExcept _ _) _).trans
    (Action.exec_bind_error (Adapter.exec_storedIds_refused hpolicy hr) _)

/-- The removal of some records counts the identifiers that were stored, each of
them once, and takes away just the rows that go with them; or it fails and
changes nothing. -/
def Removes (s : Subject) (ids : List EntityId) (c c' : Contents) :
    Except Stop Nat → Prop
  | .ok n => n = (ids.filter (s.hasRow c)).dedup.length ∧ s.Without ids c c'
  | .error _ => c' = c

section Backed

variable [Backed σ] {s : Subject}

theorem removeAll_exact (hs : s ≠ .branch) {ids : List EntityId}
    {u v : World σ ω} {n : Nat} (hu : u.contents.Laid)
    (h : (s.removeAll ids).exec u = (.ok n, v)) :
    s.Without ids u.contents v.contents ∧ n = s.loss ids u.contents := by
  obtain ⟨counts, v', hremoved, hsum⟩ := Action.exec_bind_eq_ok.mp h
  cases hsum
  obtain ⟨hwithout, hcount⟩ := removeEach_exact hs hu hremoved
  exact ⟨hwithout, (hcount 0).trans (Nat.zero_add _)⟩

theorem removed_of_write (hs : s ≠ .branch) (ids : List EntityId)
    {op entity : String} {w w' : World σ ω} {outcome : Except Stop Nat}
    (hw : w.contents.Orderly) (houtermost : w.store.writing = false)
    (h : (Store.write op entity (s.removeAll ids)).exec w = (outcome, w')) :
    s.Removes ids w.contents w'.contents outcome := by
  cases outcome with
  | ok n =>
      obtain ⟨u, v, -, hu, hwork, hv⟩ := contents_of_write_ok houtermost h
      rw [← hu] at hw ⊢
      rw [hv]
      obtain ⟨hwithout, hn⟩ := removeAll_exact hs hw.laid hwork
      exact ⟨hn.trans (loss_eq hs hw ids), hwithout⟩
  | error stop =>
      have hprogram : Program (Acts (Edits s))
          (s.removeAll ids : Action σ ω Nat) :=
        (Program.mapM s.removeOne_acts ids).andThen fun _ => .done _
      exact contents_of_write_error
        ((hprogram.acts .edit).adapterStatements.elementary fun _ h => h)
          houtermost h

/-- The identifiers of a batch are removed exactly.  A record that was never
stored is passed over with a warning or refused, as the policy has it; if
nothing else is in the batch, the session is not called. -/
theorem deleteAll_exact (hs : s ≠ .branch) (batch : List s.Entity)
    {w : World (Traced σ) ω}
    (hreach : Database.ReachableBy keepsIntegrity w.database)
    (houtermost : w.store.writing = false) :
    (∀ r, w.store.options.deletePolicy = .reject →
      batch.find? (fun r => (Record.id? r).isNone) = some r →
      ∃ f, (s.adapter.deleteAll batch).exec w = (.error (.failed f), w) ∧
        f.kind = .invalidArgument ∧
          f.entityId = some (Record.idValue r).toInt) ∧
    (w.store.options.deletePolicy = .logAndSkip ∨
      (∀ r ∈ batch, (Record.id? r).isSome) →
      ∀ ids, batch.filterMap Record.id? = ids →
      (ids = [] →
        (s.adapter.deleteAll batch).exec w =
          (.ok 0, w.noting (s.adapter.skips batch))) ∧
      (ids ≠ [] → ∃ outcome w' calls later,
        (s.adapter.deleteAll batch).exec w = (outcome, w') ∧
        w'.exchanges = w.exchanges ++ calls ∧
        FailsFast (ids.flatMap s.removal) calls (outcome.map fun _ => ()) ∧
        w'.store.events = w.store.events ++ s.adapter.skips batch ++ later ∧
        Unskipped later ∧ s.Removes ids w.contents w'.contents outcome)) := by
  refine ⟨fun r hpolicy hr => ?_, fun hpolicy ids hids => ?_⟩
  · exact ⟨_, exec_deleteAll_refused hs hpolicy hr, rfl, rfl⟩
  have hstored := Adapter.exec_storedIds (a := s.adapter) hpolicy
  rw [hids] at hstored
  have hdelete := exec_deleteAll hs hstored
  refine ⟨fun hnone => ?_, fun hsome => ?_⟩
  · rw [hdelete, if_pos hnone]
  rw [if_neg hsome] at hdelete
  -- the warnings are out before the write begins
  have houtermost' : (w.noting (s.adapter.skips batch)).store.writing = false :=
    houtermost
  obtain ⟨-, calls, -, hcalls, hends⟩ := (keepsTo_removeAll hs ids).write
    Capability.delete.name s.adapter.entity houtermost'
  have hquiet : Quiet (s.removeAll ids : Action (Traced σ) ω Nat) :=
    (Quiet.mapM (Quiet.removeOne s) ids).bind fun _ _ => rfl
  obtain ⟨later, hevents, hlater⟩ :=
    hquiet.write Capability.delete.name s.adapter.entity houtermost'
  rcases hwrite :
    (Store.write Capability.delete.name s.adapter.entity (s.removeAll ids)).exec
    (w.noting (s.adapter.skips batch)) with ⟨outcome, w'⟩
  rw [hwrite] at hdelete hcalls hends hevents
  have hremoves : s.Removes ids w.contents w'.contents outcome :=
    removed_of_write (w := w.noting (s.adapter.skips batch)) hs ids
      hreach.orderly houtermost' hwrite
  exact ⟨outcome, w', calls, later, hdelete, hcalls, hends, hevents,
    hlater, hremoves⟩

end Backed

end Script.Subject

/-- The same world, in which the calls are traced from here on. -/
def World.traced {σ ω : Type} (w : World σ ω) : World (Traced σ) ω :=
  { w with store := { w.store with session := { inner := w.store.session } } }

theorem World.database_traced {σ ω : Type} [Backed σ] (w : World σ ω) :
    w.traced.database = w.database := rfl

namespace Identity

/-- Only the first identity is stored here; it occurs twice. -/
def mixed : List Identity :=
  [stored 0 "new" [], giver, stored 7 "absent" [], giver, stored 0 "newer" []]

theorem deleteAll_mixed : ∃ w' calls later,
    (adapter.deleteAll mixed).exec founded.traced = (.ok 1, w') ∧
      w'.exchanges = calls ∧
      FailsFast ((mixed.filterMap Record.id?).flatMap
        Script.Subject.identity.removal) calls (.ok ()) ∧
      w'.store.events =
        founded.traced.store.events ++ adapter.skips mixed ++ later ∧
      Script.Subject.identity.Without (mixed.filterMap Record.id?)
        founded.traced.contents w'.contents := by
  have hsubject : Script.Subject.identity ≠ .branch := by decide
  obtain ⟨hpolicy, houtermost⟩ : founded.traced.store.options.deletePolicy =
    .logAndSkip ∧
      founded.traced.store.writing = false := by decide +kernel
  have hsome : mixed.filterMap Record.id? ≠ [] := by decide +kernel
  have hreach : Database.ReachableBy keepsIntegrity
      founded.traced.database := by
    rw [World.database_traced]
    exact reachable_founded
  obtain ⟨-, hexact⟩ :=
    Script.Subject.deleteAll_exact hsubject mixed hreach houtermost
  obtain ⟨outcome, w', calls, later, hdelete, hcalls, hends, hevents,
      -, hremoves⟩ :=
    (hexact (.inl hpolicy) _ rfl).2 hsome
  have hrun : (adapter.deleteAll mixed).exec founded.traced = (outcome, w') :=
    hdelete
  have hok : ((adapter.deleteAll mixed).exec founded.traced).1.isOk = true := by
    decide +kernel
  rw [hrun] at hok
  cases outcome with
  | error stop => cases hok
  | ok n =>
      obtain ⟨hn, hwithout⟩ := hremoves
      have hcount : ((mixed.filterMap Record.id?).filter
          (Script.Subject.identity.hasRow
            founded.traced.contents)).dedup.length = 1 := by
        decide +kernel
      rw [hcount] at hn
      subst hn
      exact ⟨w', calls, later, hrun, hcalls, hends, hevents, hwithout⟩

end Identity

end Annals
