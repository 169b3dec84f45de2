import Annals.Proofs.Families

namespace Annals.Database.Contents

open Annals.Sql

variable {c c' : Contents}

theorem requireTargets_of_targets {t : StoredTable}
    (h : ∀ target ∈ targets t, (c.table? target).isSome) : c.requireTargets t =
      .ok () := by
  unfold requireTargets
  generalize targets t = names at h ⊢
  induction names with
  | nil => rfl
  | cons target rest ih =>
      refine bind_eq_ok.mpr ⟨(), if_pos (h target List.mem_cons_self), ?_⟩
      exact ih fun target htarget => h target (List.mem_cons_of_mem _ htarget)

theorem checkReferences_of_isSound (h : c.isSound = true) :
    c.checkReferences = .ok c := by
  unfold checkReferences
  rw [if_pos h]

theorem targets_eq_of_blank {t b : StoredTable} (h : t.blank = b) :
    targets t = targets b := by
  unfold targets
  rw [StoredTable.columns_eq_of_blank h]

theorem rowIsSound_congr {t t' : StoredTable} (h : t'.blank = t.blank)
    (r : StoredRow) :
    c.rowIsSound t' r = c.rowIsSound t r := by
  have hcolumns : t'.columns = t.columns :=
    StoredTable.columns_eq_of_blank (b := t.blank) h
  unfold rowIsSound
  rw [hcolumns]

theorem rowIsSound_of_targets {t : StoredTable} (h : targets t = [])
    (r : StoredRow) :
    c.rowIsSound t r = true := by
  unfold rowIsSound
  rw [List.all_eq_true]
  rintro ⟨column, cell⟩ hmem
  cases htarget : column.references? with
  | none => simp only [htarget]
  | some target =>
      have hmem : target ∈ targets t :=
        List.mem_filterMap.mpr ⟨column, (List.of_mem_zip hmem).1, htarget⟩
      rw [h] at hmem
      cases hmem

theorem rowIsSound_alias {owner : Int64}
    (howner : (c.cells? identities.name owner).isSome)
    (key : Int64) (name email : String) :
    c.rowIsSound (.ofTable identityAliases)
      { key, cells := [.integer owner, .text name, .text email] } = true := by
  obtain ⟨t, ht, hrow⟩ := isSome_cells?.mp howner
  have hrefers : c.refersTo identities.name (.integer owner) = true :=
    refersTo_eq_true.mpr (.inr ⟨owner, t, rfl, ht, hrow⟩)
  change (c.refersTo identities.name (.integer owner) && true) = true
  rw [hrefers]
  rfl

namespace Orderly

variable (hc : c.Orderly)
include hc

theorem isSound_put {name : String} {t t' : StoredTable}
    (ht : c.table? name = some t) (hblank : t'.blank = t.blank)
    (hkeys : ∀ key, (c.cells? identities.name key).isSome →
      ((c.put t').cells? identities.name key).isSome)
    (hrows : ∀ r ∈ t'.rows, r ∈ t.rows ∨ (c.put t').rowIsSound t' r = true) :
    (c.put t').isSound = true := by
  have hlaid : (c.put t').Laid :=
    Rewritten.laid (.inr ⟨t, t', ht, hblank, rfl⟩) hc.laid
  apply isSound_iff.mpr
  intro u hu r hr
  obtain ⟨other, hother, rfl⟩ := List.mem_map.mp hu
  split at hr
  case isFalse hne =>
    rw [if_neg hne]
    exact rowIsSound_of_keys (hc.laid other hother) hkeys
      (isSound_iff.mp hc.sound other hother r hr)
  case isTrue heq =>
    rw [if_pos heq]
    rcases hrows r hr with hmem | hsound
    · have ht := mem_of_table? ht
      rw [rowIsSound_congr hblank]
      exact rowIsSound_of_keys (hc.laid t ht) hkeys
        (isSound_iff.mp hc.sound t ht r hmem)
    · exact hsound

theorem identities_put {t t' : StoredTable}
    (ht : c.table? identityAliases.name = some t)
    (hblank : t'.blank = t.blank) (key : Int64)
    (hkey : (c.cells? identities.name key).isSome) :
    ((c.put t').cells? identities.name key).isSome := by
  have htable : (c.put t').table? identities.name = c.table? identities.name :=
    table?_of_rewritten (.inr ⟨t, t', ht, hblank, rfl⟩) hc.laid (by decide)
      (by decide) (by decide)
  unfold cells? at hkey ⊢
  rwa [htable]

theorem update_accepted (i : Identity) {id : EntityId}
    (hrow : (c.cells? identities.name id.value).isSome) :
    ∃ c', c.update identities.name
      ([.text i.name, Value.ofOption Value.text i.primaryEmail] ++
        [Value.ofId id]) = .ok (1, c') := by
  obtain ⟨t, ht, hsome⟩ := isSome_cells?.mp hrow
  obtain ⟨r, hr⟩ := Option.isSome_iff_exists.mp hsome
  have hblank := hc.laid.ofTable_eq (mem_layouts identities (by decide)) ht
  have htargets : targets t = [] :=
    (targets_eq_of_blank hblank).trans (by decide)
  have hdrawn : drawn t.name t.columns
      ([.text i.name, Value.ofOption Value.text i.primaryEmail].map
        Cell.ofValue) =
        .ok [.text i.name, i.primaryEmail.elim .null .text] := by
    rw [StoredTable.name_eq_of_blank hblank,
      StoredTable.columns_eq_of_blank hblank, ofTable_name]
    exact i.drawn_values
  let changed :=
    t.withCells r.key [.text i.name, i.primaryEmail.elim .null .text]
  have hsound : (c.put changed).isSound = true := by
    refine hc.isSound_put ht (StoredTable.blank_withCells _ _ _)
      (fun key hkey => ?_) fun s _ => ?_
    · rw [cells?_put_self ht (StoredTable.blank_withCells _ _ _),
        StoredTable.row?_withCells]
      rw [cells?_eq_of_table ht] at hkey
      simpa using hkey
    · exact .inr (rowIsSound_of_targets htargets s)
  refine ⟨c.put changed, bind_eq_ok.mpr ⟨t, table_eq_ok.mpr ht, ?_⟩⟩
  refine bind_eq_ok.mpr ⟨(), requireTargets_of_targets (by simp [htargets]), ?_⟩
  have hfound :
      (([.text i.name, Value.ofOption Value.text i.primaryEmail] ++
        [Value.ofId id] :
      List Value).getLast?.map Cell.ofValue |>.bind Cell.key?).bind t.row? =
        some r := hr
  rw [hfound]
  refine bind_eq_ok.mpr ⟨_, hdrawn, ?_⟩
  exact bind_eq_ok.mpr ⟨c.put changed, checkReferences_of_isSound hsound, rfl⟩

theorem exists_aliasTable (hhoused : c.Housed) :
    ∃ t, c.table? identityAliases.name = some t ∧
      t.blank = .ofTable identityAliases ∧ c.requireTargets t = .ok () := by
  obtain ⟨t, ht⟩ := Option.isSome_iff_exists.mp
    (hhoused identityAliases (List.mem_cons_of_mem _ List.mem_cons_self))
  have hblank := hc.laid.ofTable_eq (mem_layouts identityAliases (by decide)) ht
  have htargets : targets t = [identities.name] :=
    (targets_eq_of_blank hblank).trans (by decide)
  refine ⟨t, ht, hblank, requireTargets_of_targets ?_⟩
  simpa [htargets] using hhoused identities List.mem_cons_self

theorem delete_accepted (hhoused : c.Housed) (id : EntityId) :
    ∃ n c', c.delete identityAliases.name Alias.ownerColumn [Value.ofId id] =
      .ok (n, c') := by
  obtain ⟨t, ht, -, htargets⟩ := hc.exists_aliasTable hhoused
  let changed := t.remove (hits t Alias.ownerColumn [Value.ofId id])
  have hsound : (c.put changed).isSound = true := by
    refine hc.isSound_put ht (StoredTable.blank_remove _ _) ?_ fun r hr => ?_
    · exact hc.identities_put ht (StoredTable.blank_remove _ _)
    · exact .inl (List.mem_filter.mp hr).1
  refine ⟨(t.rows.filter (hits t Alias.ownerColumn [Value.ofId id])).length,
    c.put changed, ?_⟩
  refine bind_eq_ok.mpr ⟨t, table_eq_ok.mpr ht,
    bind_eq_ok.mpr ⟨(), htargets, ?_⟩⟩
  exact bind_eq_ok.mpr ⟨c.put changed, checkReferences_of_isSound hsound, rfl⟩

theorem insert_accepted (hhoused : c.Housed) {owner id : EntityId} (a : Alias)
    (howner : (c.cells? identities.name owner.value).isSome)
    (hfree : c.cells? identityAliases.name id.value = none) :
    ∃ c', c.insert identityAliases.name (a.values owner id) = .ok (1, c') := by
  obtain ⟨t, ht, hblank, htargets⟩ := hc.exists_aliasTable hhoused
  have hkeyed : t.keyColumn = some "id" :=
    StoredTable.keyColumn_eq_of_blank hblank
  have hdrawn : drawn t.name t.columns
      ([Value.ofId owner, .text a.name, .text a.email].map Cell.ofValue) =
        .ok [.integer owner.value, .text a.name, .text a.email] := by
    rw [StoredTable.name_eq_of_blank hblank,
      StoredTable.columns_eq_of_blank hblank, ofTable_name]
    exact Alias.drawn_values owner a
  have hnone : requireFree t id.value = .ok () := by
    rw [cells?_eq_of_table ht, Option.map_eq_none_iff] at hfree
    unfold requireFree
    rw [hfree]
    rfl
  let added := t.add (Alias.row owner (Record.keyed a id))
  have hsound : (c.put added).isSound = true := by
    have hkeys := hc.identities_put ht
      (StoredTable.blank_add t (Alias.row owner (Record.keyed a id)))
    refine hc.isSound_put ht (StoredTable.blank_add _ _) hkeys fun r hr => ?_
    rcases List.mem_cons.mp ((StoredTable.insertRow_perm _ _).mem_iff.mp hr)
      with rfl | hr
    · have hadded : added.blank = (StoredTable.ofTable identityAliases).blank :=
        hblank.trans (ofTable_blank _).symm
      right
      rw [rowIsSound_congr hadded]
      exact rowIsSound_alias (hkeys owner.value howner) _ _ _
    · exact .inl hr
  have hplace : place t ((a.values owner id).map Cell.ofValue) =
      .ok (id.value, [Value.ofId owner, .text a.name, .text a.email].map
        Cell.ofValue) := by
    unfold place
    rw [hkeyed]
    rfl
  refine ⟨c.put added, bind_eq_ok.mpr ⟨t, table_eq_ok.mpr ht, ?_⟩⟩
  refine bind_eq_ok.mpr ⟨(), htargets, bind_eq_ok.mpr ⟨_, hplace, ?_⟩⟩
  refine bind_eq_ok.mpr ⟨_, hdrawn, bind_eq_ok.mpr ⟨(), hnone, ?_⟩⟩
  exact bind_eq_ok.mpr ⟨c.put added, checkReferences_of_isSound hsound, rfl⟩

end Orderly

end Annals.Database.Contents
