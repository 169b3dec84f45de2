import Annals.Proofs.Acceptance
import Annals.Proofs.Collisions
import Annals.Proofs.Faultless
import Annals.Proofs.Rearrangement

namespace Annals

open Annals.Sql Annals.Stream Annals.Database Annals.Database.Contents

/-- As many identifiers as are needed can be drawn behind a value. -/
def Room (n : Int64) (needed : Nat) : Prop :=
  needed = 0 ∨ 0 ≤ n ∧ n.toInt + needed ≤ Int64.maxValue.toInt

namespace Room

variable {n n' : Int64} {k k' : Nat}

theorem next (h : Room n (k + 1)) : 0 ≤ n ∧ n ≠ Int64.maxValue := by
  rcases h with h | ⟨hnonneg, hle⟩
  · simp at h
  · refine ⟨hnonneg, ?_⟩
    rintro rfl
    omega

theorem mono (h : Room n k) (hle : k' ≤ k) : Room n k' := by
  rcases h with rfl | ⟨hnonneg, hroom⟩
  · exact .inl (Nat.le_zero.mp hle)
  · exact .inr ⟨hnonneg, by omega⟩

theorem after {ids : List EntityId} (h : Room n (ids.length + k))
    (hdrawn : Consecutive n ids n') :
    Room n' k := by
  have hvalue := hdrawn.toInt_eq
  rcases h with h | ⟨hnonneg, hroom⟩
  · exact .inl (by omega)
  · right
    rw [Int64.le_iff_toInt_le] at hnonneg ⊢
    have hzero : (0 : Int64).toInt = 0 := rfl
    omega

end Room

namespace Database.Contents

variable {c c' : Contents}

theorem cells?_eq_none {name : String} {key : Int64}
    (h : ∀ r ∈ c.rows name, r.key ≠ key) :
    c.cells? name key = none := by
  by_contra hsome
  obtain ⟨t, ht, hrow⟩ := isSome_cells?.mp (Option.isSome_iff_ne_none.mpr hsome)
  obtain ⟨r, hr⟩ := Option.isSome_iff_exists.mp hrow
  refine h r ?_ (StoredTable.row?_key hr)
  rw [rows_eq_of_table ht]
  exact List.mem_of_find?_eq_some hr

theorem rows_congr {name : String} (h : c'.table? name = c.table? name) :
    c'.rows name = c.rows name := by
  unfold rows
  rw [h]

theorem rows_insert (hc : c.Laid) {owner id : EntityId} {a : Alias} {m : Nat}
    (h : c.insert identityAliases.name (a.values owner id) = .ok (m, c')) :
    (c'.rows identityAliases.name).Perm
      (Alias.row owner (Record.keyed a id) :: c.rows identityAliases.name) := by
  obtain ⟨t, cells, ht, -, hcells, -, rfl⟩ :=
    hc.insert_eq_ok (mem_layouts identityAliases (by decide)) (by decide) h
  cases hcells.symm.trans (Alias.drawn_values owner a)
  rw [rows_eq_of_table (table?_put_self ht (StoredTable.blank_add _ _)),
    rows_eq_of_table ht]
  exact StoredTable.insertRow_perm _ _

theorem Orderly.eq_of_key (hc : c.Orderly) {name : String}
    {r r' : StoredRow} (hr : r ∈ c.rows name) (hr' : r' ∈ c.rows name)
    (hkey : r.key = r'.key) :
    r = r' := by
  obtain ⟨t, ht, hr⟩ := mem_rows.mp hr
  rw [rows_eq_of_table ht] at hr'
  have hnodup : (t.rows.map StoredRow.key).Nodup :=
    (hc.ordered t (mem_of_table? ht)).imp fun hlt => Int64.ne_of_lt hlt
  exact List.inj_on_of_nodup_map hnodup hr hr' hkey

end Database.Contents

/-- The tables of identities are there and in order, and no alias has an
identifier beyond the value of their sequence. -/
structure Ready (c : Contents) (n : Int64) : Prop where
  orderly : c.Orderly
  housed : c.Housed
  value : c.value? Series.aliases.sequence = some n
  below : ∀ r ∈ c.rows identityAliases.name, r.key ≤ n

namespace Ready

variable {c c' : Contents} {n : Int64}

theorem of_rewritten (h : Ready c n) (table : Table)
    (htable : table ∈ storeTables) (hrewritten : Rewritten table.name c c')
    (hchecked : Checked c c')
    (hbelow : ∀ r ∈ c'.rows identityAliases.name, r.key ≤ n) : Ready c' n where
  orderly := h.orderly.of_checked hrewritten hchecked
  housed := by
    intro other hother
    rw [hrewritten.isSome_table?]
    exact h.housed other hother
  value := by
    have hsequence := ne_sequenceName Series.aliases.sequence_layout htable
    rw [← h.value]
    exact value?_congr
      (hrewritten.table?_other h.orderly.laid (mem_layouts table htable)
      (ofTable_name table) Series.aliases.sequence_layout rfl hsequence.symm)
  below := hbelow

theorem insert (h : Ready c n) {owner id : EntityId} {a : Alias} {m : Nat}
    (hid : id.value ≤ n)
    (hinsert : c.insert identityAliases.name (a.values owner id) =
      .ok (m, c')) : Ready c' n := by
  refine h.of_rewritten identityAliases (by decide) (insert_rewritten hinsert)
    (insert_checked hinsert) ?_
  intro r hr
  rcases List.mem_cons.mp ((rows_insert h.orderly.laid hinsert).mem_iff.mp hr)
    with rfl | hr
  · exact hid
  · exact h.below r hr

theorem advance (h : Ready c n) (hmax : n ≠ Int64.maxValue)
    {values : List (List Cell)}
    (hadvance : c.advance Series.aliases.sequence = .ok (values, c'))
    (hvalue : c'.value? Series.aliases.sequence = some (n + 1)) :
    Ready c' (n + 1) where
  orderly := h.orderly.advance Series.aliases.sequence_layout hadvance
  housed := by
    intro other hother
    rw [(advance_rewritten hadvance).isSome_table?]
    exact h.housed other hother
  value := hvalue
  below := by
    have hrows : c'.rows identityAliases.name = c.rows identityAliases.name :=
      rows_congr ((advance_rewritten hadvance).table?_other h.orderly.laid
        Series.aliases.sequence_layout rfl Series.aliases.table_layout
          (ofTable_name _) (Series.aliases.table_ne_sequence .aliases))
    intro r hr
    rw [hrows] at hr
    have hle := h.below r hr
    have hnext := Int64.toInt_add_one hmax
    rw [Int64.le_iff_toInt_le] at hle ⊢
    omega

end Ready

/-- No row of an alias has one of these identifiers, and none of them is beyond
a value. -/
def Unused (c : Contents) (n : Int64) (ids : List EntityId) : Prop :=
  ∀ id ∈ ids, id.value ≤ n ∧ ∀ r ∈ c.rows identityAliases.name, r.key ≠ id.value

theorem Alias.ne_of_drawn {a : Alias} {as : List Alias} {id other : EntityId}
    {n n' : Int64}
    (hdrawn : Consecutive n (received [Record.id? a] [some id]) n')
    (hfits : Record.Fits a id) (hnodup : ((a :: as).filterMap Record.id?).Nodup)
    (hother : other ∈ as.filterMap Record.id?)
    (hle : other.value ≤ n) : id ≠ other := by
  rintro rfl
  cases hid : Record.id? a with
  | some own =>
      rw [List.filterMap_cons_some hid, hfits own hid] at hnodup
      exact (List.nodup_cons.mp hnodup).1 hother
  | none =>
      have hlt : n.toInt < id.value.toInt :=
        hdrawn.lt_of_mem (by rw [hid]; simp [received])
      rw [Int64.le_iff_toInt_le] at hle
      omega

theorem Unused.later {c c' : Contents} {a : Alias} {as : List Alias}
    {owner id : EntityId} {n n' : Int64}
    (h : Unused c n ((a :: as).filterMap Record.id?))
    (hnodup : ((a :: as).filterMap Record.id?).Nodup) (hfits : Record.Fits a id)
    (hdrawn : Consecutive n (received [Record.id? a] [some id]) n')
    (hrows : (c'.rows identityAliases.name).Perm
      (Alias.row owner (Record.keyed a id) :: c.rows identityAliases.name)) :
    Unused c' n' (as.filterMap Record.id?) := by
  intro other hother
  have hsublist := (List.sublist_cons_self a as).filterMap Record.id?
  obtain ⟨hle, hfree⟩ := h other (hsublist.subset hother)
  constructor
  · exact Int64.le_trans hle hdrawn.le
  · intro r hr
    rcases List.mem_cons.mp (hrows.mem_iff.mp hr) with rfl | hr
    · intro heq
      exact Alias.ne_of_drawn hdrawn hfits hnodup hother hle
        (EntityId.value_inj.mp heq)
    · exact hfree r hr

theorem Room.later {a : Alias} {as : List Alias} {id : EntityId} {n n' : Int64}
    (h : Room n ((a :: as).countP fun a => (Record.id? a).isNone))
    (hdrawn : Consecutive n (received [Record.id? a] [some id]) n') :
    Room n' (as.countP fun a => (Record.id? a).isNone) := by
  refine Room.after ?_ hdrawn
  refine h.mono ?_
  rw [List.countP_cons]
  cases Record.id? a with
  | none =>
      simp [received]
      omega
  | some own => simp [received]

section Worlds

variable {σ ω : Type} [Backed σ] {w w' : World σ ω}

theorem Alias.rows_of_insertRow {owner id : EntityId} {a : Alias}
    (h : (insertRow owner a).exec w = (.ok id, w')) (hlaid : w.contents.Laid) :
    (w'.contents.rows identityAliases.name).Perm
      (row owner (Record.keyed a id) :: w.contents.rows
        identityAliases.name) := by
  obtain ⟨v, n, hlaid', htables, hexecute⟩ := exists_drawn h hlaid
  obtain ⟨locked, hchange⟩ := change_of_execute hexecute
  rw [← rows_congr (htables identityAliases (by decide))]
  exact rows_insert hlaid' hchange

theorem Alias.rows_of_mapM {owner : EntityId} {as : List Alias}
    {ids : List EntityId}
    (h : (as.mapM (insertRow owner)).exec w = (.ok ids, w'))
    (hlaid : w.contents.Laid) :
    (w'.contents.rows identityAliases.name).Perm
      ((List.zipWith Record.keyed as ids).map (row owner) ++
        w.contents.rows identityAliases.name) := by
  induction as generalizing ids w with
  | nil =>
      cases h
      exact .refl _
  | cons a as ih =>
      obtain ⟨id, v, rest, hone, hrest, rfl⟩ := Action.exec_mapM_cons_eq_ok.mp h
      have hrows := ih hrest (rowSet_of_insertRow hone hlaid).1
      exact hrows.trans (((rows_of_insertRow hone hlaid).append_left _).trans
        List.perm_middle)

section Success

variable {calm : σ → Prop} (h : Faultless σ calm)
include h

theorem Alias.exec_insert {owner id : EntityId} {a : Alias} {n : Int64}
    (hw : calm w.store.session) (hready : Ready w.contents n)
    (howner : (w.contents.cells? identities.name owner.value).isSome)
    (hid : id.value ≤ n)
    (hfree : ∀ r ∈ w.contents.rows identityAliases.name, r.key ≠ id.value) :
    ∃ w', (Store.perform (.insert identityAliases) (a.values owner id)).exec w =
      (.ok (), w') ∧
      calm w'.store.session ∧ Ready w'.contents n := by
  obtain ⟨c', hinsert⟩ :=
    hready.orderly.insert_accepted hready.housed a howner (cells?_eq_none hfree)
  obtain ⟨w', hrun, hcalm, rfl⟩ :=
    h.exec_execute (s := .insert identityAliases) hw fun _ => hinsert
  exact ⟨w', Store.exec_perform_eq_ok.mpr ⟨1, hrun⟩, hcalm,
    hready.insert hid hinsert⟩

theorem Alias.exec_insertRow {owner : EntityId} {a : Alias} {n : Int64}
    (hw : calm w.store.session) (hready : Ready w.contents n)
    (howner : (w.contents.cells? identities.name owner.value).isSome)
    (hown : ∀ id, Record.id? a = some id → id.value ≤ n ∧
      ∀ r ∈ w.contents.rows identityAliases.name, r.key ≠ id.value)
    (hnew : Record.id? a = none → 0 ≤ n ∧ n ≠ Int64.maxValue) :
    ∃ id n' w', (insertRow owner a).exec w = (.ok id, w') ∧
      calm w'.store.session ∧
      Ready w'.contents n' ∧
      Consecutive n (received [Record.id? a] [some id]) n' := by
  unfold insertRow
  cases hid : Record.id? a with
  | some id =>
      obtain ⟨hle, hfree⟩ := hown id hid
      obtain ⟨w', hrun, hcalm, hready'⟩ :=
        exec_insert (a := a) h hw hready howner hle hfree
      refine ⟨id, n, w', ?_, hcalm, hready', .nil n⟩
      rw [show a.ident.id? = some id from hid]
      exact (Action.exec_bind_ok hrun _).trans rfl
  | none =>
      obtain ⟨hnonneg, hmax⟩ := hnew hid
      obtain ⟨id, v, hnext, hv, hvalue, hsequence⟩ :=
        h.exec_nextId hw hready.orderly.laid (k := .aliases) hready.value
          hnonneg hmax
      obtain ⟨values, hadvance⟩ := advance_of_nextId hnext
      obtain ⟨-, htables⟩ := table?_of_nextId hnext hready.orderly.laid
        Series.aliases.sequence_layout
      have hint := Int64.toInt_add_one hmax
      have hready' := hready.advance hmax hadvance hsequence
      -- no row can have an identifier behind the value of the sequence
      have hfree : ∀ r ∈ v.contents.rows identityAliases.name,
          r.key ≠ id.value := by
        intro r hr heq
        rw [rows_congr (htables identityAliases (by decide))] at hr
        have hle := hready.below r hr
        rw [heq, hvalue, Int64.le_iff_toInt_le] at hle
        omega
      have howner' :
          (v.contents.cells? identities.name owner.value).isSome := by
        rw [(RowsKept.of_table (htables identities (by decide))) owner.value]
        exact howner
      obtain ⟨w', hrun, hcalm, hready''⟩ :=
        exec_insert (a := a) h hv hready' howner'
          (hvalue ▸ Int64.le_refl _) hfree
      refine ⟨id, n + 1, w', ?_, hcalm, hready'', ?_⟩
      · rw [show a.ident.id? = none from hid]
        exact (Action.exec_bind_ok hnext _).trans
          ((Action.exec_bind_ok hrun _).trans rfl)
      · rw [← hvalue]
        exact .single (hvalue ▸ hint)

theorem Alias.exec_mapM {owner : EntityId} {as : List Alias} {n : Int64}
    (hw : calm w.store.session) (hready : Ready w.contents n)
    (howner : (w.contents.cells? identities.name owner.value).isSome)
    (hnodup : (as.filterMap Record.id?).Nodup)
    (hown : Unused w.contents n (as.filterMap Record.id?))
    (hroom : Room n (as.countP fun a => (Record.id? a).isNone)) :
    ∃ ids n' w', (as.mapM (insertRow owner)).exec w = (.ok ids, w') ∧
      calm w'.store.session ∧
      Ready w'.contents n' ∧
      Consecutive n (received (as.map Record.id?) (ids.map some)) n' := by
  induction as generalizing w n with
  | nil => exact ⟨[], n, w, rfl, hw, hready, .nil n⟩
  | cons a as ih =>
      have hfirst : ∀ id, Record.id? a = some id → id.value ≤ n ∧
          ∀ r ∈ w.contents.rows identityAliases.name, r.key ≠ id.value := by
        intro id hid
        exact hown id (List.mem_filterMap.mpr ⟨a, List.mem_cons_self, hid⟩)
      have hnew : Record.id? a = none → 0 ≤ n ∧ n ≠ Int64.maxValue := by
        intro hnone
        rw [List.countP_cons_of_pos (by simp [hnone])] at hroom
        exact hroom.next
      obtain ⟨id, m, v, hone, hv, hready', hdrawn⟩ :=
        exec_insertRow h hw hready howner hfirst hnew
      obtain ⟨-, hidentities, -⟩ := rowSet_of_insertRow hone hready.orderly.laid
      have hrows := rows_of_insertRow hone hready.orderly.laid
      have howner' :
          (v.contents.cells? identities.name owner.value).isSome := by
        rw [hidentities owner.value]
        exact howner
      have hnodup' : (as.filterMap Record.id?).Nodup :=
        hnodup.sublist ((List.sublist_cons_self a as).filterMap _)
      obtain ⟨ids, n', w', hrest, hw', hready'', hdrawn'⟩ :=
        ih hv hready' howner' hnodup'
          (hown.later hnodup (fits_of_insertRow hone) hdrawn hrows)
          (hroom.later hdrawn)
      refine ⟨id :: ids, n', w', ?_, hw', hready'', ?_⟩
      · exact Action.exec_mapM_cons_eq_ok.mpr ⟨id, v, ids, hone, hrest, rfl⟩
      · rw [List.map_cons, List.map_cons, received_cons]
        exact hdrawn.append hdrawn'

end Success

theorem Identity.rows_of_writeOne {i : Identity} {keys : Keys} {id : EntityId}
    (h : (adapter.writeOne i).exec w = (.ok keys, w'))
    (hid : Record.id? i = some id) (hlaid : w.contents.Laid) :
    (w'.contents.rows identityAliases.name).Perm
      ((Script.Subject.identity.keyed i keys).aliases.map (Alias.row keys.id) ++
        (w.contents.rows identityAliases.name).filter fun r => !i.owns r) := by
  rcases Adapter.writeOne_eq_ok h with ⟨hnone, -⟩ | ⟨id', hid', hupdate⟩
  · cases hnone.symm.trans hid
  · obtain ⟨rfl, u, v, m, hexecute, hdelete, haliases⟩ :=
      updateRows_eq_ok hid' hupdate
    have hrewritten := rewritten_of_update hexecute
    have hlaid₁ := hrewritten.laid hlaid
    have hlaid₂ := (rewritten_of_delete hdelete).laid hlaid₁
    have hkept : u.contents.rows identityAliases.name =
        w.contents.rows identityAliases.name :=
      rows_congr (table?_of_rewritten hrewritten hlaid (by decide) (by decide)
        (by decide))
    rw [← hkept, ← rows_of_delete hdelete hid' hlaid₁]
    exact Alias.rows_of_mapM haliases hlaid₂

section Success

variable {calm : σ → Prop} (h : Faultless σ calm)
include h

theorem Identity.exec_head {i : Identity} {id : EntityId} {n : Int64}
    (hw : calm w.store.session) (hready : Ready w.contents n)
    (hstored : (w.contents.cells? identities.name id.value).isSome) :
    ∃ u, (Store.execute (.update identities)
        [.text i.name, Value.ofOption Value.text i.primaryEmail,
          Value.ofId id]).exec w = (.ok 1, u) ∧ calm u.store.session ∧
          Ready u.contents n ∧
      u.contents.rows identityAliases.name =
        w.contents.rows identityAliases.name ∧
      (u.contents.cells? identities.name id.value).isSome := by
  obtain ⟨c', hupdate⟩ := hready.orderly.update_accepted i hstored
  obtain ⟨u, hupdated, hu, rfl⟩ :=
    h.exec_execute (s := .update identities) hw fun _ => hupdate
  have hrewritten := update_rewritten hupdate
  have hrows : u.contents.rows identityAliases.name =
      w.contents.rows identityAliases.name :=
    rows_congr (table?_of_rewritten hrewritten hready.orderly.laid (by decide)
      (by decide) (by decide))
  have hset :=
    rowSet_of_update hupdated hready.orderly.laid (by decide) i.drawn_values
  refine ⟨u, hupdated, hu, ?_, hrows, ?_⟩
  · exact hready.of_rewritten identities (by decide) hrewritten
      (update_checked hupdate) (hrows ▸ hready.below)
  · rw [hset.1]
    rfl

theorem Identity.exec_clear {i : Identity} {id : EntityId} {n : Int64}
    (hw : calm w.store.session) (hready : Ready w.contents n)
    (hid : Record.id? i = some id)
    (hstored : (w.contents.cells? identities.name id.value).isSome) :
    ∃ v,
        (Store.perform (.delete identityAliases Alias.ownerColumn)
          [Value.ofId id]).exec w =
        (.ok (), v) ∧ calm v.store.session ∧ Ready v.contents n ∧
      v.contents.rows identityAliases.name =
        (w.contents.rows identityAliases.name).filter (fun r => !i.owns r) ∧
      (v.contents.cells? identities.name id.value).isSome := by
  obtain ⟨m, c', hdelete⟩ := hready.orderly.delete_accepted hready.housed id
  obtain ⟨v, hdeleted, hv, rfl⟩ :=
    h.exec_execute (s := .delete identityAliases Alias.ownerColumn) hw
      fun _ => hdelete
  have hleft := rows_of_delete hdeleted hid hready.orderly.laid
  have hkept : RowsKept identities w.contents v.contents :=
    .of_table (table?_of_rewritten (delete_rewritten hdelete)
      hready.orderly.laid (by decide) (by decide) (by decide))
  refine ⟨v, Store.exec_perform_eq_ok.mpr ⟨m, hdeleted⟩, hv, ?_, hleft, ?_⟩
  · refine hready.of_rewritten identityAliases (by decide)
      (delete_rewritten hdelete) (delete_checked hdelete) fun r hr => ?_
    rw [hleft] at hr
    exact hready.below r (List.mem_filter.mp hr).1
  · rw [hkept id.value]
    exact hstored

/-- A stored identity is written, if the identifiers of its aliases are not in
use, or in use by aliases of its own. -/
theorem Identity.exec_writeOne {i : Identity} {id : EntityId} {n : Int64}
    (hw : calm w.store.session) (hready : Ready w.contents n)
    (hid : Record.id? i = some id)
    (hstored : (w.contents.cells? identities.name id.value).isSome)
    (hnodup : i.aliasIds.Nodup) (hbelow : ∀ id ∈ i.aliasIds, id.value ≤ n)
    (hown : ∀ r ∈ w.contents.rows identityAliases.name,
      (∃ id ∈ i.aliasIds, id.value = r.key) → i.owns r)
    (hroom : Room n i.newcomers) :
    ∃ keys n' w', (adapter.writeOne i).exec w = (.ok keys, w') ∧
      calm w'.store.session ∧
      Ready w'.contents n' ∧
      Consecutive n (received (i.aliases.map Record.id?) (keys.parts.map some))
        n' := by
  obtain ⟨u, hupdated, hu, hready₁, hrows, hstored₁⟩ :=
    exec_head h (i := i) hw hready hstored
  obtain ⟨v, hdeleted, hv, hready₂, hleft, howner⟩ :=
    exec_clear h hu hready₁ hid hstored₁
  rw [hrows] at hleft
  -- what is in use by aliases of the identity has just been deleted
  have hfree : Unused v.contents n i.aliasIds := by
    intro other hother
    refine ⟨hbelow other hother, fun r hr heq => ?_⟩
    rw [hleft] at hr
    obtain ⟨hr, hnot⟩ := List.mem_filter.mp hr
    simp [hown r hr ⟨other, hother, heq.symm⟩] at hnot
  obtain ⟨ids, n', w', hwritten, hw', hready', hdrawn⟩ :=
    Alias.exec_mapM h hv hready₂ howner hnodup hfree hroom
  refine ⟨{ id, parts := ids }, n', w', ?_, hw', hready', hdrawn⟩
  have hrun : (updateRows i).exec w = (.ok (1, { id, parts := ids }), w') := by
    unfold updateRows
    rw [hid]
    exact (Action.exec_bind_ok hupdated _).trans
      ((Action.exec_bind_ok hdeleted _).trans
        ((Action.exec_bind_ok hwritten _).trans rfl))
  unfold Adapter.writeOne
  rw [hid]
  exact (Action.exec_bind_ok hrun _).trans rfl

end Success

end Worlds

end Annals
