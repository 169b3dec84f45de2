import Annals.Proofs.Batches
import Annals.Proofs.Integrity

namespace Annals

open Annals.Sql Annals.Stream Annals.Database Annals.Database.Contents

theorem Number.Binary64.toFraction_den {x : Binary64} {n : Int} {d : Nat}
    (h : x.toFraction = some (n, d)) : d ≠ 0 := by
  cases x with
  | infinite | nan => cases h
  | finite negative significand exponent =>
      have hd : (scaled significand 1 (-exponent)).2 = d :=
        congrArg Prod.snd (Option.some.inj h)
      rw [← hd]
      unfold scaled
      split
      · exact Nat.one_ne_zero
      · simp

namespace Database.Cell

theorem equals_eq_true {cell : Cell} {n : Int64} :
    cell.equals n = true ↔ ∃ d, d ≠ 0 ∧
      cell.fraction? = some (n.toInt * (d : Nat), d) := by
  unfold equals
  cases hfraction : cell.fraction? with
  | none => simp
  | some fraction =>
      obtain ⟨a, d⟩ := fraction
      have hd : d ≠ 0 := by
        cases cell with
        | integer =>
            cases hfraction
            exact Nat.one_ne_zero
        | real => exact Number.Binary64.toFraction_den hfraction
        | null | text | garbled | blob => cases hfraction
      simp [hd, eq_comm]

theorem eq_of_equals {cell : Cell} {n m : Int64} (hn : cell.equals n = true)
    (hm : cell.equals m = true) : n = m := by
  obtain ⟨d, hd, hn⟩ := equals_eq_true.mp hn
  obtain ⟨d', -, hm⟩ := equals_eq_true.mp hm
  obtain ⟨heq, rfl⟩ := Prod.mk.inj (Option.some.inj (hn.symm.trans hm))
  exact Int64.toInt_inj.mp
    (Int.eq_of_mul_eq_mul_right (by exact_mod_cast hd) heq)

theorem key?_eq_of_equals {cell : Cell} {n key : Int64}
    (h : cell.equals n = true) (hkey : cell.key? = some key) : key = n := by
  cases cell with
  | null | text | garbled | blob => cases h
  | integer m =>
      cases hkey
      simpa using h
  | real x =>
      obtain ⟨d, hd, hfraction⟩ := equals_eq_true.mp h
      have hfraction : x.toFraction = some (n.toInt * d, d) := hfraction
      have hint : x.toInt? = some n.toInt := by
        unfold Number.Binary64.toInt?
        rw [hfraction]
        simp only [Int.mul_emod_left, if_pos,
          Int.mul_ediv_cancel _ (Int.natCast_ne_zero.mpr hd)]
      -- a real number that equals an integer becomes that integer, but for the
      -- extreme ones
      have hreal : ofReal x = if n = Int64.minValue ∨
          n = Int64.maxValue then real x
          else integer n := by
        unfold ofReal
        rw [hint, Option.bind_some, Number.int64?_eq_some.mpr rfl]
      unfold key? towardInteger at hkey
      dsimp only at hkey
      rw [hreal] at hkey
      split at hkey
      case h_1 m hm =>
        split at hm
        case isTrue => cases hm
        case isFalse =>
          cases hm
          exact (Option.some.inj hkey).symm
      case h_2 => cases hkey

end Database.Cell

namespace Database.Contents

/-- The rows of the aliases that belong to an identity, in the order of their
keys. -/
def aliasRows (c : Contents) (id : Int64) : List StoredRow :=
  (c.table? identityAliases.name).elim [] fun t => t.rows.filter fun r =>
    (Alias.link r).equals id

section Orderly

variable {c : Contents}

theorem aliasRows_eq_of_table {t : StoredTable}
    (ht : c.table? identityAliases.name = some t)
    (id : Int64) : c.aliasRows id = t.rows.filter fun r =>
      (Alias.link r).equals id := by
  unfold aliasRows
  rw [ht]
  rfl

theorem mem_aliasRows {id : Int64} {r : StoredRow} :
    r ∈ c.aliasRows id ↔ ∃ t, c.table? identityAliases.name = some t ∧
      r ∈ t.rows ∧ (Alias.link r).equals id = true := by
  unfold aliasRows
  cases c.table? identityAliases.name <;> simp

theorem Orderly.aliasRows_sorted (hc : c.Orderly) (id : Int64) :
    ((c.aliasRows id).map StoredRow.key).Pairwise (· < ·) := by
  cases ht : c.table? identityAliases.name with
  | none =>
      unfold aliasRows
      rw [ht]
      exact .nil
  | some t =>
      rw [aliasRows_eq_of_table ht]
      exact (hc.ordered t (mem_of_table? ht)).sublist
        (List.filter_sublist.map StoredRow.key)

theorem Orderly.isSome_owner (hc : c.Orderly) {id : Int64} {r : StoredRow}
    (hr : r ∈ c.aliasRows id) : (c.cells? identities.name id).isSome := by
  obtain ⟨t, ht, hr, hequals⟩ := mem_aliasRows.mp hr
  have hblank :=
    hc.laid.ofTable_eq (mem_layouts identityAliases (by decide)) ht
  have hsound := isSound_iff.mp hc.sound t (mem_of_table? ht) r hr
  unfold rowIsSound at hsound
  rw [StoredTable.columns_eq_of_blank hblank] at hsound
  unfold Alias.link at hequals
  rcases hcells : r.cells with _ | ⟨cell, cells⟩
  · rw [hcells] at hequals
    cases hequals
  · rw [hcells] at hequals hsound
    have hrefers : c.refersTo identities.name cell = true :=
      (List.all_eq_true.mp hsound) _ List.mem_cons_self
    rcases refersTo_eq_true.mp hrefers with rfl | ⟨key, u, hkey, hu, hrow⟩
    · cases hequals
    · cases Cell.key?_eq_of_equals hequals hkey
      rw [cells?_eq_of_table hu, Option.isSome_map]
      exact hrow

theorem Orderly.aliasRows_eq_nil (hc : c.Orderly) {id : Int64}
    (hnone : c.cells? identities.name id = none) : c.aliasRows id = [] := by
  refine List.eq_nil_iff_forall_not_mem.mpr fun r hr => ?_
  have howner := hc.isSome_owner hr
  rw [hnone] at howner
  cases howner

/-- The rows of the join that a family makes, given the cells of the identity
and the rows of its aliases. -/
def familyRows (id : Int64) :
    Option (List Cell) → List StoredRow → List ResultRow
  | none, _ => []
  | some cells, [] =>
    [{ place := { key := id }, cells := .integer id :: cells ++
      [.null, .null, .null] }]
  | some cells, rows => rows.map fun r =>
    { place := { key := id, second := some r.key },
      cells := .integer id :: cells ++
        familyCells (.ofTable identityAliases) Alias.ownerColumn r }

def Housed (c : Contents) : Prop :=
  ∀ table ∈ Identity.adapter.tables, (c.table? table.name).isSome

/-- There is no table of identities without one of aliases. -/
def Whole (c : Contents) : Prop :=
  (c.table? identities.name).isSome → (c.table? identityAliases.name).isSome

theorem Whole.housed (h : c.Whole)
    (hidentities : (c.table? identities.name).isSome) : c.Housed := by
  intro table htable
  rcases List.mem_cons.mp htable with rfl | htable
  · exact hidentities
  · rw [List.mem_singleton.mp htable]
    exact h hidentities

theorem familyOf_eq {t u : StoredTable} (ht : t.blank = .ofTable identities)
    (hu : u.blank = .ofTable identityAliases) (r : StoredRow) :
    familyOf t u Alias.ownerColumn r =
      familyRows r.key (some r.cells) (u.rows.filter fun s =>
        (Alias.link s).equals r.key) := by
  have hshown : t.shownCells r = .integer r.key :: r.cells := by
    unfold StoredTable.shownCells
    rw [StoredTable.keyColumn_eq_of_blank ht]
    rfl
  have hcells : familyCells u Alias.ownerColumn =
      familyCells (.ofTable identityAliases) Alias.ownerColumn := by
    funext s
    unfold familyCells
    rw [StoredTable.columns_eq_of_blank hu]
  have hchildren : u.rows.filter
      (fun s => (u.cell s Alias.ownerColumn).equals r.key) =
      u.rows.filter fun s => (Alias.link s).equals r.key := by
    refine List.filter_congr fun s _ => ?_
    rw [StoredTable.cell_eq_of_blank hu, Alias.cell_link]
  unfold familyOf
  rw [hchildren, hshown, hcells, StoredTable.columns_eq_of_blank hu]
  cases u.rows.filter fun s => (Alias.link s).equals r.key with
  | nil => rfl
  | cons s rest => rfl

/-- The query for every identity reads all families, one after the other, and
the query for one identity reads its family. -/
theorem Orderly.read_families (hc : c.Orderly) (hhoused : c.Housed)
    {t : StoredTable} (ht : c.table? identities.name = some t)
    (one : Option EntityId) :
    c.read (Identity.adapter.selection one).1
      (Identity.adapter.selection one).2 =
      .ok ((t.chosen one).flatMap fun r =>
        familyRows r.key (some r.cells) (c.aliasRows r.key)) := by
  obtain ⟨u, hu⟩ := Option.isSome_iff_exists.mp
    (hhoused identityAliases (List.mem_cons_of_mem _ List.mem_cons_self))
  have htblank := hc.laid.ofTable_eq (mem_layouts identities (by decide)) ht
  have hublank :=
    hc.laid.ofTable_eq (mem_layouts identityAliases (by decide)) hu
  have hread : c.read (Identity.adapter.selection one).1
      (Identity.adapter.selection one).2 =
      .ok (selectFamily t u Alias.ownerColumn one.isSome
        (Identity.adapter.selection one).2) := by
    unfold read
    cases one with
    | none | some =>
        simp only [Identity.adapter, table_eq_ok.mpr ht, table_eq_ok.mpr hu]
        rfl
  have hfamily : familyOf t u Alias.ownerColumn =
      fun r => familyRows r.key (some r.cells) (c.aliasRows r.key) := by
    funext r
    rw [familyOf_eq htblank hublank, aliasRows_eq_of_table hu]
  rw [hread]
  unfold selectFamily
  rw [hfamily]
  cases one with
  | none => rfl
  | some id =>
      have hgiven : givenKey [Value.ofId id] = some id.value := rfl
      change Except.ok
        ((t.rows.filter fun r =>
          givenKey [Value.ofId id] == some r.key).flatMap _) = _
      rw [hgiven, (hc.ordered t (mem_of_table? ht)).filter_key]
      rfl

theorem Orderly.read_family (hc : c.Orderly) (hhoused : c.Housed)
    (id : EntityId) :
    c.read (.selectFamily identities identityAliases Alias.ownerColumn true)
      [Value.ofId id] =
      .ok (familyRows id.value (c.cells? identities.name id.value)
        (c.aliasRows id.value)) := by
  obtain ⟨t, ht⟩ :=
    Option.isSome_iff_exists.mp (hhoused identities List.mem_cons_self)
  refine (hc.read_families hhoused ht (some id)).trans (congrArg Except.ok ?_)
  rw [cells?_eq_of_table ht]
  change (t.row? id.value).toList.flatMap _ = _
  cases hrow : t.row? id.value with
  | none => rfl
  | some r => rw [Option.toList_some, List.flatMap_singleton, Option.map_some,
      StoredTable.row?_key hrow]

end Orderly

variable {c c' : Contents}

theorem aliasRows_congr (h :
    c'.table? identityAliases.name = c.table? identityAliases.name)
    (id : Int64) : c'.aliasRows id = c.aliasRows id := by
  unfold aliasRows
  rw [h]

theorem filter_insertRow_of_not {condition : StoredRow → Bool} {row : StoredRow}
    (hrow : condition row = false) (rows : List StoredRow) :
    (StoredTable.insertRow row rows).filter condition =
      rows.filter condition := by
  induction rows with
  | nil =>
      unfold StoredTable.insertRow
      rw [List.filter_cons_of_neg (by simp [hrow])]
  | cons r rest ih =>
      unfold StoredTable.insertRow
      split
      · rw [List.filter_cons_of_neg (by simp [hrow])]
      · rw [List.filter_cons, List.filter_cons, ih]

theorem filter_insertRow_perm {condition : StoredRow → Bool} {row : StoredRow}
    (hrow : condition row = true) (rows : List StoredRow) :
    ((StoredTable.insertRow row rows).filter condition).Perm
      (row :: rows.filter condition) := by
  have hperm := (StoredTable.insertRow_perm row rows).filter condition
  rwa [List.filter_cons_of_pos hrow] at hperm

theorem aliasRows_insert (hc : c.Laid) {owner id : EntityId} {a : Alias}
    {n : Nat} (h : c.insert identityAliases.name (a.values owner id) =
      .ok (n, c')) :
    (c'.aliasRows owner.value).Perm
        ({ key := id.value,
           cells := [.integer owner.value, .text a.name, .text a.email] } ::
          c.aliasRows owner.value) ∧
      ∀ other, other ≠ owner.value →
        c'.aliasRows other = c.aliasRows other := by
  obtain ⟨t, cells, ht, -, hcells, -, rfl⟩ :=
    hc.insert_eq_ok (mem_layouts identityAliases (by decide)) (by decide) h
  cases hcells.symm.trans (Alias.drawn_values owner a)
  simp only [aliasRows_eq_of_table ht,
    aliasRows_eq_of_table (table?_put_self ht (StoredTable.blank_add _ _))]
  refine ⟨filter_insertRow_perm ?_ t.rows, fun other hother =>
    filter_insertRow_of_not ?_ t.rows⟩
  · exact (Cell.integer_equals owner.value owner.value).trans
      (decide_eq_true rfl)
  · exact (Cell.integer_equals owner.value other).trans
      (decide_eq_false hother.symm)

theorem aliasRows_delete (hc : c.Laid) {id : EntityId} {n : Nat}
    (h : c.delete identityAliases.name Alias.ownerColumn [Value.ofId id] =
      .ok (n, c')) :
    c'.aliasRows id.value = [] ∧ ∀ other, other ≠ id.value →
      c'.aliasRows other = c.aliasRows other := by
  obtain ⟨t, ht, -, rfl⟩ := delete_eq_ok h
  have hblank := hc.ofTable_eq (mem_layouts identityAliases (by decide)) ht
  have hhits : hits t Alias.ownerColumn [Value.ofId id] = fun r =>
      (Alias.link r).equals id.value := by
      funext r
      change (t.cell r Alias.ownerColumn).equals id.value = _
      rw [StoredTable.cell_eq_of_blank hblank, Alias.cell_link]
  simp only [aliasRows_eq_of_table ht,
    aliasRows_eq_of_table (table?_put_self ht (StoredTable.blank_remove _ _))]
  unfold StoredTable.remove
  rw [hhits]
  refine ⟨List.filter_eq_nil_iff.mpr fun r hr => by
    simpa using (List.mem_filter.mp hr).2,
      fun other hother => ?_⟩
  rw [List.filter_filter]
  refine List.filter_congr fun r _ => ?_
  cases hequals : (Alias.link r).equals other with
  | false => rfl
  | true =>
      cases hid : (Alias.link r).equals id.value with
      | false => simp [hid]
      | true => exact absurd (Cell.eq_of_equals hequals hid) hother

end Database.Contents

def Alias.row (owner : EntityId) (a : Alias) : StoredRow :=
  { key := Record.idValue a,
    cells := [.integer owner.value, .text a.name, .text a.email] }

/-- The family of an identity in the contents consists of its row and of one row
for each alias, all under the identifiers that they have. -/
def Identity.FamilyIn (c : Contents) (i : Identity) : Prop :=
  ∃ id, Record.id? i = some id ∧ (∀ a ∈ i.aliases, (Record.id? a).isSome) ∧
    c.cells? identities.name id.value = i.kept ∧
    (c.aliasRows id.value).Perm (i.aliases.map (Alias.row id))

def FamilyKept (id : Int64) (c c' : Contents) : Prop :=
  c'.cells? identities.name id = c.cells? identities.name id ∧
    c'.aliasRows id = c.aliasRows id

theorem FamilyKept.trans {id : Int64} {c c' c'' : Contents}
    (h : FamilyKept id c c') (h' : FamilyKept id c' c'') :
    FamilyKept id c c'' := ⟨h'.1.trans h.1, h'.2.trans h.2⟩

theorem Identity.FamilyIn.of_kept {c c' : Contents} {i : Identity}
    (h : i.FamilyIn c)
    (hkept : ∀ id, Record.id? i = some id → FamilyKept id.value c c') :
    i.FamilyIn c' := by
  obtain ⟨id, hid, hset, hcells, haliases⟩ := h
  obtain ⟨hcells', haliases'⟩ := hkept id hid
  exact ⟨id, hid, hset, hcells'.trans hcells, haliases'.symm ▸ haliases⟩

section Worlds

variable {σ ω : Type} [Backed σ] {w w' : World σ ω}

theorem Alias.aliasRows_of_insertRow {owner id : EntityId} {a : Alias}
    (h : (insertRow owner a).exec w = (.ok id, w')) (hlaid : w.contents.Laid) :
    (w'.contents.aliasRows owner.value).Perm
        (Alias.row owner (Record.keyed a id) :: w.contents.aliasRows
          owner.value) ∧
      ∀ other, other ≠ owner.value →
        w'.contents.aliasRows other = w.contents.aliasRows other := by
  obtain ⟨v, n, hlaid', htables, hexecute⟩ := exists_drawn h hlaid
  have hkept := aliasRows_congr (htables identityAliases (by decide))
  obtain ⟨locked, hchange⟩ := change_of_execute hexecute
  obtain ⟨hown, hothers⟩ := aliasRows_insert hlaid' hchange
  rw [hkept] at hown
  exact ⟨hown, fun other hother => (hothers other hother).trans (hkept other)⟩

theorem Alias.aliasRows_of_mapM {owner : EntityId} {as : List Alias}
    {ids : List EntityId}
    (h : (as.mapM (insertRow owner)).exec w = (.ok ids, w'))
    (hlaid : w.contents.Laid) :
    (w'.contents.aliasRows owner.value).Perm
        ((List.zipWith Record.keyed as ids).map (Alias.row owner) ++
          w.contents.aliasRows owner.value) ∧
      ∀ other, other ≠ owner.value →
        w'.contents.aliasRows other = w.contents.aliasRows other := by
  induction as generalizing ids w with
  | nil =>
      cases h
      exact ⟨.refl _, fun _ _ => rfl⟩
  | cons a as ih =>
      obtain ⟨id, v, rest, hone, hrest, rfl⟩ := Action.exec_mapM_cons_eq_ok.mp h
      obtain ⟨hrow, hothers⟩ := aliasRows_of_insertRow hone hlaid
      obtain ⟨hrows, hothers'⟩ := ih hrest (rowSet_of_insertRow hone hlaid).1
      refine ⟨?_, fun other hother =>
        (hothers' other hother).trans (hothers other hother)⟩
      refine hrows.trans ((hrow.append_left _).trans ?_)
      exact List.perm_middle

/-- What it means that an identity has been written: its family is set, and all
others are kept. -/
structure FamilySet (i : Identity) (id : EntityId)
    (c c' : Contents) : Prop where
  own : i.FamilyIn c'
  others : ∀ other, other ≠ id.value → FamilyKept other c c'

theorem Identity.familySet {i : Identity} {keys : Keys} {v : World σ ω}
    {cells : List Cell} (hlaid : v.contents.Laid) (hkept : i.kept = some cells)
    (hset : RowSet identities keys.id cells w.contents v.contents)
    (hnone : v.contents.aliasRows keys.id.value = [])
    (hothers : ∀ other, other ≠ keys.id.value →
      v.contents.aliasRows other = w.contents.aliasRows other)
    (haliases : (i.aliases.mapM (Alias.insertRow keys.id)).exec v =
      (.ok keys.parts, w')) :
    FamilySet (Script.Subject.identity.keyed i keys) keys.id w.contents
      w'.contents := by
  obtain ⟨hrows, hrest⟩ := Alias.aliasRows_of_mapM haliases hlaid
  have hset' := hset.rowsKept (Alias.stored_of_mapM haliases hlaid).2.1
  rw [hnone, List.append_nil] at hrows
  refine ⟨⟨keys.id, rfl, fun a ha => ?_, ?_, hrows⟩,
    fun other hother => ⟨hset'.2 other hother, ?_⟩⟩
  · have hzip : a ∈ List.zipWith Record.keyed i.aliases keys.parts := ha
    rw [← List.map_uncurry_zip_eq_zipWith] at hzip
    obtain ⟨p, -, rfl⟩ := List.mem_map.mp hzip
    rfl
  · rw [hset'.1]
    exact hkept.symm
  · exact (hrest other hother).trans (hothers other hother)

theorem Identity.familySet_of_writeOne {i : Identity} {keys : Keys}
    (h : (adapter.writeOne i).exec w = (.ok keys, w'))
    (hw : w.contents.Orderly) :
    FamilySet (Script.Subject.identity.keyed i keys) keys.id w.contents
      w'.contents := by
  obtain ⟨v, hlaid, hset, haliases, hcleared⟩ := exists_headed h hw.laid
  have hrows : v.contents.aliasRows keys.id.value = [] ∧
      ∀ other, other ≠ keys.id.value →
      v.contents.aliasRows other = w.contents.aliasRows other := by
    rcases hcleared with ⟨hfree, htable⟩ | ⟨u, n, hlaid₁, htable, hdelete⟩
    · -- the identifier was free, so nothing can have belonged to it
      have hkept := aliasRows_congr htable
      exact ⟨(hkept keys.id.value).trans (hw.aliasRows_eq_nil hfree),
        fun other _ => hkept other⟩
    · obtain ⟨locked, hchange⟩ := change_of_execute hdelete
      obtain ⟨hnone, hothers⟩ := aliasRows_delete hlaid₁ hchange
      exact ⟨hnone, fun other hother =>
        (hothers other hother).trans (aliasRows_congr htable other)⟩
  exact familySet hlaid rfl hset hrows.1 hrows.2 haliases

theorem Identity.isSome_of_writeOne {i : Identity} {keys : Keys}
    (h : (adapter.writeOne i).exec w = (.ok keys, w'))
    (hlaid : w.contents.Laid) :
    (w.contents.table? identities.name).isSome := by
  rcases Adapter.writeOne_eq_ok h with ⟨-, hinsert⟩ | ⟨id, hid, hupdate⟩
  · obtain ⟨u, v, n, hid, hexecute, -⟩ := insertRows_eq_ok hinsert
    obtain ⟨-, htables⟩ := table?_of_nextId hid hlaid (by decide)
    obtain ⟨locked, hchange⟩ := change_of_execute hexecute
    obtain ⟨t, ht, -⟩ := bind_eq_ok.mp hchange
    rw [← htables identities (by decide), table_eq_ok.mp ht]
    rfl
  · obtain ⟨-, u, v, n, hexecute, -⟩ := updateRows_eq_ok hid hupdate
    obtain ⟨locked, hchange⟩ := change_of_execute hexecute
    obtain ⟨t, ht, -⟩ := bind_eq_ok.mp hchange
    rw [table_eq_ok.mp ht]
    rfl

theorem Identity.writeOne_orderly {i : Identity} {keys : Keys}
    (h : (adapter.writeOne i).exec w = (.ok keys, w'))
    (hwithin : w.store.writing = true) (hw : w.contents.Orderly) :
    w'.store.writing = true ∧ w'.contents.Orderly := by
  have hprogram : Program (Elementary keepsIntegrity)
      (adapter.writeOne i : Action σ ω Keys) :=
    (Script.Subject.writeOne_program .identity i).elementary fun _ hs =>
      hs.keepsIntegrity
  have horderly := hprogram.orderly_within hwithin hw
  rwa [h] at horderly

theorem familyKept_of_mapM {batch : List Identity} {keys : List Keys}
    (h : (batch.mapM Identity.adapter.writeOne).exec w = (.ok keys, w'))
    (hwithin : w.store.writing = true) (hw : w.contents.Orderly) {id : Int64}
    (hother : ∀ k ∈ keys, id ≠ k.id.value) :
    FamilyKept id w.contents w'.contents := by
  induction batch generalizing keys w with
  | nil =>
      cases h
      exact ⟨rfl, rfl⟩
  | cons i batch ih =>
      obtain ⟨k, v, rest, hone, hrest, rfl⟩ := Action.exec_mapM_cons_eq_ok.mp h
      obtain ⟨hwithin', hv⟩ := Identity.writeOne_orderly hone hwithin hw
      exact ((Identity.familySet_of_writeOne hone hw).others id
        (hother k List.mem_cons_self)).trans
        (ih hrest hwithin' hv fun k' hk' =>
          hother k' (List.mem_cons_of_mem k hk'))

/-- The family of every identity of a batch is set, unless a later one took its
place. -/
theorem familyIn_of_mapM {batch : List Identity} {keys : List Keys}
    (h : (batch.mapM Identity.adapter.writeOne).exec w = (.ok keys, w'))
    (hwithin : w.store.writing = true) (hw : w.contents.Orderly)
    {earlier later : List Identity} {i : Identity}
    (hsplit : List.zipWith Script.Subject.identity.keyed batch keys = earlier ++
      i :: later) (hlater : ∀ x ∈ later, Record.id? x ≠ Record.id? i) :
    i.FamilyIn w'.contents := by
  induction batch generalizing keys earlier w with
  | nil => simp at hsplit
  | cons first batch ih =>
      obtain ⟨k, v, rest, hone, hrest, rfl⟩ := Action.exec_mapM_cons_eq_ok.mp h
      obtain ⟨hwithin', hv⟩ := Identity.writeOne_orderly hone hwithin hw
      rw [List.zipWith_cons_cons] at hsplit
      cases earlier with
      | nil =>
          obtain ⟨rfl, rfl⟩ := List.cons.inj hsplit
          refine (Identity.familySet_of_writeOne hone hw).own.of_kept
            fun id hid => ?_
          refine familyKept_of_mapM hrest hwithin' hv fun k' hk' heq => ?_
          have hfits := Script.Subject.fits_of_mapM (s := .identity) hrest
          refine Script.Subject.ne_of_zipWith hfits hlater k' hk' ?_
          rw [hid, EntityId.value_inj.mp heq]
      | cons x earlier => exact ih hrest hwithin' hv (List.cons.inj hsplit).2

/-- What it means that a batch has been written: the families of its identities
are set, those of all others are kept, and so is the integrity of the
contents. -/
structure FamiliesSet (batch : List Identity) (c c' : Contents) : Prop where
  orderly : c'.Orderly
  housed : batch = [] ∧ c' = c ∨ (c.Whole → c.Housed ∧ c'.Housed)
  own : ∀ earlier i later, batch = earlier ++ i :: later →
    (∀ x ∈ later, Record.id? x ≠ Record.id? i) → i.FamilyIn c'
  others : ∀ id : EntityId, (∀ x ∈ batch, Record.id? x ≠ some id) →
    FamilyKept id.value c c'

theorem Identity.familiesSet_of_submit {needed : List Capability} {op : String}
    {batch : List Identity} {written : Written Identity}
    (h : (adapter.submit needed op batch).exec w = (.ok written, w'))
    (hok : written.outcome = .ok ()) (hw : w.contents.Orderly) :
    FamiliesSet written.batch w.contents w'.contents := by
  rcases Script.Subject.written_of_submit (s := .identity) h hok with
    ⟨-, hbatch, rfl⟩ | ⟨keys, hwrite, hfits, hbatch⟩
  · rw [hbatch]
    refine ⟨hw, .inl ⟨rfl, rfl⟩, ?_, fun _ _ => ⟨rfl, rfl⟩⟩
    intro earlier i later hsplit
    simp at hsplit
  · obtain ⟨u, v, hwithin, hu, hwork, hv⟩ := contents_of_write hwrite
    have hwork : (batch.mapM adapter.writeOne).exec u = (.ok keys, v) := hwork
    have hprogram : Program (Plain AdapterStatement)
        (batch.mapM adapter.writeOne : Action σ ω (List Keys)) :=
      Program.mapM (Script.Subject.writeOne_program .identity) batch
    have horderly := (hprogram.elementary fun _ hs =>
      hs.keepsIntegrity).orderly_within hwithin (hu ▸ hw)
    have htables :=
      fun (name : String) (hname : (u.contents.table? name).isSome) =>
        hprogram.isSome_table? hwithin hname
    rw [hwork] at horderly htables
    rw [hbatch, hv, ← hu]
    refine ⟨horderly.2, ?_, fun earlier i later =>
      familyIn_of_mapM hwork hwithin (hu ▸ hw), fun id hother => ?_⟩
    -- only an identity that has been written shows that there is a table for
    -- it
    · cases batch with
      | nil =>
          cases hwork
          exact .inl ⟨rfl, rfl⟩
      | cons i batch =>
          obtain ⟨k, x, rest, hone, -⟩ := Action.exec_mapM_cons_eq_ok.mp hwork
          have hidentities := isSome_of_writeOne hone (hu ▸ hw.laid)
          refine .inr fun hwhole =>
            ⟨hwhole.housed hidentities, fun table htable => ?_⟩
          exact htables _ (hwhole.housed hidentities table htable)
    · refine familyKept_of_mapM hwork hwithin (hu ▸ hw) fun k hk heq => ?_
      refine Script.Subject.ne_of_zipWith hfits hother k hk ?_
      rw [EntityId.value_inj.mp heq]

theorem FamiliesSet.housed_of_split {earlier later : List Identity}
    {i : Identity} {c c' : Contents}
    (h : FamiliesSet (earlier ++ i :: later) c c') (hwhole : c.Whole) :
    c'.Housed := by
  rcases h.housed with ⟨hnil, -⟩ | hhoused
  · simp at hnil
  · exact (hhoused hwhole).2

end Worlds

end Annals
