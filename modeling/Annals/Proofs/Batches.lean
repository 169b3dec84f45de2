import Annals.Proofs.Assignment
import Annals.Proofs.Reachable

namespace Annals

open Annals.Sql Annals.Stream Annals.Database Annals.Database.Contents

/-- The cells of a commit, apart from its key.  There are none if its time
cannot be stored. -/
def Commit.kept (c : Commit) : Option (List Cell) := do
  let committedAt ← c.committedAt.epochNanos?
  return [.text c.revision, c.authorId.elim .null fun id => .integer id.value,
    c.branchId.elim .null fun id => .integer id.value, .integer committedAt,
    .text c.message, .integer c.linesAdded, .integer c.linesRemoved]

def Branch.kept (b : Branch) : Option (List Cell) := do
  let createdAt ← b.createdAt.epochNanos?
  let mergedAt ← match b.mergedAt with
    | none => some .null
    | some t => t.epochNanos?.map .integer
  return [.text b.name, .integer createdAt, mergedAt]

def Identity.kept (i : Identity) : Option (List Cell) :=
  some [.text i.name, i.primaryEmail.elim .null .text]

def Alias.kept (owner : EntityId) (a : Alias) : Option (List Cell) :=
  some [.integer owner.value, .text a.name, .text a.email]

/-- The row of a record is in a table, under the identifier that the record
has. -/
def KeptIn {α : Type} [Record α] (table : Table) (kept : α → Option (List Cell))
    (c : Contents) (r : α) : Prop :=
  ∃ id cells, Record.id? r = some id ∧ kept r = some cells ∧
    c.cells? table.name id.value = some cells

/-- A record is stored under its identifier, and so are its parts under
theirs. -/
def Script.Subject.StoredIn (c : Contents) :
    (s : Script.Subject) → s.Entity → Prop
  | .commit => fun (r : Commit) => KeptIn commits Commit.kept c r
  | .branch => fun (r : Branch) => KeptIn branches Branch.kept c r
  | .identity => fun (r : Identity) => KeptIn identities Identity.kept c r ∧
    ∃ owner, Record.id? r = some owner ∧
      ∀ a ∈ r.aliases, KeptIn identityAliases (Alias.kept owner) c a

/-- One row of a table has got its cells, and the other rows of the table are as
before. -/
def RowSet (table : Table) (id : EntityId) (cells : List Cell)
    (c c' : Contents) : Prop :=
  c'.cells? table.name id.value = some cells ∧
    ∀ other, other ≠ id.value →
      c'.cells? table.name other = c.cells? table.name other

def RowsKept (table : Table) (c c' : Contents) : Prop :=
  ∀ key, c'.cells? table.name key = c.cells? table.name key

theorem RowsKept.of_table {table : Table} {c c' : Contents}
    (h : c'.table? table.name = c.table? table.name) : RowsKept table c c' :=
  fun key => by
  unfold cells?
  rw [h]

theorem RowsKept.trans {table : Table} {c c' c'' : Contents}
    (h : RowsKept table c c') (h' : RowsKept table c' c'') :
    RowsKept table c c'' := fun key => (h' key).trans (h key)

namespace KeptIn

variable {α : Type} [Record α] {table : Table} {kept : α → Option (List Cell)}
    {c c' : Contents} {r : α}

theorem of_rowsKept (h : KeptIn table kept c r) (hrows : RowsKept table c c') :
    KeptIn table kept c' r := by
  obtain ⟨id, cells, hid, hkept, hcells⟩ := h
  exact ⟨id, cells, hid, hkept, (hrows id.value).trans hcells⟩

theorem of_rowSet {id : EntityId} {cells : List Cell}
    (h : KeptIn table kept c r) (hrow : RowSet table id cells c c')
    (hne : Record.id? r ≠ some id) :
    KeptIn table kept c' r := by
  obtain ⟨own, own', hid, hkept, hcells⟩ := h
  refine ⟨own, own', hid, hkept, ?_⟩
  have hother : own.value ≠ id.value := fun heq =>
    hne (hid.trans (congrArg some (EntityId.value_inj.mp heq)))
  rw [hrow.2 own.value hother]
  exact hcells

end KeptIn

theorem RowsKept.rowSet {table : Table} {id : EntityId} {cells : List Cell}
    {c c' c'' : Contents} (h : RowsKept table c c')
    (h' : RowSet table id cells c' c'') :
    RowSet table id cells c c'' :=
  ⟨h'.1, fun other hother => (h'.2 other hother).trans (h other)⟩

theorem RowSet.rowsKept {table : Table} {id : EntityId} {cells : List Cell}
    {c c' c'' : Contents} (h : RowSet table id cells c c')
    (h' : RowsKept table c' c'') :
    RowSet table id cells c c'' :=
  ⟨(h' id.value).trans h.1, fun other hother =>
    (h' other).trans (h.2 other hother)⟩

theorem mem_layouts :
    ∀ table ∈ storeTables, StoredTable.ofTable table ∈ layouts := by decide

theorem isSome_keyColumn :
    ∀ table ∈ storeTables, (StoredTable.ofTable table).keyColumn.isSome := by
  decide

section Statements

variable {σ ω : Type} [Backed σ] {w v w' : World σ ω} {table other : Table}
    {n : Nat}

theorem rewritten_of_insert {params : List Value}
    (h : (Store.execute (.insert table) params).exec w = (.ok n, w')) :
    Rewritten table.name w.contents w'.contents := by
  obtain ⟨locked, hchange⟩ := change_of_execute h
  exact insert_rewritten hchange

theorem rewritten_of_update {params : List Value}
    (h : (Store.execute (.update table) params).exec w = (.ok n, w')) :
    Rewritten table.name w.contents w'.contents := by
  obtain ⟨locked, hchange⟩ := change_of_execute h
  exact update_rewritten hchange

theorem rewritten_of_delete {column : String} {params : List Value}
    (h : (Store.execute (.delete table column) params).exec w = (.ok n, w')) :
    Rewritten table.name w.contents w'.contents := by
  obtain ⟨locked, hchange⟩ := change_of_execute h
  exact delete_rewritten hchange

theorem table?_of_rewritten {c c' : Contents} (h : Rewritten other.name c c')
    (hlaid : c.Laid) (hother : other ∈ storeTables)
    (htable : table ∈ storeTables) (hne : table.name ≠ other.name) :
    c'.table? table.name = c.table? table.name :=
  h.table?_other hlaid (mem_layouts other hother) (ofTable_name other)
    (mem_layouts table htable) (ofTable_name table) hne

theorem table?_of_nextId {entity : String} {id : EntityId}
    (h : (Store.nextId entity).exec w = (.ok id, w')) (hlaid : w.contents.Laid)
    (hentity : .ofSequence (Statement.sequenceName entity) ∈ layouts) :
    w'.contents.Laid ∧
      ∀ table ∈ storeTables,
        w'.contents.table? table.name = w.contents.table? table.name := by
  obtain ⟨values, hadvance⟩ := advance_of_nextId h
  have hrewritten := advance_rewritten hadvance
  refine ⟨hrewritten.laid hlaid, fun table htable => ?_⟩
  exact hrewritten.table?_other hlaid hentity rfl (mem_layouts table htable)
    (ofTable_name table) (ne_sequenceName hentity htable)

theorem rowSet_of_insert {id : EntityId} {values : List Value}
    {cells : List Cell}
    (h : (Store.execute (.insert table) (Value.ofId id :: values)).exec w =
      (.ok n, w')) (hlaid : w.contents.Laid) (htable : table ∈ storeTables)
    (hcells : drawn table.name (StoredTable.ofTable table).columns
      (values.map Cell.ofValue) = .ok cells) :
    w.contents.cells? table.name id.value = none ∧
      RowSet table id cells w.contents w'.contents := by
  obtain ⟨locked, hchange⟩ := change_of_execute h
  obtain ⟨hfree, hset, hothers⟩ :=
    insert_cells? hlaid (mem_layouts table htable)
      (isSome_keyColumn table htable) hchange hcells
  exact ⟨hfree, hset, hothers⟩

theorem rowSet_of_update {id : EntityId} {values : List Value}
    {cells : List Cell}
    (h : (Store.execute (.update table) (values ++ [Value.ofId id])).exec w =
      (.ok 1, w')) (hlaid : w.contents.Laid) (htable : table ∈ storeTables)
    (hcells : drawn table.name (StoredTable.ofTable table).columns
      (values.map Cell.ofValue) = .ok cells) :
    RowSet table id cells w.contents w'.contents := by
  obtain ⟨locked, hchange⟩ := change_of_execute h
  exact update_cells? hlaid (mem_layouts table htable) hchange hcells

/-- The row of a record has been written into its table. -/
structure RowWritten (table : Table) (kept : Option (List Cell)) (id : EntityId)
    (c c' : Contents) :
    Prop where
  laid : c'.Laid
  housed : (c'.table? table.name).isSome = (c.table? table.name).isSome
  set : ∃ cells, kept = some cells ∧ RowSet table id cells c c'

theorem RowWritten.of_insert {entity : String} {id : EntityId}
    {values : List Value} {cells : List Cell}
    (hid : (Store.nextId entity).exec w = (.ok id, v))
    (h : (Store.execute (.insert table) (Value.ofId id :: values)).exec v =
      (.ok n, w')) (hlaid : w.contents.Laid) (htable : table ∈ storeTables)
    (hentity : .ofSequence (Statement.sequenceName entity) ∈ layouts)
    (hcells : drawn table.name (StoredTable.ofTable table).columns
      (values.map Cell.ofValue) =
      .ok cells) : RowWritten table (some cells) id w.contents w'.contents := by
  obtain ⟨hlaid', htables⟩ := table?_of_nextId hid hlaid hentity
  have hrewritten := rewritten_of_insert h
  obtain ⟨-, hset⟩ := rowSet_of_insert h hlaid' htable hcells
  refine ⟨hrewritten.laid hlaid', ?_, cells, rfl,
    (RowsKept.of_table (htables table htable)).rowSet hset⟩
  rw [hrewritten.isSome_table?, htables table htable]

theorem RowWritten.of_update {id : EntityId} {values : List Value}
    {cells : List Cell}
    (h : (Store.execute (.update table) (values ++ [Value.ofId id])).exec w =
      (.ok 1, w')) (hlaid : w.contents.Laid) (htable : table ∈ storeTables)
    (hcells : drawn table.name (StoredTable.ofTable table).columns
      (values.map Cell.ofValue) =
      .ok cells) : RowWritten table (some cells) id w.contents w'.contents where
  laid := (rewritten_of_update h).laid hlaid
  housed := (rewritten_of_update h).isSome_table?
  set := ⟨cells, rfl, rowSet_of_update h hlaid htable hcells⟩

end Statements

theorem Commit.drawn_payload {c : Commit} {values : List Value}
    (h : c.payload = .ok values) :
    ∃ cells, c.kept = some cells ∧
      drawn commits.name (StoredTable.ofTable commits).columns
        (values.map Cell.ofValue) = .ok cells := by
  unfold payload Value.ofInstant at h
  unfold kept
  cases htime : c.committedAt.epochNanos? with
  | none =>
      rw [htime] at h
      cases h
  | some nanos =>
      rw [htime] at h
      cases h
      refine ⟨_, rfl, ?_⟩
      rcases c.authorId with _ | author <;> rcases c.branchId
        with _ | branch <;> rfl

theorem Branch.drawn_values {b : Branch} {created merged : Value}
    (hcreated : Value.ofInstant b.createdAt = .ok created)
    (hmerged : Value.ofOptionalInstant b.mergedAt = .ok merged) :
    ∃ cells, b.kept = some cells ∧
      drawn branches.name (StoredTable.ofTable branches).columns
        ([.text b.name, created, merged].map Cell.ofValue) = .ok cells := by
  unfold Value.ofInstant at hcreated
  unfold kept
  cases htime : b.createdAt.epochNanos? with
  | none =>
      rw [htime] at hcreated
      cases hcreated
  | some nanos =>
      rw [htime] at hcreated
      cases hcreated
      rcases hmergedAt : b.mergedAt with _ | t
      · rw [hmergedAt] at hmerged
        cases hmerged
        exact ⟨_, rfl, rfl⟩
      · rw [hmergedAt] at hmerged
        unfold Value.ofOptionalInstant Value.ofInstant at hmerged
        cases htime' : t.epochNanos? with
        | none =>
            simp only [htime'] at hmerged
            cases hmerged
        | some nanos' =>
            simp only [htime'] at hmerged
            cases hmerged
            simp only [htime']
            exact ⟨_, rfl, rfl⟩

theorem Identity.drawn_values (i : Identity) :
    drawn identities.name (StoredTable.ofTable identities).columns
      ([.text i.name, Value.ofOption Value.text i.primaryEmail].map
        Cell.ofValue) =
        .ok [.text i.name, i.primaryEmail.elim .null .text] := by
  rcases i.primaryEmail with _ | email <;> rfl

theorem Alias.drawn_values (owner : EntityId) (a : Alias) :
    drawn identityAliases.name (StoredTable.ofTable identityAliases).columns
      ([Value.ofId owner, .text a.name, .text a.email].map Cell.ofValue) =
        .ok [.integer owner.value, .text a.name, .text a.email] := rfl

def Alias.link (r : StoredRow) : Cell := (r.cells[0]?).getD .null

theorem Alias.cell_link (r : StoredRow) :
    (StoredTable.ofTable identityAliases).cell r ownerColumn = link r := by
  have hcolumn : (StoredTable.ofTable identityAliases).isKeyColumn ownerColumn =
      false := by
    decide
  have hposition : (StoredTable.ofTable identityAliases).position? ownerColumn =
      some 0 := by
    decide
  unfold StoredTable.cell
  rw [hcolumn, hposition]
  rfl

/-- What it means that a record of a batch has been written under some
identifiers. -/
structure Placed (s : Script.Subject) (r : s.Entity) (keys : Keys)
    (c c' : Contents) : Prop where
  laid : c'.Laid
  stored : s.StoredIn c' (s.keyed r keys)
  frame : ∀ x, s.StoredIn c x → Record.id? x ≠ some keys.id → s.StoredIn c' x

section Records

variable {σ ω : Type} [Backed σ] {w w' : World σ ω}

theorem Commit.rowWritten_of_writeOne {c : Commit} {keys : Keys}
    (h : (adapter.writeOne c).exec w = (.ok keys, w'))
    (hlaid : w.contents.Laid) :
    RowWritten commits c.kept keys.id w.contents w'.contents := by
  rcases Adapter.writeOne_eq_ok h with ⟨-, hinsert⟩ | ⟨id, hid, hupdate⟩
  · obtain ⟨v, values, n, hid, hvalues, hexecute⟩ := insertRow_eq_ok hinsert
    obtain ⟨cells, hkept, hcells⟩ := drawn_payload hvalues
    exact hkept ▸ .of_insert hid hexecute hlaid (by decide) (by decide) hcells
  · obtain ⟨rfl, values, hvalues, hexecute⟩ := updateRow_eq_ok hid hupdate
    obtain ⟨cells, hkept, hcells⟩ := drawn_payload hvalues
    exact hkept ▸ .of_update hexecute hlaid (by decide) hcells

theorem Branch.rowWritten_of_writeOne {b : Branch} {keys : Keys}
    (h : (adapter.writeOne b).exec w = (.ok keys, w'))
    (hlaid : w.contents.Laid) :
    RowWritten branches b.kept keys.id w.contents w'.contents := by
  rcases Adapter.writeOne_eq_ok h with ⟨-, hinsert⟩ | ⟨id, -, hupdate⟩
  · obtain ⟨v, created, merged, n, hid, hcreated, hmerged, hexecute⟩ :=
      insertRow_eq_ok hinsert
    obtain ⟨cells, hkept, hcells⟩ := drawn_values hcreated hmerged
    exact hkept ▸ .of_insert hid hexecute hlaid (by decide) (by decide) hcells
  · cases hupdate

theorem Alias.exists_drawn {owner id : EntityId} {a : Alias}
    (h : (insertRow owner a).exec w = (.ok id, w')) (hlaid : w.contents.Laid) :
    ∃ (v : World σ ω) (n : Nat), v.contents.Laid ∧
      (∀ table ∈ storeTables, v.contents.table? table.name =
        w.contents.table? table.name) ∧
      (Store.execute (.insert identityAliases) (a.values owner id)).exec v =
        (.ok n, w') := by
  obtain ⟨v, n, hid, hexecute⟩ := insertRow_eq_ok h
  rcases hid with ⟨-, rfl⟩ | ⟨-, hid⟩
  · exact ⟨v, n, hlaid, fun _ _ => rfl, hexecute⟩
  · obtain ⟨hlaid', htables⟩ := table?_of_nextId hid hlaid (by decide)
    exact ⟨v, n, hlaid', htables, hexecute⟩

theorem Alias.rowSet_of_insertRow {owner id : EntityId} {a : Alias}
    (h : (insertRow owner a).exec w = (.ok id, w')) (hlaid : w.contents.Laid) :
    w'.contents.Laid ∧ RowsKept identities w.contents w'.contents ∧
      w.contents.cells? identityAliases.name id.value = none ∧
      ∃ cells, a.kept owner = some cells ∧
        RowSet identityAliases id cells w.contents w'.contents := by
  obtain ⟨v, n, hlaid', htables, hexecute⟩ := exists_drawn h hlaid
  have haliases := RowsKept.of_table (htables identityAliases (by decide))
  obtain ⟨hfree, hset⟩ :=
    rowSet_of_insert hexecute hlaid' (by decide) (drawn_values owner a)
  have hrewritten := rewritten_of_insert hexecute
  refine ⟨hrewritten.laid hlaid', .of_table ?_, ?_, _, rfl,
    haliases.rowSet hset⟩
  · exact (table?_of_rewritten hrewritten hlaid' (by decide) (by decide)
      (by decide)).trans (htables identities (by decide))
  · rw [← haliases id.value]
    exact hfree

theorem Alias.stored_of_mapM {owner : EntityId} {as : List Alias}
    {ids : List EntityId}
    (h : (as.mapM (insertRow owner)).exec w = (.ok ids, w'))
    (hlaid : w.contents.Laid) :
    w'.contents.Laid ∧ RowsKept identities w.contents w'.contents ∧
      (∀ key cells, w.contents.cells? identityAliases.name key = some cells →
        w'.contents.cells? identityAliases.name key = some cells) ∧
      ∀ a ∈ List.zipWith Record.keyed as ids,
        KeptIn identityAliases (Alias.kept owner) w'.contents a := by
  induction as generalizing ids w with
  | nil =>
      cases h
      refine ⟨hlaid, fun _ => rfl, fun _ _ hcells => hcells, ?_⟩
      intro a ha
      cases ha
  | cons a as ih =>
      obtain ⟨id, v, rest, hone, hrest, rfl⟩ := Action.exec_mapM_cons_eq_ok.mp h
      obtain ⟨hlaid', hidentities, hfree, cells, hkept, hset⟩ :=
        rowSet_of_insertRow hone hlaid
      obtain ⟨hlaid'', hidentities', hrows, hstored⟩ := ih hrest hlaid'
      refine ⟨hlaid'', hidentities.trans hidentities', ?_, ?_⟩
      · intro key own hown
        have hne : key ≠ id.value := by
          rintro rfl
          rw [hfree] at hown
          cases hown
        exact hrows key own ((hset.2 key hne).trans hown)
      · intro a' ha'
        rw [List.zipWith_cons_cons] at ha'
        rcases List.mem_cons.mp ha' with rfl | ha'
        · exact ⟨id, cells, rfl, hkept, hrows id.value cells hset.1⟩
        · exact hstored a' ha'

theorem Alias.keptIn_of_delete {owner id : EntityId} {n : Nat} {a : Alias}
    (h : (Store.execute (.delete identityAliases ownerColumn)
      [Value.ofId id]).exec w = (.ok n, w'))
    (hlaid : w.contents.Laid) (hne : owner ≠ id)
    (ha : KeptIn identityAliases (Alias.kept owner) w.contents a) :
    KeptIn identityAliases (Alias.kept owner) w'.contents a := by
  obtain ⟨locked, hchange⟩ := change_of_execute h
  obtain ⟨own, cells, hid, hkept, hcells⟩ := ha
  refine ⟨own, cells, hid, hkept, ?_⟩
  cases hkept
  refine delete_cells? hlaid (mem_layouts identityAliases (by decide)) hchange
    hcells ?_
  have hvalues : owner.value ≠ id.value :=
    fun heq => hne (EntityId.value_inj.mp heq)
  rw [cell_link]
  exact (Cell.integer_equals owner.value id.value).trans
    (decide_eq_false hvalues)

theorem Identity.placed {i : Identity} {keys : Keys} {v : World σ ω}
    (hlaid : v.contents.Laid)
    (hset : RowSet identities keys.id
      [.text i.name, i.primaryEmail.elim .null .text] w.contents v.contents)
    (hothers : ∀ (owner : EntityId) (a : Alias), owner ≠ keys.id →
      KeptIn identityAliases (Alias.kept owner) w.contents a →
      KeptIn identityAliases (Alias.kept owner) v.contents a)
    (haliases : (i.aliases.mapM (Alias.insertRow keys.id)).exec v =
      (.ok keys.parts, w')) :
    Placed .identity i keys w.contents w'.contents := by
  obtain ⟨hlaid', hidentities, hrows, hstored⟩ :=
    Alias.stored_of_mapM haliases hlaid
  have hset' := hset.rowsKept hidentities
  refine ⟨hlaid', ⟨⟨keys.id, _, rfl, rfl, hset'.1⟩, keys.id, rfl, hstored⟩, ?_⟩
  rintro x ⟨hx, owner, howner, hparts⟩ hne
  refine ⟨hx.of_rowSet hset' hne, owner, howner, fun a ha => ?_⟩
  have hother : owner ≠ keys.id := fun heq => hne (heq ▸ howner)
  obtain ⟨id, cells, hid, hkept, hcells⟩ := hothers owner a hother (hparts a ha)
  exact ⟨id, cells, hid, hkept, hrows id.value cells hcells⟩

/-- The row of an identity is written before its aliases.  In between no aliases
are left from before: either there was no identity with its identifier, or its
aliases have just been deleted. -/
theorem Identity.exists_headed {i : Identity} {keys : Keys}
    (h : (adapter.writeOne i).exec w = (.ok keys, w'))
    (hlaid : w.contents.Laid) :
    ∃ v : World σ ω, v.contents.Laid ∧
      RowSet identities keys.id [.text i.name, i.primaryEmail.elim .null .text]
        w.contents v.contents ∧
      (i.aliases.mapM (Alias.insertRow keys.id)).exec v = (.ok keys.parts, w') ∧
      (w.contents.cells? identities.name keys.id.value = none ∧
          v.contents.table? identityAliases.name =
            w.contents.table? identityAliases.name ∨
        ∃ (u : World σ ω) (n : Nat), u.contents.Laid ∧
          u.contents.table? identityAliases.name =
            w.contents.table? identityAliases.name ∧
          (Store.execute (.delete identityAliases Alias.ownerColumn)
            [Value.ofId keys.id]).exec u = (.ok n, v)) := by
  rcases Adapter.writeOne_eq_ok h with ⟨-, hinsert⟩ | ⟨id, hid, hupdate⟩
  · obtain ⟨u, v, n, hid, hexecute, haliases⟩ := insertRows_eq_ok hinsert
    obtain ⟨hlaid₁, htables⟩ := table?_of_nextId hid hlaid (by decide)
    have hidentities := RowsKept.of_table (htables identities (by decide))
    obtain ⟨hfree, hset⟩ :=
      rowSet_of_insert hexecute hlaid₁ (by decide) (drawn_values i)
    have hrewritten := rewritten_of_insert hexecute
    refine ⟨v, hrewritten.laid hlaid₁, hidentities.rowSet hset, haliases,
      .inl ⟨?_, ?_⟩⟩
    · rw [← hidentities keys.id.value]
      exact hfree
    · exact (table?_of_rewritten hrewritten hlaid₁ (by decide) (by decide)
        (by decide)).trans (htables identityAliases (by decide))
  · obtain ⟨rfl, u, v, n, hexecute, hdelete, haliases⟩ :=
      updateRows_eq_ok hid hupdate
    have hset := rowSet_of_update hexecute hlaid (by decide) (drawn_values i)
    have hrewritten := rewritten_of_update hexecute
    have hlaid₁ := hrewritten.laid hlaid
    have hrewritten' := rewritten_of_delete hdelete
    have hidentities : RowsKept identities u.contents v.contents :=
      .of_table (table?_of_rewritten hrewritten' hlaid₁ (by decide) (by decide)
        (by decide))
    exact ⟨v, hrewritten'.laid hlaid₁, hset.rowsKept hidentities, haliases,
      .inr ⟨u, n, hlaid₁, table?_of_rewritten hrewritten hlaid (by decide)
        (by decide) (by decide), hdelete⟩⟩

theorem Identity.placed_of_writeOne {i : Identity} {keys : Keys}
    (h : (adapter.writeOne i).exec w = (.ok keys, w'))
    (hlaid : w.contents.Laid) :
    Placed .identity i keys w.contents w'.contents := by
  obtain ⟨v, hlaid', hset, haliases, hcleared⟩ := exists_headed h hlaid
  refine placed hlaid' hset (fun owner a hne ha => ?_) haliases
  rcases hcleared with ⟨-, htable⟩ | ⟨u, n, hlaid₁, htable, hdelete⟩
  · exact ha.of_rowsKept (.of_table htable)
  · exact Alias.keptIn_of_delete hdelete hlaid₁ hne
      (ha.of_rowsKept (.of_table htable))

theorem placed_of_writeOne {s : Script.Subject} {r : s.Entity} {keys : Keys}
    (h : (s.adapter.writeOne r).exec w = (.ok keys, w'))
    (hlaid : w.contents.Laid) :
    Placed s r keys w.contents w'.contents := by
  cases s with
  | commit =>
      obtain ⟨hlaid', -, cells, hkept, hset⟩ :=
        Commit.rowWritten_of_writeOne h hlaid
      exact ⟨hlaid', ⟨keys.id, cells, rfl, hkept, hset.1⟩, fun x hx hne =>
        hx.of_rowSet hset hne⟩
  | branch =>
      obtain ⟨hlaid', -, cells, hkept, hset⟩ :=
        Branch.rowWritten_of_writeOne h hlaid
      exact ⟨hlaid', ⟨keys.id, cells, rfl, hkept, hset.1⟩, fun x hx hne =>
        hx.of_rowSet hset hne⟩
  | identity => exact Identity.placed_of_writeOne h hlaid

theorem storedIn_of_mapM {s : Script.Subject} {batch : List s.Entity}
    {keys : List Keys}
    (h : (batch.mapM s.adapter.writeOne).exec w = (.ok keys, w'))
    (hlaid : w.contents.Laid) {x : s.Entity} (hx : s.StoredIn w.contents x)
    (hne : ∀ k ∈ keys, Record.id? x ≠ some k.id) :
    s.StoredIn w'.contents x := by
  induction batch generalizing keys w with
  | nil =>
      cases h
      exact hx
  | cons r batch ih =>
      obtain ⟨k, v, rest, hone, hrest, rfl⟩ := Action.exec_mapM_cons_eq_ok.mp h
      have hplaced := placed_of_writeOne hone hlaid
      refine ih hrest hplaced.laid ?_ fun k' hk' =>
        hne k' (List.mem_cons_of_mem k hk')
      exact hplaced.frame x hx (hne k List.mem_cons_self)

/-- Every record of a batch that has been written is stored, unless a later one
took its place. -/
theorem storedIn_of_writeBatch {s : Script.Subject} {batch : List s.Entity}
    {keys : List Keys}
    (h : (batch.mapM s.adapter.writeOne).exec w = (.ok keys, w'))
    (hlaid : w.contents.Laid) {earlier later : List s.Entity} {r : s.Entity}
    (hsplit : List.zipWith s.keyed batch keys = earlier ++ r :: later)
    (hlater : ∀ x ∈ later, Record.id? x ≠ Record.id? r) :
    s.StoredIn w'.contents r := by
  induction batch generalizing keys earlier w with
  | nil => simp at hsplit
  | cons first batch ih =>
      obtain ⟨k, v, rest, hone, hrest, rfl⟩ := Action.exec_mapM_cons_eq_ok.mp h
      have hplaced := placed_of_writeOne hone hlaid
      rw [List.zipWith_cons_cons] at hsplit
      cases earlier with
      | nil =>
          obtain ⟨rfl, rfl⟩ := List.cons.inj hsplit
          exact storedIn_of_mapM hrest hplaced.laid hplaced.stored
            (Script.Subject.ne_of_zipWith
              (Script.Subject.fits_of_mapM hrest) hlater)
      | cons x earlier => exact ih hrest hplaced.laid (List.cons.inj hsplit).2

def Script.Subject.Atomic (s : Script.Subject) (batch : List s.Entity)
    (w : World σ ω) (writing : Action σ ω (Written s.Entity)) : Prop :=
  ∃ written w', writing.exec w = (.ok written, w') ∧
    match written.outcome with
    | .error _ => w'.contents = w.contents ∧ written.batch = batch
    | .ok () =>
      List.Forall₂ s.Filled batch written.batch ∧
        ∀ earlier r later, written.batch = earlier ++ r :: later →
          (∀ x ∈ later, Record.id? x ≠ Record.id? r) → s.StoredIn w'.contents r

theorem Script.Subject.atomic_submit (s : Script.Subject)
    (needed : List Capability) (op : String)
    (batch : List s.Entity) {w : World σ ω}
    (houtermost : w.store.writing = false) (hlaid : w.contents.Laid) :
    s.Atomic batch w (s.adapter.submit needed op batch) := by
  have h := submitted_submit s needed op batch w
  rcases hrun : (s.adapter.submit needed op batch).exec w with ⟨outcome, w'⟩
  rw [hrun] at h
  cases h with
  | refused f => exact ⟨_, w, hrun, rfl, rfl⟩
  | empty hbatch =>
      subst hbatch
      exact ⟨_, w, hrun, .nil, fun earlier r later hsplit => by simp at hsplit⟩
  | stopped hwrite =>
      have hwork : Program (Elementary AdapterStatement)
          (batch.mapM s.adapter.writeOne :
          Action σ ω (List Keys)) :=
        (Program.mapM (writeOne_program s) batch).elementary fun _ h => h
      exact ⟨_, w', hrun, contents_of_write_error hwork houtermost hwrite, rfl⟩
  | @written keys _ hwrite hfits =>
      obtain ⟨u, v, -, hu, hwork, hv⟩ := contents_of_write_ok houtermost hwrite
      refine ⟨_, w', hrun, ?_, ?_⟩
      · exact Record.forall₂_zipWith (fun r keys (hone : s.Fits r keys) =>
          hone.filled) hfits
      · intro earlier r later hsplit hlater
        rw [hv]
        exact storedIn_of_writeBatch hwork (by rwa [hu]) hsplit hlater

/-- Saving and updating a batch, outside of other writes and whatever calls
fail, either leaves the database and the records as they were, or gives all
records and their parts the identifiers under which they are stored; and once a
batch has been written, its identifiers are never refused. -/
theorem Script.Subject.atomic_batches (s : Script.Subject)
    (batch : List s.Entity) {w : World σ ω}
    (houtermost : w.store.writing = false)
    (hreach : Database.Reachable w.database) :
    s.Atomic batch w (s.adapter.save batch) ∧
      s.Atomic batch w (s.adapter.updateAll batch) ∧
      ∀ (op : String) (keys : List Keys) (w' : World σ ω),
        (Store.write op s.adapter.entity (batch.mapM s.adapter.writeOne)).exec
          w = (.ok keys, w') →
          (Record.fillEach s.adapter.assign batch keys).1 = .ok () := by
  refine ⟨s.atomic_submit _ _ batch houtermost hreach.laid,
    s.atomic_submit _ _ batch houtermost hreach.laid, ?_⟩
  intro op keys w' hwrite
  obtain ⟨u, v, hwork⟩ := Store.work_of_write_ok hwrite
  rw [Record.fillEach_eq (fun r key (hone : s.Fits r key) => hone.assign_eq)
    (fits_of_mapM hwork)]

end Records

theorem Written.exists_of_map {α σ ω : Type}
    {after : Except Stop (Written α) × World σ ω}
    {outcome : Except Stop Unit} {batch : List α}
    (h : after.1.toOption.map
      (fun written => (written.outcome, written.batch)) =
      some (outcome, batch)) :
    ∃ written w', after = (.ok written, w') ∧ written.outcome = outcome ∧
      written.batch = batch := by
  rcases after with ⟨_ | written, w'⟩
  · cases h
  · obtain ⟨houtcome, hbatch⟩ := Prod.mk.inj (Option.some.inj h)
    exact ⟨written, w', rfl, houtcome, hbatch⟩

def fresh : World (Scripted Database) Unit :=
  { store := Store.ofSession { inner := {} } {}, memory := () }

def World.armed {σ ω : Type} (w : World (Scripted σ) ω) (fault : Fault) :
    World (Scripted σ) ω :=
  w.withSession (w.store.session.arm fault)

theorem World.database_armed {σ ω : Type} [Backed σ] (w : World (Scripted σ) ω)
    (fault : Fault) :
    (w.armed fault).database = w.database := rfl

/-- A world with the tables of identities, in which the second row of an alias
is refused. -/
def faulty : World (Scripted Database) Unit :=
  (Identity.adapter.createScheme.exec fresh).2.armed
    { fragment := "INSERT INTO identity_aliases", skip := 1 }

def twofold : Identity :=
  { name := "ada", aliases := [{ name := "ada", email := "a@b" },
    { name := "lady", email := "c@d" }] }

theorem reachable_faulty : Database.Reachable faulty.database := by
  have hmade : Program (Elementary keepsLayouts)
      (Identity.adapter.createScheme : Action (Scripted Database) Unit Unit) :=
    (Script.Subject.createScheme_program .identity).elementary fun _ h =>
      h.keepsLayouts
  unfold faulty
  rw [World.database_armed]
  exact hmade.reachable fresh .empty

theorem atomic_batches_faulty :
    faulty.store.writing = false ∧ Database.Reachable faulty.database ∧
      Script.Subject.identity.Atomic [twofold] faulty
        (Identity.adapter.save [twofold]) ∧
      Script.Subject.identity.Atomic [twofold] faulty
        (Identity.adapter.updateAll [twofold]) := by
  have houtermost : faulty.store.writing = false := by decide +kernel
  have h := Script.Subject.atomic_batches .identity [twofold] houtermost
    reachable_faulty
  exact ⟨houtermost, reachable_faulty, h.1, h.2.1⟩

example : ((Identity.adapter.save [twofold]).exec faulty).2.contents =
    faulty.contents := by
  decide +kernel

end Annals
