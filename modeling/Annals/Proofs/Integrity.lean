import Annals.Proofs.Reachable

namespace Annals.Database

open Annals.Sql

namespace StoredTable

def Ordered (t : StoredTable) : Prop :=
  (t.rows.map StoredRow.key).Pairwise (· < ·)

theorem insertRow_perm (row : StoredRow) (rows : List StoredRow) :
    (insertRow row rows).Perm (row :: rows) := by
  induction rows with
  | nil => exact .refl _
  | cons r rest ih =>
      unfold insertRow
      split
      · exact .refl _
      · exact (ih.cons r).trans (.swap row r rest)

theorem Ordered.add {t : StoredTable} (h : t.Ordered) {row : StoredRow}
    (hfree : t.row? row.key = none) : (t.add row).Ordered := by
  obtain ⟨name, keyColumn, columns, rows⟩ := t
  unfold Ordered StoredTable.add row? at *
  dsimp only at *
  induction rows with
  | nil => exact List.pairwise_singleton _ _
  | cons r rest ih =>
      obtain ⟨hbelow, hrest⟩ := List.pairwise_cons.mp h
      obtain ⟨hne, hfree⟩ : r.key ≠ row.key ∧ rest.find? (·.key == row.key) =
          none := by
        simpa using hfree
      unfold insertRow
      split
      case isTrue hlt =>
        refine List.pairwise_cons.mpr ⟨fun k hk => ?_, h⟩
        rcases List.mem_cons.mp hk with rfl | hk
        · exact hlt
        · exact Int64.lt_trans hlt (hbelow k hk)
      case isFalse hnot =>
        have hlt : r.key < row.key :=
          Int64.lt_of_le_of_ne (Int64.not_lt.mp hnot) hne
        refine List.pairwise_cons.mpr ⟨fun k hk => ?_, ih hrest hfree⟩
        have hk := ((insertRow_perm row rest).map StoredRow.key).mem_iff.mp hk
        rcases List.mem_cons.mp hk with rfl | hk
        · exact hlt
        · exact hbelow k hk

theorem Ordered.remove {t : StoredTable} (h : t.Ordered)
    (condition : StoredRow → Bool) :
    (t.remove condition).Ordered :=
  h.sublist (List.filter_sublist.map StoredRow.key)

theorem Ordered.of_keys {t : StoredTable} (h : t.Ordered)
    {rows : List StoredRow}
    (hkeys : rows.map StoredRow.key = t.rows.map StoredRow.key) :
    ({ t with rows } : StoredTable).Ordered := by
  unfold Ordered
  rw [hkeys]
  exact h

theorem Ordered.filter_key {t : StoredTable} (h : t.Ordered) (key : Int64) :
    t.rows.filter (fun r => some key == some r.key) = (t.row? key).toList := by
  obtain ⟨name, keyColumn, columns, rows⟩ := t
  unfold Ordered row? at *
  dsimp only at *
  induction rows with
  | nil => rfl
  | cons r rest ih =>
      obtain ⟨hbelow, hrest⟩ := List.pairwise_cons.mp h
      by_cases hkey : r.key = key
      · have hothers : rest.filter (fun r => some key == some r.key) = [] := by
          refine List.filter_eq_nil_iff.mpr fun s hs => ?_
          have hlt := hbelow s.key (List.mem_map_of_mem hs)
          simpa [← hkey] using Int64.ne_of_lt hlt
        rw [List.filter_cons_of_pos (by simp [hkey]),
          List.find?_cons_of_pos (by simp [hkey]), hothers]
        rfl
      · rw [List.filter_cons_of_neg (by simpa using Ne.symm hkey),
          List.find?_cons_of_neg (by simpa using hkey)]
        exact ih hrest

theorem Ordered.row?_of_mem {t : StoredTable} (h : t.Ordered) {r : StoredRow}
    (hr : r ∈ t.rows) : t.row? r.key = some r := by
  have hmem : r ∈ (t.row? r.key).toList := by
    rw [← h.filter_key r.key]
    exact List.mem_filter.mpr ⟨hr, beq_self_eq_true _⟩
  exact Option.mem_toList.mp hmem

/-- The rows for which an adapter asks: all of them, or the one with an
identifier. -/
def chosen (t : StoredTable) : Option EntityId → List StoredRow
  | none => t.rows
  | some id => (t.row? id.value).toList

theorem Ordered.chosen {t : StoredTable} (h : t.Ordered)
    (one : Option EntityId) :
    ((t.chosen one).map StoredRow.key).Pairwise (· < ·) := by
  cases one with
  | none => exact h
  | some id =>
      unfold StoredTable.chosen
      dsimp only
      cases t.row? id.value with
      | none => exact .nil
      | some r => exact List.pairwise_singleton _ _

theorem keys_map {change : StoredRow → StoredRow}
    (h : ∀ r, (change r).key = r.key) (rows : List StoredRow) :
    (rows.map change).map StoredRow.key = rows.map StoredRow.key := by
  rw [List.map_map]
  exact List.map_congr_left fun r _ => h r

theorem keys_mapM {cells : StoredRow → Except Failure (List Cell)}
    {rows rows' : List StoredRow}
    (h : (rows.mapM fun r => do return { r with cells := ← cells r }) =
      .ok rows') :
    rows'.map StoredRow.key = rows.map StoredRow.key := by
  have hall := mapM_eq_ok.mp h
  clear h
  induction hall with
  | nil => rfl
  | cons hr _ ih =>
      obtain ⟨own, -, hr⟩ := bind_eq_ok.mp hr
      cases hr
      rw [List.map_cons, List.map_cons, ih]

end StoredTable

namespace Contents

theorem isSound_of_checkReferences {c c' : Contents}
    (h : c.checkReferences = .ok c') :
    c.isSound = true := by
  unfold checkReferences at h
  split at h
  case isTrue hsound => exact hsound
  case isFalse => cases h

theorem isSound_iff {c : Contents} :
    c.isSound = true ↔ ∀ t ∈ c.tables, ∀ r ∈ t.rows,
      c.rowIsSound t r = true := by
  simp [isSound]

/-- The tables are those of the adapters, their rows stand in the order of their
keys, and every reference has its row. -/
structure Orderly (c : Contents) : Prop where
  laid : c.Laid
  ordered : ∀ t ∈ c.tables, t.Ordered
  sound : c.isSound = true

theorem orderly_empty : Orderly {} where
  laid _ ht := absurd ht List.not_mem_nil
  ordered _ ht := absurd ht List.not_mem_nil
  sound := rfl

/-- The rows of one table have been changed, their order was kept, and the
references were checked. -/
def Checked (c c' : Contents) : Prop :=
  c' = c ∨ ∃ t t', t ∈ c.tables ∧ (t.Ordered → t'.Ordered) ∧ c' = c.put t' ∧
    c'.isSound = true

theorem Orderly.of_checked {c c' : Contents} {name : String} (hc : c.Orderly)
    (hrewritten : Rewritten name c c') (h : Checked c c') : c'.Orderly := by
  obtain rfl | ⟨t, t', ht, hordered, rfl, hsound⟩ := h
  · exact hc
  · exact ⟨hrewritten.laid hc.laid,
      forall_put hc.ordered (hordered (hc.ordered t ht)), hsound⟩

theorem Checked.of_put {c c' : Contents} {t t' : StoredTable}
    (ht : t ∈ c.tables) (hordered : t.Ordered → t'.Ordered)
    (h : (c.put t').checkReferences = .ok c') :
    Checked c c' := by
  have hsound := isSound_of_checkReferences h
  cases checkReferences_eq_ok h
  exact .inr ⟨t, t', ht, hordered, rfl, hsound⟩

theorem insert_checked {c c' : Contents} {name : String} {values : List Value}
    {n : Nat} (h : c.insert name values = .ok (n, c')) : Checked c c' := by
  obtain ⟨t, ht, h⟩ := bind_eq_ok.mp h
  obtain ⟨-, -, h⟩ := bind_eq_ok.mp h
  obtain ⟨⟨key, given⟩, -, h⟩ := bind_eq_ok.mp h
  obtain ⟨cells, -, h⟩ := bind_eq_ok.mp h
  obtain ⟨⟨⟩, hfree, h⟩ := bind_eq_ok.mp h
  obtain ⟨c'', hput, h⟩ := bind_eq_ok.mp h
  cases h
  exact .of_put (mem_of_table? (table_eq_ok.mp ht))
    (fun hordered => hordered.add (requireFree_eq_ok hfree)) hput

theorem update_checked {c c' : Contents} {name : String} {values : List Value}
    {n : Nat} (h : c.update name values = .ok (n, c')) : Checked c c' := by
  obtain ⟨t, ht, h⟩ := bind_eq_ok.mp h
  obtain ⟨-, -, h⟩ := bind_eq_ok.mp h
  split at h
  case h_1 =>
    cases h
    exact .inl rfl
  case h_2 row _ =>
    obtain ⟨cells, -, h⟩ := bind_eq_ok.mp h
    obtain ⟨c'', hput, h⟩ := bind_eq_ok.mp h
    cases h
    refine .of_put (mem_of_table? (table_eq_ok.mp ht)) (fun hordered => ?_) hput
    refine hordered.of_keys (StoredTable.keys_map (fun r => ?_) t.rows)
    split <;> rfl

theorem delete_checked {c c' : Contents} {name column : String}
    {values : List Value} {n : Nat}
    (h : c.delete name column values = .ok (n, c')) : Checked c c' := by
  obtain ⟨t, ht, h⟩ := bind_eq_ok.mp h
  obtain ⟨-, -, h⟩ := bind_eq_ok.mp h
  obtain ⟨c'', hput, h⟩ := bind_eq_ok.mp h
  cases h
  exact .of_put (mem_of_table? (table_eq_ok.mp ht))
    (fun hordered => hordered.remove _) hput

theorem recell_checked {c c' : Contents} {t : StoredTable} {row : StoredRow}
    {position : Nat} {column : Column} {given : Cell} {n : Nat}
    (ht : t ∈ c.tables)
    (h : c.recell t row position column given = .ok (n, c')) :
    Checked c c' := by
  obtain ⟨-, -, h⟩ := bind_eq_ok.mp h
  obtain ⟨c'', hput, h⟩ := bind_eq_ok.mp h
  cases h
  refine .of_put ht (fun hordered => ?_) hput
  refine hordered.of_keys (StoredTable.keys_map (fun r => ?_) t.rows)
  split <;> rfl

theorem rekey_checked {c c' : Contents} {t : StoredTable} {row : StoredRow}
    {given : Cell} {n : Nat} (ht : t ∈ c.tables)
    (h : c.rekey t row given = .ok (n, c')) : Checked c c' := by
  obtain rfl | ⟨key, hfree, hput⟩ := rekey_eq_ok h
  · exact .inl rfl
  · refine .of_put ht (fun hordered => (hordered.remove _).add ?_) hput
    have hnone := requireFree_eq_ok hfree
    unfold StoredTable.row? at hnone ⊢
    rw [List.find?_eq_none] at hnone ⊢
    intro r hr
    exact hnone r (List.mem_filter.mp hr).1

theorem overwrite_checked {c c' : Contents} {name column text : String}
    {given : Cell} {key : Option Int64} {n : Nat}
    (h : c.overwrite name column given key text = .ok (n, c')) :
    Checked c c' := by
  obtain ⟨-, -, h⟩ := bind_eq_ok.mp h
  obtain ⟨t, ht, h⟩ := bind_eq_ok.mp h
  obtain ⟨-, -, h⟩ := bind_eq_ok.mp h
  obtain ⟨-, -, h⟩ := bind_eq_ok.mp h
  have ht := mem_of_table? (table_eq_ok.mp ht)
  split at h
  case h_1 =>
    cases h
    exact .inl rfl
  case h_2 => exact recell_checked ht h
  case h_3 => exact rekey_checked ht h

theorem Orderly.drop {c c' : Contents} {name : String} {locked : Bool} {n : Nat}
    (hc : c.Orderly) (h : c.drop name locked = .ok (n, c')) : c'.Orderly := by
  have hkept := drop_eq_ok h
  refine ⟨fun t ht => hc.laid t (hkept t ht), fun t ht =>
    hc.ordered t (hkept t ht), ?_⟩
  obtain ⟨-, -, h⟩ := bind_eq_ok.mp h
  obtain ⟨t, -, h⟩ := bind_eq_ok.mp h
  obtain ⟨c'', hput, h⟩ := bind_eq_ok.mp h
  split at h
  case isTrue => cases h
  case isFalse =>
    cases h
    have hsound := isSound_of_checkReferences hput
    cases checkReferences_eq_ok hput
    exact hsound

theorem references_layouts : ∀ b ∈ layouts, ∀ column ∈ b.columns, ∀ target,
    column.references? = some target → target = identities.name ∧
    b.keyColumn ≠ none := by
  have hall : ∀ b ∈ layouts, ∀ column ∈ b.columns,
      column.references?.all (fun target => target = identities.name ∧
        b.keyColumn ≠ none) := by
    decide
  intro b hb column hcolumn target htarget
  have h := hall b hb column hcolumn
  rw [htarget] at h
  simpa using h

theorem refersTo_eq_true {c : Contents} {target : String} {cell : Cell} :
    c.refersTo target cell = true ↔ cell = .null ∨
      ∃ key t, cell.key? = some key ∧ c.table? target = some t ∧
        (t.row? key).isSome := by
  unfold refersTo
  split
  case h_1 => simp
  case h_2 hne =>
    split
    case h_1 key t hkey ht =>
      have hnull : cell ≠ .null := hne
      simp [hnull, hkey, ht]
    case h_2 hnone =>
      constructor
      · intro h
        cases h
      · rintro (h | ⟨key, t, hkey, ht, -⟩)
        · exact absurd h hne
        · exact absurd ht (hnone key t hkey)

theorem rowIsSound_of_keys {c c' : Contents} {t : StoredTable} {r : StoredRow}
    (ht : t.blank ∈ layouts)
    (hkept : ∀ key, (c.cells? identities.name key).isSome →
      (c'.cells? identities.name key).isSome)
    (h : c.rowIsSound t r = true) : c'.rowIsSound t r = true := by
  unfold rowIsSound at h ⊢
  rw [List.all_eq_true] at h ⊢
  rintro ⟨column, cell⟩ hmem
  have hcell := h _ hmem
  cases htarget : column.references? with
  | none => simp only [htarget]
  | some target =>
      obtain ⟨rfl, -⟩ :=
        references_layouts _ ht column (List.of_mem_zip hmem).1 target htarget
      simp only [htarget] at hcell ⊢
      rw [refersTo_eq_true] at hcell ⊢
      obtain rfl | ⟨key, u, hkey, hu, hrow⟩ := hcell
      · exact .inl rfl
      · obtain ⟨u', hu', hrow'⟩ :=
          isSome_cells?.mp (hkept key (isSome_cells?.mpr ⟨u, hu, hrow⟩))
        exact .inr ⟨key, u', hkey, hu', hrow'⟩

theorem rowIsSound_mono {c c' : Contents} {t : StoredTable} {r : StoredRow}
    (ht : t.blank ∈ layouts)
    (hkept : ∀ u, c.table? identities.name = some u →
      c'.table? identities.name = some u)
    (h : c.rowIsSound t r = true) : c'.rowIsSound t r = true := by
  refine rowIsSound_of_keys ht (fun key hkey => ?_) h
  obtain ⟨cells, hcells⟩ := Option.isSome_iff_exists.mp hkey
  exact Option.isSome_of_mem (cells?_of_table hkept hcells)

theorem Orderly.createTable {c c' : Contents} {t : StoredTable} {text : String}
    {n : Nat} (hc : c.Orderly) (hlayout : t.blank ∈ layouts)
    (hrows : t.rows = []) (h : c.createTable t text = .ok (n, c')) :
    c'.Orderly := by
  have hlaid := createTable_laid h hlayout hc.laid
  have hkept : ∀ v, c.table? identities.name = some v →
      c'.table? identities.name = some v := fun _ => table?_createTable h
  obtain ⟨-, rfl⟩ := createTable_eq_ok h
  refine ⟨hlaid, fun u hu => ?_, isSound_iff.mpr fun u hu r hr => ?_⟩
  · rcases List.mem_append.mp hu with hu | hu
    · exact hc.ordered u hu
    · rw [List.mem_singleton.mp hu]
      unfold StoredTable.Ordered
      rw [hrows]
      exact .nil
  · rcases List.mem_append.mp hu with hu | hu
    · exact rowIsSound_mono (hc.laid u hu) hkept
        (isSound_iff.mp hc.sound u hu r hr)
    · rw [List.mem_singleton.mp hu, hrows] at hr
      cases hr

theorem Orderly.createIndex {c c' : Contents} {index : Index} {n : Nat}
    (hc : c.Orderly) (h : c.createIndex index = .ok (n, c')) : c'.Orderly := by
  obtain ⟨tables, indexes⟩ := c'
  cases createIndex_tables h
  obtain ⟨hlaid, hordered, hsound⟩ := hc
  exact ⟨hlaid, hordered, hsound⟩

/-- Rows of sequences are changed without a check, since nothing refers to them
and they refer to nothing. -/
theorem Orderly.put_sequence {c : Contents} {sequence : String} (hc : c.Orderly)
    (hlayout : .ofSequence sequence ∈ layouts) {t t' : StoredTable}
    (ht : c.table? sequence = some t) (hblank : t'.blank = t.blank)
    (hordered : t.Ordered → t'.Ordered) : (c.put t').Orderly := by
  have hseq : t.blank = .ofSequence sequence := hc.laid.blank_eq hlayout ht
  have hkeyless : t'.keyColumn = none :=
    StoredTable.keyColumn_eq_of_blank (hblank.trans hseq)
  have hmem := mem_of_table? ht
  refine ⟨(Rewritten.put (table_eq_ok.mpr ht) hblank).laid hc.laid,
    forall_put hc.ordered (hordered (hc.ordered t hmem)),
    isSound_iff.mpr fun u hu r hr => ?_⟩
  -- a sequence refers to nothing, and other rows refer to identities, which
  -- stay
  obtain ⟨other, hother, rfl⟩ := List.mem_map.mp hu
  split at hr
  case isTrue heq =>
    rw [if_pos heq]
    unfold rowIsSound
    rw [List.all_eq_true]
    rintro ⟨column, cell⟩ hpair
    cases htarget : column.references? with
    | none => simp only [htarget]
    | some target =>
        have hlaid' : t'.blank ∈ layouts := hblank.trans hseq ▸ hlayout
        exact absurd hkeyless
          (references_layouts _ hlaid' column (List.of_mem_zip hpair).1 target
          htarget).2
  case isFalse hne =>
    rw [if_neg hne]
    refine rowIsSound_mono (hc.laid other hother) (fun v hv => ?_)
      (isSound_iff.mp hc.sound other hother r hr)
    have hidentities : StoredTable.ofTable identities ∈ layouts := by decide
    have hv' : v.name ≠ t'.name := by
      rw [StoredTable.name_eq_of_blank (hc.laid.ofTable_eq hidentities hv),
        StoredTable.name_eq_of_blank (hblank.trans hseq)]
      exact ne_sequenceName hlayout (show identities ∈ storeTables by decide)
    rw [table?_put, hv, Option.map_some, if_neg hv']

theorem createTable_isSome {c c' : Contents} {t : StoredTable}
    {text name : String} {n : Nat} (h : c.createTable t text = .ok (n, c'))
    (hname : (c.table? name).isSome) :
    (c'.table? name).isSome := by
  obtain ⟨u, hu⟩ := Option.isSome_iff_exists.mp hname
  exact Option.isSome_of_mem (table?_createTable h hu)

theorem isSome_of_change {c c' : Contents} {locked : Bool} {s : Statement}
    {params : List Value} {n : Nat} (h : change c locked s params = .ok (n, c'))
    (hsequence : ∀ sequence, s ≠ .createSequence sequence)
    (hmade : ∀ table, s ≠ .createTable table)
    (hdrop : ∀ table, s ≠ .drop table) (name : String) :
    (c'.table? name).isSome = (c.table? name).isSome := by
  cases s with
  | createSequence sequence => exact absurd rfl (hsequence sequence)
  | createTable table => exact absurd rfl (hmade table)
  | drop table => exact absurd rfl (hdrop table)
  | seedSequence | insert => exact (insert_rewritten h).isSome_table?
  | createIndex =>
      unfold table?
      rw [createIndex_tables h]
  | update => exact (update_rewritten h).isSome_table?
  | delete => exact (delete_rewritten h).isSome_table?
  | setSequence => exact (setValues_rewritten h).isSome_table?
  | clearSequence => exact (clear_rewritten h).isSome_table?
  | overwrite => exact (overwrite_rewritten h).isSome_table?
  | _ =>
      cases h
      rfl

theorem change_isSome {c c' : Contents} {locked : Bool} {s : Statement}
    {params : List Value} {n : Nat} {name : String}
    (h : change c locked s params = .ok (n, c'))
    (hs : ∀ table, s ≠ .drop table) (hname : (c.table? name).isSome) :
    (c'.table? name).isSome := by
  cases s with
  | createSequence | createTable => exact createTable_isSome h hname
  | drop table => exact absurd rfl (hs table)
  | _ => rwa [isSome_of_change h nofun nofun nofun]

/-- The statement makes no table but those of the adapters, and only sequences
are drawn from, set and cleared by it. -/
def keepsIntegrity : Statement → Prop
  | .createSequence sequence | .nextValue sequence | .setSequence sequence
  | .clearSequence sequence => .ofSequence sequence ∈ layouts
  | .createTable table => .ofTable table ∈ layouts
  | _ => True

variable {c c' : Contents}

theorem Orderly.redraw {sequence : String} {β : Type} {b : β}
    (cells : StoredTable → StoredRow → Except Failure (List Cell))
    (answer : List StoredRow → β) (hc : c.Orderly)
    (hlayout : .ofSequence sequence ∈ layouts)
    (h : (do
      let t ← c.table sequence
      let rows ← t.rows.mapM fun r => do return { r with cells := ← cells t r }
      return (answer rows, c.put { t with rows })) = .ok (b, c')) :
    c'.Orderly := by
  obtain ⟨t, ht, h⟩ := bind_eq_ok.mp h
  obtain ⟨rows, hrows, h⟩ := bind_eq_ok.mp h
  cases h
  refine hc.put_sequence hlayout (table_eq_ok.mp ht) rfl fun hordered => ?_
  exact hordered.of_keys (StoredTable.keys_mapM hrows)

theorem Orderly.advance {sequence : String} {values : List (List Cell)}
    (hc : c.Orderly) (hlayout : .ofSequence sequence ∈ layouts)
    (h : c.advance sequence = .ok (values, c')) : c'.Orderly :=
  hc.redraw (fun t r => drawn t.name t.columns (r.cells.map Cell.addOne))
    (·.map StoredRow.cells) hlayout h

theorem Orderly.setValues {sequence : String} {values : List Value} {n : Nat}
    (hc : c.Orderly) (hlayout : .ofSequence sequence ∈ layouts)
    (h : c.setValues sequence values = .ok (n, c')) : c'.Orderly :=
  hc.redraw
    (fun t _ => drawn t.name t.columns [Cell.ofValue (values.head?.getD .null)])
    List.length hlayout h

theorem Orderly.clear {sequence : String} {n : Nat} (hc : c.Orderly)
    (hlayout : .ofSequence sequence ∈ layouts)
    (h : c.clear sequence = .ok (n, c')) :
    c'.Orderly := by
  obtain ⟨t, ht, h⟩ := bind_eq_ok.mp h
  cases h
  exact hc.put_sequence hlayout (table_eq_ok.mp ht) rfl fun _ => .nil

theorem Orderly.change {locked : Bool} {s : Statement} {params : List Value}
    {n : Nat} (hc : c.Orderly) (hs : keepsIntegrity s)
    (h : change c locked s params = .ok (n, c')) :
    c'.Orderly := by
  unfold Database.change at h
  split at h
  case h_1 sequence => exact hc.createTable (t := .ofSequence sequence) hs rfl h
  case h_2 => exact hc.of_checked (insert_rewritten h) (insert_checked h)
  case h_3 table =>
    have hblank := ofTable_blank table
    refine hc.createTable (t := .ofTable table) ?_
      (congrArg StoredTable.rows hblank).symm h
    rw [hblank]
    exact hs
  case h_4 => exact hc.createIndex h
  case h_5 => exact hc.of_checked (insert_rewritten h) (insert_checked h)
  case h_6 => exact hc.of_checked (update_rewritten h) (update_checked h)
  case h_7 => exact hc.of_checked (delete_rewritten h) (delete_checked h)
  case h_8 => exact hc.setValues hs h
  case h_9 => exact hc.clear hs h
  case h_10 => exact hc.drop h
  case h_11 => exact hc.of_checked (overwrite_rewritten h) (overwrite_checked h)
  case h_12 =>
    cases h
    exact hc

end Contents

theorem Touched.orderly {db db' : Database}
    (h : Touched Contents.keepsIntegrity db db')
    (hdb : db.contents.Orderly) : db'.contents.Orderly := by
  apply h.carries hdb
  · intro s params locked n c hs hmade
    exact hdb.change hs hmade
  · intro sequence values c hs hmade
    exact hdb.advance hs hmade

theorem Touched.isSome_table? {allowed : Statement → Prop}
    (hallowed : ∀ s, allowed s → ∀ table, s ≠ .drop table) {db db' : Database}
    (h : Touched allowed db db') {name : String}
    (hname : (db.contents.table? name).isSome) :
    (db'.contents.table? name).isSome := by
  apply h.carries (P := fun c => (c.table? name).isSome) hname
  · intro s params locked n c hs hmade
    exact Contents.change_isSome hmade (hallowed s hs) hname
  · intro sequence values c _ hmade
    exact (Contents.advance_rewritten hmade).isSome_table?.trans hname

theorem ReachableBy.orderly {db : Database}
    (h : ReachableBy Contents.keepsIntegrity db) :
    db.contents.Orderly :=
      (h.invariant Contents.orderly_empty Touched.orderly).now

end Annals.Database

namespace Annals

open Annals.Database.Contents

theorem AdapterStatement.keepsIntegrity {s : Sql.Statement}
    (h : AdapterStatement s) :
    keepsIntegrity s := by
  have hlayouts := h.keepsLayouts
  cases h with
  | createSequence _ _ => exact hlayouts
  | createTable _ _ => exact hlayouts
  | nextValue subject hentity =>
      exact (AdapterStatement.createSequence subject hentity).keepsLayouts
  | _ => trivial

theorem Program.orderly_within {σ ω α : Type} [Backed σ] {m : Action σ ω α}
    (h : Program (Elementary keepsIntegrity) m) {w : World σ ω}
    (hwithin : w.store.writing = true) (hw : w.contents.Orderly) :
    (m.exec w).2.store.writing = true ∧ (m.exec w).2.contents.Orderly := by
  obtain ⟨hwriting, horderly⟩ := h.keeps_within
    (R := fun u v : World σ ω => u.contents.Orderly → v.contents.Orderly)
    (fun _ hu => hu) (fun huv hvx hu => hvx (huv hu)) (fun _ _ hu => hu)
    (fun hm u hu => ⟨(hm.writing u).trans hu, fun horderly =>
      (hm.touched u).orderly horderly⟩) w hwithin
  exact ⟨hwriting, horderly hw⟩

theorem Program.isSome_table? {σ ω α : Type} [Backed σ] {m : Action σ ω α}
    (h : Program (Plain AdapterStatement) m) {w : World σ ω}
    (hwithin : w.store.writing = true) {name : String}
    (hname : (w.contents.table? name).isSome) :
    ((m.exec w).2.contents.table? name).isSome := by
  have hdrop : ∀ s, AdapterStatement s → ∀ table, s ≠ .drop table := by
    rintro _ hs table rfl
    cases hs
  refine ((h.elementary fun _ hs => hs).keeps_within
    (R := fun u v : World σ ω =>
    (u.contents.table? name).isSome → (v.contents.table? name).isSome)
      (fun _ hu => hu)
    (fun huv hvx hu => hvx (huv hu)) (fun _ _ hu => hu) ?_ w hwithin).2 hname
  intro _ m hm u hu
  exact ⟨(hm.writing u).trans hu, (hm.touched u).isSome_table? hdrop⟩

end Annals
