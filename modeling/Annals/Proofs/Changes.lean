import Annals.Proofs.Rows
import Annals.Database.Connection
import Annals.Script.Basic

namespace Annals.Database

open Annals.Sql

namespace Contents

/-- Only rows of the table have changed that a name denotes. -/
def Rewritten (name : String) (c c' : Contents) : Prop :=
  c' = c ∨ ∃ t t', c.table? name = some t ∧ t'.blank = t.blank ∧ c' = c.put t'

theorem Rewritten.put {name : String} {c : Contents} {t t' : StoredTable}
    (ht : c.table name = .ok t) (hblank : t'.blank = t.blank) :
    Rewritten name c (c.put t') :=
  .inr ⟨t, t', table_eq_ok.mp ht, hblank, rfl⟩

theorem insert_rewritten {c c' : Contents} {name : String} {values : List Value}
    {n : Nat} (h : c.insert name values = .ok (n, c')) :
    Rewritten name c c' := by
  obtain ⟨t, ht, h⟩ := bind_eq_ok.mp h
  obtain ⟨-, -, h⟩ := bind_eq_ok.mp h
  obtain ⟨⟨key, given⟩, -, h⟩ := bind_eq_ok.mp h
  obtain ⟨cells, -, h⟩ := bind_eq_ok.mp h
  obtain ⟨-, -, h⟩ := bind_eq_ok.mp h
  obtain ⟨c'', hput, h⟩ := bind_eq_ok.mp h
  cases checkReferences_eq_ok hput
  cases h
  exact .put ht rfl

theorem requireFree_eq_ok {t : StoredTable} {key : Int64}
    (h : requireFree t key = .ok ()) :
    t.row? key = none := by
  unfold requireFree at h
  split at h
  case isTrue => cases h
  case isFalse hnone => simpa using hnone

/-- In a table that shows its keys, a new row has the key that comes first among
the values.  That key was free. -/
theorem insert_keyed {c c' : Contents} {name : String} {key : Int64}
    {others : List Value} {n : Nat}
    (hkeyed : ∀ t, c.table? name = some t → t.keyColumn.isSome)
    (h : c.insert name (.integer key :: others) = .ok (n, c')) :
    ∃ t cells, c.table? name = some t ∧
      drawn t.name t.columns (others.map Cell.ofValue) = .ok cells ∧
      t.row? key = none ∧ c' = c.put (t.add { key, cells }) := by
  obtain ⟨t, ht, h⟩ := bind_eq_ok.mp h
  have ht := table_eq_ok.mp ht
  obtain ⟨column, hcolumn⟩ := Option.isSome_iff_exists.mp (hkeyed t ht)
  obtain ⟨-, -, h⟩ := bind_eq_ok.mp h
  obtain ⟨⟨key', given⟩, hgiven, h⟩ := bind_eq_ok.mp h
  unfold place at hgiven
  rw [hcolumn] at hgiven
  cases hgiven
  obtain ⟨cells, hcells, h⟩ := bind_eq_ok.mp h
  obtain ⟨⟨⟩, hfree, h⟩ := bind_eq_ok.mp h
  obtain ⟨c'', hput, h⟩ := bind_eq_ok.mp h
  cases h
  exact ⟨t, cells, ht, hcells, requireFree_eq_ok hfree,
    checkReferences_eq_ok hput⟩

theorem update_eq_ok {c c' : Contents} {name : String} {values : List Value}
    {n : Nat} (h : c.update name values = .ok (n, c')) :
    (n = 0 ∧ c' = c) ∨
      n = 1 ∧ ∃ t key cells, c.table? name = some t ∧
        (values.getLast?.map Cell.ofValue).bind Cell.key? = some key ∧
        (t.row? key).isSome ∧
        drawn t.name t.columns (values.dropLast.map Cell.ofValue) = .ok cells ∧
        c' = c.put (t.withCells key cells) := by
  obtain ⟨t, ht, h⟩ := bind_eq_ok.mp h
  obtain ⟨-, -, h⟩ := bind_eq_ok.mp h
  cases hrow : ((values.getLast?.map Cell.ofValue).bind Cell.key?).bind
    t.row? with
  | none =>
      rw [hrow] at h
      cases h
      exact .inl ⟨rfl, rfl⟩
  | some row =>
      rw [hrow] at h
      obtain ⟨key, hkey, hrow⟩ := Option.bind_eq_some_iff.mp hrow
      cases StoredTable.row?_key hrow
      obtain ⟨cells, hcells, h⟩ := bind_eq_ok.mp h
      obtain ⟨c'', hput, h⟩ := bind_eq_ok.mp h
      cases h
      exact .inr ⟨rfl, t, row.key, cells, table_eq_ok.mp ht, hkey,
        Option.isSome_of_mem hrow, hcells, checkReferences_eq_ok hput⟩

theorem update_rewritten {c c' : Contents} {name : String} {values : List Value}
    {n : Nat} (h : c.update name values = .ok (n, c')) :
    Rewritten name c c' := by
  obtain ⟨-, rfl⟩ | ⟨-, t, key, cells, ht, -, -, -, rfl⟩ := update_eq_ok h
  · exact .inl rfl
  · exact .put (table_eq_ok.mpr ht) rfl

theorem delete_eq_ok {c c' : Contents} {name column : String}
    {values : List Value} {n : Nat}
    (h : c.delete name column values = .ok (n, c')) :
    ∃ t, c.table? name = some t ∧
      n = (t.rows.filter (hits t column values)).length ∧
      c' = c.put (t.remove (hits t column values)) := by
  obtain ⟨t, ht, h⟩ := bind_eq_ok.mp h
  obtain ⟨-, -, h⟩ := bind_eq_ok.mp h
  obtain ⟨c'', hput, h⟩ := bind_eq_ok.mp h
  cases h
  exact ⟨t, table_eq_ok.mp ht, rfl, checkReferences_eq_ok hput⟩

theorem delete_rewritten {c c' : Contents} {name column : String}
    {values : List Value} {n : Nat}
    (h : c.delete name column values = .ok (n, c')) : Rewritten name c c' := by
  obtain ⟨t, ht, -, rfl⟩ := delete_eq_ok h
  exact .put (table_eq_ok.mpr ht) rfl

theorem setValues_rewritten {c c' : Contents} {name : String}
    {values : List Value} {n : Nat}
    (h : c.setValues name values = .ok (n, c')) : Rewritten name c c' := by
  obtain ⟨t, ht, h⟩ := bind_eq_ok.mp h
  obtain ⟨rows, -, h⟩ := bind_eq_ok.mp h
  cases h
  exact .put ht rfl

theorem clear_rewritten {c c' : Contents} {name : String} {n : Nat}
    (h : c.clear name = .ok (n, c')) : Rewritten name c c' := by
  obtain ⟨t, ht, h⟩ := bind_eq_ok.mp h
  cases h
  exact .put ht rfl

theorem advance_rewritten {c c' : Contents} {name : String}
    {values : List (List Cell)} (h : c.advance name = .ok (values, c')) :
    Rewritten name c c' := by
  obtain ⟨t, ht, h⟩ := bind_eq_ok.mp h
  obtain ⟨rows, -, h⟩ := bind_eq_ok.mp h
  cases h
  exact .put ht rfl

theorem rekey_eq_ok {c c' : Contents} {t : StoredTable} {row : StoredRow}
    {given : Cell} {n : Nat} (h : c.rekey t row given = .ok (n, c')) :
    c' = c ∨ ∃ key, requireFree t key = .ok () ∧
      (c.put ((t.remove (·.key == row.key)).add
        { row with key })).checkReferences = .ok c' := by
  unfold rekey at h
  split at h
  case h_1 => cases h
  case h_2 key _ =>
    split at h
    case isTrue =>
      cases h
      exact .inl rfl
    case isFalse =>
      obtain ⟨⟨⟩, hfree, h⟩ := bind_eq_ok.mp h
      obtain ⟨c'', hput, h⟩ := bind_eq_ok.mp h
      cases h
      exact .inr ⟨key, hfree, hput⟩

theorem recell_eq_ok {c c' : Contents} {t : StoredTable} {row : StoredRow}
    {position : Nat} {column : Column} {given : Cell} {n : Nat}
    (h : c.recell t row position column given = .ok (n, c')) :
    ∃ t', c' = c.put t' ∧ t'.blank = t.blank := by
  obtain ⟨-, -, h⟩ := bind_eq_ok.mp h
  obtain ⟨c'', hput, h⟩ := bind_eq_ok.mp h
  cases checkReferences_eq_ok hput
  cases h
  exact ⟨_, rfl, rfl⟩

theorem overwrite_rewritten {c c' : Contents} {name column text : String}
    {given : Cell} {key : Option Int64} {n : Nat}
    (h : c.overwrite name column given key text = .ok (n, c')) :
    Rewritten name c c' := by
  obtain ⟨-, -, h⟩ := bind_eq_ok.mp h
  obtain ⟨t, ht, h⟩ := bind_eq_ok.mp h
  obtain ⟨-, -, h⟩ := bind_eq_ok.mp h
  obtain ⟨-, -, h⟩ := bind_eq_ok.mp h
  split at h
  case h_1 =>
    cases h
    exact .inl rfl
  case h_2 =>
    obtain ⟨t', rfl, hblank⟩ := recell_eq_ok h
    exact .put ht hblank
  case h_3 =>
    obtain rfl | ⟨key, -, hput⟩ := rekey_eq_ok h
    · exact .inl rfl
    · cases checkReferences_eq_ok hput
      exact .put ht rfl

theorem drop_eq_ok {c c' : Contents} {name : String} {locked : Bool} {n : Nat}
    (h : c.drop name locked = .ok (n, c')) : ∀ t ∈ c'.tables, t ∈ c.tables := by
  obtain ⟨-, -, h⟩ := bind_eq_ok.mp h
  obtain ⟨t, -, h⟩ := bind_eq_ok.mp h
  obtain ⟨c'', hput, h⟩ := bind_eq_ok.mp h
  cases checkReferences_eq_ok hput
  split at h
  case isTrue => cases h
  case isFalse =>
    cases h
    exact fun u hu => (List.mem_filter.mp hu).1

def layouts : List StoredTable :=
  Script.Subject.all.flatMap fun s =>
    s.adapter.sequences.map
      (fun entity => .ofSequence (Statement.sequenceName entity)) ++
      s.adapter.tables.map .ofTable

/-- Every table is laid out as some adapter has made it. -/
def Laid (c : Contents) : Prop := ∀ t ∈ c.tables, t.blank ∈ layouts

theorem Rewritten.laid {name : String} {c c' : Contents}
    (h : Rewritten name c c') (hc : c.Laid) : c'.Laid := by
  obtain rfl | ⟨t, t', ht, hblank, rfl⟩ := h
  · exact hc
  · exact forall_put hc (hblank ▸ hc t (mem_of_table? ht))

theorem Rewritten.isSome_table? {name other : String} {c c' : Contents}
    (h : Rewritten name c c') :
    (c'.table? other).isSome = (c.table? other).isSome := by
  obtain rfl | ⟨t, t', -, -, rfl⟩ := h
  · rfl
  · rw [table?_put, Option.isSome_map]

/-- The statement does not make a table unless it is one that the adapters
make. -/
def keepsLayouts : Statement → Prop
  | .createSequence sequence => StoredTable.ofSequence sequence ∈ layouts
  | .createTable table => StoredTable.ofTable table ∈ layouts
  | _ => True

theorem createTable_eq_ok {c c' : Contents} {t : StoredTable} {text : String}
    {n : Nat} (h : c.createTable t text = .ok (n, c')) :
    c.table? t.name = none ∧ c' = { c with tables := c.tables ++ [t] } := by
  unfold createTable at h
  split at h
  case isTrue => cases h
  case isFalse hnone =>
    cases h
    exact ⟨by simpa using hnone, rfl⟩

theorem table?_createTable {c c' : Contents} {t u : StoredTable}
    {text name : String} {n : Nat} (h : c.createTable t text = .ok (n, c'))
    (hu : c.table? name = some u) : c'.table? name = some u := by
  obtain ⟨-, rfl⟩ := createTable_eq_ok h
  unfold table? at hu ⊢
  rw [List.find?_append, hu]
  rfl

theorem createTable_laid {c c' : Contents} {t : StoredTable} {text : String}
    {n : Nat} (h : c.createTable t text = .ok (n, c'))
    (hrows : t.blank ∈ layouts) (hc : c.Laid) :
    c'.Laid := by
  obtain ⟨-, rfl⟩ := createTable_eq_ok h
  intro u hu
  obtain hu | hu := List.mem_append.mp hu
  · exact hc u hu
  · cases List.mem_singleton.mp hu
    exact hrows

theorem createIndex_tables {c c' : Contents} {index : Index} {n : Nat}
    (h : c.createIndex index = .ok (n, c')) : c'.tables = c.tables := by
  unfold createIndex at h
  split at h
  case isTrue => cases h
  case isFalse =>
    split at h
    case isTrue => cases h
    case isFalse =>
      cases h
      rfl

theorem ofTable_blank (t : Table) :
    (StoredTable.ofTable t).blank = .ofTable t := by
  unfold StoredTable.ofTable
  split
  · split <;> rfl
  · rfl

theorem change_laid {c c' : Contents} {locked : Bool} {s : Statement}
    {params : List Value} {n : Nat} (h : change c locked s params = .ok (n, c'))
    (hs : keepsLayouts s) (hc : c.Laid) :
    c'.Laid := by
  unfold change at h
  split at h
  case h_1 => exact createTable_laid h hs hc
  case h_2 => exact (insert_rewritten h).laid hc
  case h_3 table =>
    exact createTable_laid h (by rw [ofTable_blank]; exact hs) hc
  case h_4 =>
    intro t ht
    rw [createIndex_tables h] at ht
    exact hc t ht
  case h_5 => exact (insert_rewritten h).laid hc
  case h_6 => exact (update_rewritten h).laid hc
  case h_7 => exact (delete_rewritten h).laid hc
  case h_8 => exact (setValues_rewritten h).laid hc
  case h_9 => exact (clear_rewritten h).laid hc
  case h_10 => exact fun t ht => hc t (drop_eq_ok h t ht)
  case h_11 => exact (overwrite_rewritten h).laid hc
  case h_12 =>
    cases h
    exact hc

theorem eq_of_sameName :
    ∀ b ∈ layouts, ∀ b' ∈ layouts, sameName b'.name b.name = true → b' = b := by
  decide

theorem Laid.blank_eq {c : Contents} (hc : c.Laid) {b t : StoredTable}
    (hb : b ∈ layouts) (ht : c.table? b.name = some t) : t.blank = b := by
  have hfound := List.find?_some ht
  exact eq_of_sameName b hb t.blank (hc t (mem_of_table? ht)) hfound

theorem ne_sequenceName {sequence : String}
    (hsequence : .ofSequence sequence ∈ layouts)
    {table : Table} (htable : table ∈ storeTables) : table.name ≠ sequence := by
  have hnames : ∀ table ∈ storeTables, ∀ b ∈ layouts, b.keyColumn = none →
      table.name ≠ b.name := by
    decide
  exact hnames table htable _ hsequence rfl

theorem ofTable_name (t : Table) : (StoredTable.ofTable t).name = t.name := by
  unfold StoredTable.ofTable
  split
  · split <;> rfl
  · rfl

section LaidOut

variable {c c' : Contents} {table : Table} {n : Nat}

theorem Laid.ofTable_eq (hc : c.Laid) (htable : .ofTable table ∈ layouts)
    {t : StoredTable} (ht : c.table? table.name = some t) :
    t.blank = .ofTable table := by
  rw [← ofTable_name table] at ht
  exact hc.blank_eq htable ht

theorem Rewritten.table?_other {name other : String} (h : Rewritten name c c')
    (hc : c.Laid) {b own : StoredTable} (hb : b ∈ layouts)
    (hname : b.name = name) (hown : own ∈ layouts)
    (hother : own.name = other) (hne : other ≠ name) :
    c'.table? other = c.table? other := by
  obtain rfl | ⟨t, t', ht, hblank, rfl⟩ := h
  · rfl
  · subst hname hother
    rw [table?_put]
    cases hu : c.table? own.name with
    | none => rfl
    | some u =>
        have hu := StoredTable.name_eq_of_blank (hc.blank_eq hown hu)
        have ht :=
          StoredTable.name_eq_of_blank (hblank.trans (hc.blank_eq hb ht))
        rw [Option.map_some, if_neg]
        rw [hu, ht]
        exact hne

theorem Laid.insert_eq_ok (hc : c.Laid) (htable : .ofTable table ∈ layouts)
    (hkeyed : (StoredTable.ofTable table).keyColumn.isSome) {key : Int64}
    {others : List Value}
    (h : c.insert table.name (.integer key :: others) = .ok (n, c')) :
    ∃ t cells, c.table? table.name = some t ∧ t.blank = .ofTable table ∧
      drawn table.name (StoredTable.ofTable table).columns
        (others.map Cell.ofValue) = .ok cells ∧
      t.row? key = none ∧ c' = c.put (t.add { key, cells }) := by
  have hkeyed' : ∀ t, c.table? table.name = some t → t.keyColumn.isSome := by
    intro t ht
    rw [StoredTable.keyColumn_eq_of_blank (hc.ofTable_eq htable ht)]
    exact hkeyed
  obtain ⟨t, cells, ht, hcells, hfree, hput⟩ := insert_keyed hkeyed' h
  have hblank := hc.ofTable_eq htable ht
  rw [StoredTable.name_eq_of_blank hblank,
    StoredTable.columns_eq_of_blank hblank, ofTable_name] at hcells
  exact ⟨t, cells, ht, hblank, hcells, hfree, hput⟩

theorem insert_cells? (hc : c.Laid) (htable : .ofTable table ∈ layouts)
    (hkeyed : (StoredTable.ofTable table).keyColumn.isSome) {key : Int64}
    {others : List Value}
    (h : c.insert table.name (.integer key :: others) = .ok (n, c'))
    {cells : List Cell}
    (hcells : drawn table.name (StoredTable.ofTable table).columns
      (others.map Cell.ofValue) = .ok cells) :
    c.cells? table.name key = none ∧ c'.cells? table.name key = some cells ∧
      ∀ other, other ≠ key →
        c'.cells? table.name other = c.cells? table.name other := by
  obtain ⟨t, cells', ht, -, hdrawn, hfree, rfl⟩ :=
    hc.insert_eq_ok htable hkeyed h
  cases hcells.symm.trans hdrawn
  refine ⟨?_, ?_, ?_⟩
  · rw [cells?_eq_of_table ht, hfree]
    rfl
  · rw [cells?_put_self ht (StoredTable.blank_add _ _),
      StoredTable.row?_add_self hfree]
    rfl
  · intro other hother
    rw [cells?_put_self ht (StoredTable.blank_add _ _),
      StoredTable.row?_add_other t hother.symm, cells?_eq_of_table ht]

theorem update_cells? (hc : c.Laid) (htable : .ofTable table ∈ layouts)
    {key : Int64} {values : List Value}
    (h : c.update table.name (values ++ [.integer key]) = .ok (1, c'))
    {cells : List Cell}
    (hcells : drawn table.name (StoredTable.ofTable table).columns
      (values.map Cell.ofValue) = .ok cells) :
    c'.cells? table.name key = some cells ∧
      ∀ other, other ≠ key →
        c'.cells? table.name other = c.cells? table.name other := by
  obtain ⟨hnone, -⟩ | ⟨-, t, key', cells', ht, hkey, hrow, hdrawn, rfl⟩ :=
    update_eq_ok h
  · cases hnone
  have hblank := hc.ofTable_eq htable ht
  rw [List.dropLast_concat, StoredTable.name_eq_of_blank hblank,
    StoredTable.columns_eq_of_blank hblank, ofTable_name, hcells] at hdrawn
  rw [List.getLast?_concat] at hkey
  cases hdrawn
  cases hkey
  obtain ⟨row, hrow⟩ := Option.isSome_iff_exists.mp hrow
  constructor
  · rw [cells?_put_self ht (StoredTable.blank_withCells _ _ _),
      StoredTable.row?_withCells, hrow, Option.map_some,
      if_pos (StoredTable.row?_key hrow)]
    rfl
  · intro other hother
    rw [cells?_put_self ht (StoredTable.blank_withCells _ _ _),
      StoredTable.row?_withCells, cells?_eq_of_table ht]
    cases hrow' : t.row? other with
    | none => rfl
    | some r =>
        have hkey : r.key ≠ key :=
          fun hr => hother ((StoredTable.row?_key hrow').symm.trans hr)
        rw [Option.map_some, if_neg hkey]

theorem delete_cells? (hc : c.Laid) (htable : .ofTable table ∈ layouts)
    {column : String} {value key : Int64}
    (h : c.delete table.name column [.integer value] = .ok (n, c'))
    {cells : List Cell} (hcells : c.cells? table.name key = some cells)
    (hother : ((StoredTable.ofTable table).cell { key, cells } column).equals
      value = false) :
    c'.cells? table.name key = some cells := by
  obtain ⟨t, ht, -, rfl⟩ := delete_eq_ok h
  rw [cells?_eq_of_table ht] at hcells
  obtain ⟨row, hrow, rfl⟩ := Option.map_eq_some_iff.mp hcells
  cases StoredTable.row?_key hrow
  rw [cells?_put_self ht (StoredTable.blank_remove _ _),
    StoredTable.row?_remove hrow ?_]
  · rfl
  · rw [← StoredTable.cell_eq_of_blank (hc.ofTable_eq htable ht)] at hother
    exact hother

end LaidOut

end Contents

end Annals.Database
