import Annals.Database.Changes
import Annals.Proofs.Outcomes

namespace Annals

open Annals.Sql

namespace Database

@[simp] theorem Cell.integer_equals (n m : Int64) :
    (integer n).equals m = decide (n = m) := by
  refine decide_eq_decide.mpr ?_
  rw [Int.natCast_one, Int.mul_one, Int64.toInt_inj]

namespace StoredTable

def blank (t : StoredTable) : StoredTable := { t with rows := [] }

@[simp] theorem blank_add (t : StoredTable) (row : StoredRow) :
    (t.add row).blank = t.blank := rfl

@[simp] theorem blank_remove (t : StoredTable) (condition : StoredRow → Bool) :
    (t.remove condition).blank = t.blank := rfl

theorem name_eq_of_blank {t b : StoredTable} (h : t.blank = b) :
    t.name = b.name := by
  rw [← h]
  rfl

theorem columns_eq_of_blank {t b : StoredTable} (h : t.blank = b) :
    t.columns = b.columns := by
  rw [← h]
  rfl

theorem keyColumn_eq_of_blank {t b : StoredTable} (h : t.blank = b) :
    t.keyColumn = b.keyColumn := by
  rw [← h]
  rfl

theorem cell_eq_of_blank {t b : StoredTable} (h : t.blank = b) (r : StoredRow)
    (column : String) : t.cell r column = b.cell r column := by
  rw [← h]
  rfl

theorem row?_key {t : StoredTable} {key : Int64} {r : StoredRow}
    (h : t.row? key = some r) :
    r.key = key := by
  simpa using List.find?_some h

theorem find?_insertRow_self {row : StoredRow} {rows : List StoredRow}
    (hfree : rows.find? (·.key == row.key) = none) :
    (insertRow row rows).find? (·.key == row.key) = some row := by
  induction rows with
  | nil => simp [insertRow]
  | cons r rest ih =>
      obtain ⟨hr, hrest⟩ : r.key ≠ row.key ∧ rest.find? (·.key == row.key) =
          none := by
        simpa using hfree
      unfold insertRow
      split
      · simp
      · rw [List.find?_cons_of_neg (by simpa using hr)]
        exact ih hrest

theorem find?_insertRow_other {row : StoredRow} (rows : List StoredRow)
    {key : Int64} (h : row.key ≠ key) :
    (insertRow row rows).find? (·.key == key) = rows.find? (·.key == key) := by
  induction rows with
  | nil => simpa [insertRow] using h
  | cons r rest ih =>
      unfold insertRow
      split
      · rw [List.find?_cons_of_neg (by simpa using h)]
      · rw [List.find?_cons, List.find?_cons, ih]

theorem row?_add_self {t : StoredTable} {row : StoredRow}
    (hfree : t.row? row.key = none) :
    (t.add row).row? row.key = some row := find?_insertRow_self hfree

theorem row?_add_other (t : StoredTable) {row : StoredRow} {key : Int64}
    (h : row.key ≠ key) :
    (t.add row).row? key = t.row? key := find?_insertRow_other t.rows h

def withCells (t : StoredTable) (key : Int64) (cells : List Cell) :
    StoredTable :=
  { t with rows := t.rows.map fun r =>
    if r.key = key then { r with cells } else r }

@[simp] theorem blank_withCells (t : StoredTable) (key : Int64)
    (cells : List Cell) :
    (t.withCells key cells).blank = t.blank := rfl

theorem row?_withCells (t : StoredTable) (key other : Int64)
    (cells : List Cell) :
    (t.withCells key cells).row? other =
      (t.row? other).map fun r =>
        if r.key = key then { r with cells } else r := by
  unfold withCells row?
  rw [List.find?_map]
  congr 2
  funext r
  change ((if r.key = key then _ else _ : StoredRow).key == other) = _
  split <;> rfl

theorem row?_remove {t : StoredTable} {condition : StoredRow → Bool}
    {key : Int64} {r : StoredRow} (h : t.row? key = some r)
    (hr : condition r = false) :
    (t.remove condition).row? key = some r := by
  unfold row? at h
  unfold remove row?
  rw [List.find?_filter]
  obtain ⟨hkey, before, after, hrows, hbefore⟩ :=
    List.find?_eq_some_iff_append.mp h
  refine List.find?_eq_some_iff_append.mpr ⟨?_, before, after, hrows, ?_⟩
  · rw [hr, hkey]
    rfl
  · intro r' hr'
    have hother := hbefore r' hr'
    simp at hother
    simp [hother]

end StoredTable

namespace Contents

/-- The cells of the row with a key in the table that a name denotes. -/
def cells? (c : Contents) (name : String) (key : Int64) : Option (List Cell) :=
  ((c.table? name).bind (·.row? key)).map StoredRow.cells

theorem cells?_eq_of_table {c : Contents} {name : String} {t : StoredTable}
    (ht : c.table? name = some t) (key : Int64) :
    c.cells? name key = (t.row? key).map StoredRow.cells := by
  unfold cells?
  rw [ht]
  rfl

theorem isSome_cells? {c : Contents} {name : String} {key : Int64} :
    (c.cells? name key).isSome ↔ ∃ t, c.table? name = some t ∧
      (t.row? key).isSome := by
  unfold cells?
  cases c.table? name <;> simp

theorem cells?_of_table {c c' : Contents} {name : String} {key : Int64}
    {cells : List Cell}
    (h : ∀ t, c.table? name = some t → c'.table? name = some t)
    (hcells : c.cells? name key = some cells) : c'.cells? name key =
      some cells := by
  obtain ⟨t, ht, -⟩ := isSome_cells?.mp (Option.isSome_of_mem hcells)
  rwa [cells?_eq_of_table (h t ht), ← cells?_eq_of_table ht]

theorem table_eq_ok {c : Contents} {name : String} {t : StoredTable} :
    c.table name = .ok t ↔ c.table? name = some t := by
  unfold table
  cases c.table? name with
  | none => simp [noTable]
  | some u => simp

theorem mem_of_table? {c : Contents} {name : String} {t : StoredTable}
    (ht : c.table? name = some t) : t ∈ c.tables := List.mem_of_find?_eq_some ht

theorem forall_put {c : Contents} {P : StoredTable → Prop}
    (hc : ∀ t ∈ c.tables, P t) {t' : StoredTable}
    (ht' : P t') : ∀ u ∈ (c.put t').tables, P u := by
  intro u hu
  obtain ⟨other, hother, rfl⟩ := List.mem_map.mp hu
  split
  · exact ht'
  · exact hc other hother

theorem table?_put (c : Contents) (t : StoredTable) (name : String) :
    (c.put t).table? name =
      (c.table? name).map fun other =>
        if other.name = t.name then t else other := by
  unfold put table?
  rw [List.find?_map]
  congr 2
  funext other
  change sameName (if other.name = t.name then t else other).name name = _
  split
  case isTrue h => rw [h]
  case isFalse => rfl

theorem table?_put_self {c : Contents} {name : String} {t t' : StoredTable}
    (ht : c.table? name = some t) (hblank : t'.blank = t.blank) :
    (c.put t').table? name = some t' := by
  have hname : t.name = t'.name := (StoredTable.name_eq_of_blank hblank).symm
  rw [table?_put, ht, Option.map_some, if_pos hname]

theorem cells?_put_self {c : Contents} {name : String} {t t' : StoredTable}
    (ht : c.table? name = some t) (hblank : t'.blank = t.blank) (key : Int64) :
    (c.put t').cells? name key = (t'.row? key).map StoredRow.cells :=
  cells?_eq_of_table (table?_put_self ht hblank) key

theorem checkReferences_eq_ok {c c' : Contents}
    (h : c.checkReferences = .ok c') : c' = c := by
  unfold checkReferences at h
  split at h
  · cases h
    rfl
  · cases h

end Contents

end Database

end Annals
