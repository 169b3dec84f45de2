import Annals.Proofs.Batches
import Annals.Proofs.Integrity

/-!
The rows of every table are numbered by a sequence.  As long as rows are put
only under identifiers that have been drawn, the identifiers of a table lie
between one and the value of its sequence; identifiers with which rows have been
supplied from outside are the only exceptions.
-/

namespace Annals

open Annals.Sql Annals.Stream Annals.Database Annals.Database.Contents

/-- The kinds of rows that are numbered, each by a sequence of its own. -/
inductive Series where
  | commits
  | branches
  | identities
  | aliases
  deriving DecidableEq, Repr

namespace Series

def table : Series → Table
  | commits => Sql.commits
  | branches => Sql.branches
  | identities => Sql.identities
  | aliases => identityAliases

/-- What the rows are called where their identifiers are drawn. -/
def entity : Series → String
  | commits => Commit.entityName
  | branches => Branch.entityName
  | identities => Identity.entityName
  | aliases => Alias.entityName

def sequence (k : Series) : String := Statement.sequenceName k.entity

theorem table_mem (k : Series) : k.table ∈ storeTables := by
  cases k <;> decide

theorem table_layout (k : Series) : .ofTable k.table ∈ layouts :=
  mem_layouts k.table k.table_mem

theorem sequence_layout (k : Series) : .ofSequence k.sequence ∈ layouts := by
  cases k <;> decide

theorem table_ne_sequence (k k' : Series) : k.table.name ≠ k'.sequence :=
  ne_sequenceName k'.sequence_layout k.table_mem

theorem table_inj {k k' : Series} : k.table.name = k'.table.name ↔ k = k' := by
  cases k <;> cases k' <;> decide

theorem sequence_inj {k k' : Series} : k.sequence = k'.sequence ↔ k = k' := by
  cases k <;> cases k' <;> decide

/-- What is said of one series, as seen from another one. -/
def share {α : Type} (own k : Series) (as : List α) : List α :=
  if own = k then as else []

@[simp] theorem share_self {α : Type} (k : Series) (as : List α) :
    k.share k as = as := if_pos rfl

theorem share_other {α : Type} {own k : Series} (h : own ≠ k) (as : List α) :
    own.share k as = [] := if_neg h

@[simp] theorem share_nil {α : Type} (own k : Series) :
    own.share k ([] : List α) = [] := by
  unfold share
  split <;> rfl

theorem share_append {α : Type} (own k : Series) (as bs : List α) :
    own.share k (as ++ bs) = own.share k as ++ own.share k bs := by
  unfold share
  split <;> rfl

end Series

namespace Database.Contents

def value? (c : Contents) (sequence : String) : Option Int64 :=
  match (c.table? sequence).map StoredTable.rows with
  | some [{ cells := [.integer n], .. }] => some n
  | _ => none

theorem value?_eq_some {c : Contents} {sequence : String} {n : Int64} :
    c.value? sequence = some n ↔
      ∃ t key, c.table? sequence = some t ∧
        t.rows = [{ key, cells := [.integer n] }] := by
  unfold value?
  constructor
  · intro h
    split at h
    case h_1 key m hrows =>
      cases h
      obtain ⟨t, ht, hrows⟩ := Option.map_eq_some_iff.mp hrows
      exact ⟨t, key, ht, hrows⟩
    case h_2 => cases h
  · rintro ⟨t, key, ht, hrows⟩
    rw [ht, Option.map_some, hrows]

theorem value?_congr {c c' : Contents} {sequence : String}
    (h : c'.table? sequence = c.table? sequence) : c'.value? sequence =
      c.value? sequence := by
  unfold value?
  rw [h]

/-- What the cell of a sequence becomes when a value is drawn. -/
def following (n : Int64) : Cell := (Cell.integer n).addOne.toward .bigInt

theorem following_of_ne {n : Int64} (h : n ≠ Int64.maxValue) :
    following n = .integer (n + 1) := by
  change Cell.toward .bigInt
    (if n = Int64.maxValue then _ else .integer (n + 1)) = _
  rw [if_neg h]
  rfl

/-- Behind the greatest count comes a real number, which is no identifier. -/
theorem following_maxValue :
    following Int64.maxValue = .real (.finite false 4503599627370496 11) := by
  decide +kernel

theorem following_eq {n m : Int64} (h : following n = .integer m) :
    n ≠ Int64.maxValue ∧ m = n + 1 := by
  by_cases hmax : n = Int64.maxValue
  · subst hmax
    rw [following_maxValue] at h
    cases h
  · rw [following_of_ne hmax] at h
    cases h
    exact ⟨hmax, rfl⟩

theorem advance_value {c c' : Contents} {sequence : String}
    {values : List (List Cell)} {n : Int64} (hc : c.Laid)
    (hlayout : .ofSequence sequence ∈ layouts) (hn : c.value? sequence = some n)
    (h : c.advance sequence = .ok (values, c')) :
    values = [[following n]] ∧
      ∃ t key, c'.table? sequence = some t ∧
        t.rows = [{ key, cells := [following n] }] := by
  obtain ⟨t, key, ht, hrows⟩ := value?_eq_some.mp hn
  obtain ⟨t', ht', h⟩ := bind_eq_ok.mp h
  cases ht.symm.trans (table_eq_ok.mp ht')
  obtain ⟨rows, hdrawn, h⟩ := bind_eq_ok.mp h
  have hcolumns : t.columns = [.required "value" .bigInt] :=
    StoredTable.columns_eq_of_blank (hc.blank_eq hlayout ht)
  rw [hrows, List.mapM_cons, List.mapM_nil] at hdrawn
  obtain ⟨row, hrow, hdrawn⟩ := bind_eq_ok.mp hdrawn
  cases hdrawn
  obtain ⟨cells, hcells, hrow⟩ := bind_eq_ok.mp hrow
  cases hrow
  rw [hcolumns] at hcells
  obtain ⟨-, -, hcells⟩ := bind_eq_ok.mp hcells
  cases hcells
  cases h
  exact ⟨rfl, _, key, table?_put_self ht rfl, rfl⟩

end Database.Contents

/-- Identifiers have been drawn one after the other, and the value of their
sequence has risen with them. -/
inductive Consecutive : Int64 → List EntityId → Int64 → Prop where
  | nil (n : Int64) : Consecutive n [] n
  | cons {n n' : Int64} {id : EntityId} {ids : List EntityId}
      (hnext : id.value.toInt = n.toInt + 1) (h : Consecutive id.value ids n') :
      Consecutive n (id :: ids) n'

namespace Consecutive

variable {n n' n'' : Int64} {id : EntityId} {ids ids' : List EntityId}

theorem single (h : id.value.toInt = n.toInt + 1) :
    Consecutive n [id] id.value := .cons h (.nil _)

theorem append (h : Consecutive n ids n') (h' : Consecutive n' ids' n'') :
    Consecutive n (ids ++ ids') n'' := by
  induction h with
  | nil n => exact h'
  | cons hnext _ ih => exact .cons hnext (ih h')

theorem toInt_eq (h : Consecutive n ids n') :
    n'.toInt = n.toInt + ids.length := by
  induction h with
  | nil n => simp
  | cons hnext _ ih =>
      rw [ih, hnext, List.length_cons]
      omega

theorem le (h : Consecutive n ids n') : n ≤ n' := by
  have hvalue := h.toInt_eq
  rw [Int64.le_iff_toInt_le]
  omega

theorem lt_of_mem (h : Consecutive n ids n') (hid : id ∈ ids) :
    n.toInt < id.value.toInt := by
  induction h with
  | nil n => cases hid
  | cons hnext _ ih =>
      rcases List.mem_cons.mp hid with rfl | hid
      · omega
      · have hlt := ih hid
        omega

theorem ordered (h : Consecutive n ids n') :
    ids.Pairwise fun id id' => id.value < id'.value := by
  induction h with
  | nil n => exact .nil
  | cons _ hrest ih =>
      exact List.pairwise_cons.mpr ⟨fun id hid =>
        Int64.lt_iff_toInt_lt.mpr (hrest.lt_of_mem hid), ih⟩

end Consecutive

/-- The identifiers in the table of a series lie between one and the value of
the sequence, or are among those that have been supplied.  The sequence is at
zero until it has been made. -/
structure Numbered (k : Series) (supplied : List EntityId) (c : Contents)
    (n : Int64) : Prop where
  laid : c.Laid
  nonneg : 0 ≤ n
  value : c.value? k.sequence = some n ∨ c.table? k.sequence = none ∧ n = 0
  keys : ∀ t, c.table? k.table.name = some t → c.value? k.sequence = some n ∧
    ∀ r ∈ t.rows, 0 < r.key ∧ (r.key ≤ n ∨ ∃ id ∈ supplied, id.value = r.key)

/-- What a step does to the numbering of a series: which identifiers are drawn
in it, and which are supplied to it. -/
def Moves (k : Series) (drawn supplied : List EntityId)
    (c c' : Contents) : Prop :=
  ∀ earlier n, Numbered k earlier c n →
    ∃ n', Numbered k (earlier ++ supplied) c' n' ∧ Consecutive n drawn n'

namespace Moves

variable {k : Series} {c c' c'' : Contents}
    {drawn supplied drawn' supplied' : List EntityId}

theorem refl (k : Series) (c : Contents) : Moves k [] [] c c := by
  intro earlier n h
  rw [List.append_nil]
  exact ⟨n, h, .nil n⟩

theorem trans (h : Moves k drawn supplied c c')
    (h' : Moves k drawn' supplied' c' c'') :
    Moves k (drawn ++ drawn') (supplied ++ supplied') c c'' := by
  intro earlier n hn
  obtain ⟨n', hn', hdrawn⟩ := h earlier n hn
  obtain ⟨n'', hn'', hdrawn'⟩ := h' _ n' hn'
  rw [List.append_assoc] at hn''
  exact ⟨n'', hn'', hdrawn.append hdrawn'⟩

theorem of_numbered (h :
    ∀ earlier n, Numbered k earlier c n → Numbered k earlier c' n) :
    Moves k [] [] c c' := by
  intro earlier n hn
  rw [List.append_nil]
  exact ⟨n, h earlier n hn, .nil n⟩

end Moves

namespace Numbered

variable {k : Series} {supplied : List EntityId} {c c' : Contents} {n : Int64}

theorem value_eq (h : Numbered k supplied c n) {m : Int64}
    (hm : c.value? k.sequence = some m) :
    m = n := by
  rcases h.value with hvalue | ⟨hnone, -⟩
  · cases hm.symm.trans hvalue
    rfl
  · obtain ⟨t, _, ht, -⟩ := value?_eq_some.mp hm
    cases hnone.symm.trans ht

theorem of_tables (h : Numbered k supplied c n) (hlaid : c'.Laid)
    (htable : c'.table? k.table.name = c.table? k.table.name)
    (hsequence : c'.table? k.sequence = c.table? k.sequence) :
    Numbered k supplied c' n := by
  obtain ⟨-, hnonneg, hvalue, hkeys⟩ := h
  rw [← value?_congr hsequence] at hvalue hkeys
  rw [← hsequence] at hvalue
  rw [← htable] at hkeys
  exact ⟨hlaid, hnonneg, hvalue, hkeys⟩

theorem of_rewritten (h : Numbered k supplied c n) {name : String}
    {b : StoredTable} (hrewritten : Rewritten name c c') (hb : b ∈ layouts)
    (hname : b.name = name) (htable : k.table.name ≠ name)
    (hsequence : k.sequence ≠ name) : Numbered k supplied c' n :=
  h.of_tables (hrewritten.laid h.laid)
    (hrewritten.table?_other h.laid hb hname k.table_layout
      (ofTable_name k.table) htable)
    (hrewritten.table?_other h.laid hb hname k.sequence_layout rfl hsequence)

theorem of_rewritten_table (h : Numbered k supplied c n) {own : Series}
    (hne : own ≠ k) (hrewritten : Rewritten own.table.name c c') :
    Numbered k supplied c' n :=
  h.of_rewritten hrewritten own.table_layout (ofTable_name own.table)
    (fun heq => hne (Series.table_inj.mp heq).symm)
    (own.table_ne_sequence k).symm

theorem of_rewritten_sequence (h : Numbered k supplied c n) {own : Series}
    (hne : own ≠ k) (hrewritten : Rewritten own.sequence c c') :
    Numbered k supplied c' n :=
  h.of_rewritten hrewritten own.sequence_layout rfl (k.table_ne_sequence own)
    fun heq => hne (Series.sequence_inj.mp heq).symm

theorem of_put (h : Numbered k supplied c n) {t t' : StoredTable}
    {more : List EntityId} (ht : c.table? k.table.name = some t)
    (hblank : t'.blank = t.blank)
    (hrows : ∀ r ∈ t'.rows, (∃ r' ∈ t.rows, r'.key = r.key) ∨
      ∃ id ∈ more, id.value = r.key) :
    Numbered k (supplied ++ more) (c.put t') n := by
  have hrewritten : Rewritten k.table.name c (c.put t') :=
    .inr ⟨t, t', ht, hblank, rfl⟩
  have hsequence : (c.put t').table? k.sequence = c.table? k.sequence :=
    hrewritten.table?_other h.laid k.table_layout (ofTable_name k.table)
      k.sequence_layout rfl (k.table_ne_sequence k).symm
  obtain ⟨hlaid, hnonneg, hvalue, hkeys⟩ := h
  rw [← value?_congr hsequence] at hvalue hkeys
  rw [← hsequence] at hvalue
  refine ⟨hrewritten.laid hlaid, hnonneg, hvalue, fun u hu => ?_⟩
  cases (table?_put_self ht hblank).symm.trans hu
  obtain ⟨hvalue, hkeys⟩ := hkeys t ht
  refine ⟨hvalue, fun r hr => ?_⟩
  rcases hrows r hr with ⟨r', hr', hkey⟩ | ⟨id, hid, hkey⟩
  · obtain ⟨hpositive, hle | ⟨id, hid, hid'⟩⟩ := hkeys r' hr'
    · exact ⟨hkey ▸ hpositive, .inl (hkey ▸ hle)⟩
    · exact ⟨hkey ▸ hpositive,
        .inr ⟨id, List.mem_append_left _ hid, hid'.trans hkey⟩⟩
  · exact ⟨hkey ▸ id.positive, .inr ⟨id, List.mem_append_right _ hid, hkey⟩⟩

theorem absorb {id : EntityId} (h : Numbered k (supplied ++ [id]) c n)
    (hle : id.value ≤ n) :
    Numbered k supplied c n := by
  obtain ⟨hlaid, hnonneg, hvalue, hkeys⟩ := h
  refine ⟨hlaid, hnonneg, hvalue, fun t ht => ?_⟩
  obtain ⟨hvalue, hkeys⟩ := hkeys t ht
  refine ⟨hvalue, fun r hr => ?_⟩
  obtain ⟨hpositive, hle' | ⟨id', hid', hkey⟩⟩ := hkeys r hr
  · exact ⟨hpositive, .inl hle'⟩
  · rcases List.mem_append.mp hid' with hid' | hid'
    · exact ⟨hpositive, .inr ⟨id', hid', hkey⟩⟩
    · cases List.mem_singleton.mp hid'
      exact ⟨hpositive, .inl (hkey ▸ hle)⟩

end Numbered

theorem cell_of_lastNumber {place : Place} {cell : Cell} {m : Int64}
    (h : Plain.lastNumber
      [{ fetches := [({ place, cells := [cell] } : ResultRow).fetch] }] =
      .ok (some m)) : cell = .integer m := by
  cases cell with
  | integer n =>
      cases h
      rfl
  | null | real x | text s | blob bytes => cases h
  | garbled bytes =>
      unfold ResultRow.fetch ResultRow.values Cell.toValue at h
      cases hdecoded : Text.decodeUtf8 bytes with
      | error fault =>
          simp only [hdecoded] at h
          cases h
      | ok s =>
          simp only [hdecoded] at h
          cases h

theorem Int64.toInt_add_one {n : Int64} (h : n ≠ Int64.maxValue) :
    (n + 1).toInt = n.toInt + 1 := by
  have hlt := n.toInt_lt
  have hle := n.le_toInt
  have hne : n.toInt ≠ 2 ^ 63 - 1 := fun heq => h (Int64.toInt_inj.mp heq)
  have hone : (1 : Int64).toInt = 1 := rfl
  rw [Int64.toInt_add, hone, Int.bmod_eq_of_le] <;> omega

section Statements

variable {σ ω : Type} [Backed σ] {w v w' : World σ ω} {k own : Series}
    {supplied : List EntityId} {id : EntityId} {n : Int64} {m : Nat}

/-- The identifier that is drawn comes right after the value of its sequence,
and becomes the value. -/
theorem Numbered.of_nextId (h : Numbered k supplied w.contents n)
    (hid : (Store.nextId k.entity).exec w = (.ok id, w')) :
    id.value.toInt = n.toInt + 1 ∧ Numbered k supplied w'.contents id.value ∧
      w'.contents.table? k.table.name = w.contents.table? k.table.name := by
  obtain ⟨values, hadvance, hlast⟩ := number_of_nextId hid
  obtain ⟨hlaid', htables⟩ := table?_of_nextId hid h.laid k.sequence_layout
  have htable := htables k.table k.table_mem
  obtain ⟨hlaid, hnonneg, hvalue, hkeys⟩ := h
  rcases hvalue with hvalue | ⟨hnone, -⟩
  · obtain ⟨rfl, t, key, ht, hrows⟩ :=
      advance_value hlaid k.sequence_layout hvalue hadvance
    have hfollowing := cell_of_lastNumber hlast
    obtain ⟨hmax, hnext⟩ := following_eq hfollowing
    have hint : id.value.toInt = n.toInt + 1 := by
      rw [hnext, Int64.toInt_add_one hmax]
    have hvalue' : w'.contents.value? k.sequence = some id.value := by
      rw [hfollowing] at hrows
      exact value?_eq_some.mpr ⟨t, key, ht, hrows⟩
    refine ⟨hint, ⟨hlaid', Int64.le_of_lt id.positive, .inl hvalue',
      fun t ht => ?_⟩, htable⟩
    refine ⟨hvalue', fun r hr => ?_⟩
    -- the rows are the old ones, and their keys stay below the new value
    obtain ⟨hpositive, hle | hsupplied⟩ := (hkeys t (htable ▸ ht)).2 r hr
    · refine ⟨hpositive, .inl ?_⟩
      rw [Int64.le_iff_toInt_le] at hle ⊢
      omega
    · exact ⟨hpositive, .inr hsupplied⟩
  · obtain ⟨t, ht, -⟩ := bind_eq_ok.mp hadvance
    cases hnone.symm.trans (table_eq_ok.mp ht)

theorem Numbered.of_nextId_other (h : Numbered k supplied w.contents n)
    (hne : own ≠ k) (hid : (Store.nextId own.entity).exec w = (.ok id, w')) :
    Numbered k supplied w'.contents n := by
  obtain ⟨values, hadvance⟩ := advance_of_nextId hid
  exact h.of_rewritten_sequence hne (advance_rewritten hadvance)

/-- An identifier that is drawn has no row, unless one has been supplied under
it. -/
theorem Numbered.free_of_nextId (h : Numbered k supplied w.contents n)
    (hid : (Store.nextId k.entity).exec w = (.ok id, w')) :
    (∀ t, w'.contents.table? k.table.name = some t →
      requireFree t id.value = .ok ()) ∨
      id ∈ supplied := by
  obtain ⟨hint, -, htable⟩ := h.of_nextId hid
  by_cases hmem : id ∈ supplied
  · exact .inr hmem
  · refine .inl fun t ht => ?_
    unfold requireFree
    rw [if_neg]
    intro hsome
    obtain ⟨r, hr⟩ := Option.isSome_iff_exists.mp hsome
    have hkey := StoredTable.row?_key hr
    obtain ⟨-, hle | ⟨id', hid', hkey'⟩⟩ :=
      (h.keys t (htable ▸ ht)).2 r (List.mem_of_find?_eq_some hr)
    · rw [hkey, Int64.le_iff_toInt_le] at hle
      omega
    · cases EntityId.value_inj.mp (hkey'.trans hkey)
      exact hmem hid'

theorem Numbered.of_insert (own : Series) {values : List Value}
    (h : Numbered k supplied w.contents n)
    (hinsert : (Store.execute (.insert own.table)
      (Value.ofId id :: values)).exec w = (.ok m, w')) :
    Numbered k (supplied ++ own.share k [id]) w'.contents n := by
  by_cases heq : own = k
  · subst heq
    rw [Series.share_self]
    obtain ⟨locked, hchange⟩ := change_of_execute hinsert
    obtain ⟨t, cells, ht, -, -, -, hcontents⟩ :=
      h.laid.insert_eq_ok own.table_layout
        (isSome_keyColumn own.table own.table_mem) hchange
    rw [hcontents]
    refine h.of_put ht (StoredTable.blank_add _ _) fun r hr => ?_
    rcases List.mem_cons.mp ((StoredTable.insertRow_perm _ _).mem_iff.mp hr)
      with rfl | hr
    · exact .inr ⟨id, List.mem_singleton.mpr rfl, rfl⟩
    · exact .inl ⟨r, hr, rfl⟩
  · rw [Series.share_other heq, List.append_nil]
    exact h.of_rewritten_table heq (rewritten_of_insert hinsert)

theorem Numbered.of_update (own : Series) {values : List Value}
    (h : Numbered k supplied w.contents n)
    (hupdate : (Store.execute (.update own.table) values).exec w =
      (.ok m, w')) :
    Numbered k supplied w'.contents n := by
  by_cases heq : own = k
  · subst heq
    obtain ⟨locked, hchange⟩ := change_of_execute hupdate
    obtain ⟨-, hcontents⟩ | ⟨-, t, key, cells, ht, -, -, -, hcontents⟩ :=
      update_eq_ok hchange
    · rwa [hcontents]
    · rw [hcontents, ← List.append_nil supplied]
      refine h.of_put ht (StoredTable.blank_withCells _ _ _) fun r hr => .inl ?_
      obtain ⟨r', hr', rfl⟩ := List.mem_map.mp hr
      exact ⟨r', hr', by split <;> rfl⟩
  · exact h.of_rewritten_table heq (rewritten_of_update hupdate)

theorem Numbered.of_delete (own : Series) {column : String}
    {values : List Value} (h : Numbered k supplied w.contents n)
    (hdelete : (Store.execute (.delete own.table column) values).exec w =
      (.ok m, w')) :
    Numbered k supplied w'.contents n := by
  by_cases heq : own = k
  · subst heq
    obtain ⟨locked, hchange⟩ := change_of_execute hdelete
    obtain ⟨t, ht, -, hcontents⟩ := delete_eq_ok hchange
    rw [hcontents, ← List.append_nil supplied]
    exact h.of_put ht (StoredTable.blank_remove _ _) fun r hr =>
      .inl ⟨r, (List.mem_filter.mp hr).1, rfl⟩
  · exact h.of_rewritten_table heq (rewritten_of_delete hdelete)

theorem Moves.of_drawn (own : Series) {values : List Value}
    (hid : (Store.nextId own.entity).exec w = (.ok id, v))
    (hinsert : (Store.execute (.insert own.table)
      (Value.ofId id :: values)).exec v = (.ok m, w'))
    (k : Series) : Moves k (own.share k [id]) [] w.contents w'.contents := by
  intro earlier n h
  rw [List.append_nil]
  by_cases heq : own = k
  · subst heq
    obtain ⟨hint, h', -⟩ := h.of_nextId hid
    have hafter := h'.of_insert own hinsert
    -- the row counts as supplied at first, but the sequence has reached its key
    rw [Series.share_self] at hafter ⊢
    exact ⟨id.value, hafter.absorb (Int64.le_refl _), .single hint⟩
  · have hafter := (h.of_nextId_other heq hid).of_insert own hinsert
    rw [Series.share_other heq] at hafter ⊢
    rw [List.append_nil] at hafter
    exact ⟨n, hafter, .nil n⟩

theorem Moves.of_supplied (own : Series) {values : List Value}
    (hinsert : (Store.execute (.insert own.table)
      (Value.ofId id :: values)).exec w = (.ok m, w'))
    (k : Series) : Moves k [] (own.share k [id]) w.contents w'.contents :=
  fun _ n h => ⟨n, h.of_insert own hinsert, .nil n⟩

theorem Moves.of_update (own : Series) {values : List Value}
    (hupdate : (Store.execute (.update own.table) values).exec w = (.ok m, w'))
    (k : Series) :
    Moves k [] [] w.contents w'.contents := .of_numbered fun _ _ h =>
      h.of_update own hupdate

theorem Moves.of_delete (own : Series) {column : String} {values : List Value}
    (hdelete : (Store.execute (.delete own.table column) values).exec w =
      (.ok m, w')) (k : Series) : Moves k [] [] w.contents w'.contents :=
  .of_numbered fun _ _ h => h.of_delete own hdelete

end Statements

end Annals
