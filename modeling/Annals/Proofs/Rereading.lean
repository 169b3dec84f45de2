import Annals.Proofs.Decoding
import Annals.Proofs.Draws
import Annals.Proofs.Loading

namespace Annals

open Annals.Sql Annals.Stream Annals.Time Annals.Database
    Annals.Database.Contents

/-- What is read in the place of an instant that has been stored. -/
def Time.Instant.ReadAs (t u : Instant) : Prop :=
  ∃ v, Value.ofInstant t = .ok v ∧ (⟨[v]⟩ : Row).instant 0 = .ok u

theorem Time.Instant.readAs_ofEpochNanos {t : Instant} {n : Int64}
    (h : t.epochNanos? = some n) :
    t.ReadAs (.ofEpochNanos n) :=
  ⟨.integer n, Value.ofInstant_eq_ok.mpr ⟨n, h, rfl⟩, Row.instant_of_value rfl⟩

def Commit.LoadedAs (c loaded : Commit) : Prop :=
  ∃ t, c.committedAt.ReadAs t ∧ loaded = { c with committedAt := t }

def Branch.LoadedAs (b loaded : Branch) : Prop :=
  ∃ t merged, b.createdAt.ReadAs t ∧
    Option.Rel Instant.ReadAs b.mergedAt merged ∧
    loaded = { b with createdAt := t, mergedAt := merged }

namespace Script.Subject

/-- The record has been loaded with all that it held, its instants as they are
read. -/
def LoadedAs : (s : Subject) → s.Entity → s.Entity → Prop
  | .commit => Commit.LoadedAs
  | .branch => Branch.LoadedAs
  | .identity => Identity.Reordered

/-- The instants of a record, in the order in which they are encoded. -/
def instants : (s : Subject) → s.Entity → List Instant
  | .commit => fun (c : Commit) => [c.committedAt]
  | .branch => fun (b : Branch) => b.createdAt :: b.mergedAt.toList
  | .identity => fun _ => []

def kept : (s : Subject) → s.Entity → Option (List Cell)
  | .commit => Commit.kept
  | .branch => Branch.kept
  | .identity => Identity.kept

end Script.Subject

theorem Branch.kept_eq_some {b : Branch} {cells : List Cell}
    (h : b.kept = some cells) :
    ∃ n merged, b.createdAt.epochNanos? = some n ∧
      Option.Rel (fun t m => t.epochNanos? = some m) b.mergedAt merged ∧
      cells = [.text b.name, .integer n, merged.elim .null .integer] := by
  obtain ⟨n, hn, h⟩ := Option.bind_eq_some_iff.mp h
  cases hmerged : b.mergedAt with
  | none =>
      simp only [hmerged] at h
      cases h
      exact ⟨n, none, hn, .none, rfl⟩
  | some t =>
      simp only [hmerged] at h
      obtain ⟨cell, hcell, h⟩ := Option.bind_eq_some_iff.mp h
      obtain ⟨m, hm, rfl⟩ := Option.map_eq_some_iff.mp hcell
      cases h
      exact ⟨n, some m, hn, .some hm, rfl⟩

theorem Script.Subject.isSome_epochNanos? {s : Subject} {r : s.Entity}
    {cells : List Cell} (h : s.kept r = some cells) : ∀ t ∈ s.instants r,
      t.epochNanos?.isSome := by
  cases s with
  | commit =>
      obtain ⟨n, hn, -⟩ := Option.bind_eq_some_iff.mp h
      intro t ht
      rw [List.mem_singleton.mp ht, hn]
      rfl
  | branch =>
      obtain ⟨n, merged, hn, hmerged, -⟩ := Branch.kept_eq_some h
      intro t ht
      rcases List.mem_cons.mp ht with rfl | ht
      · rw [hn]
        rfl
      · rw [Option.mem_toList.mp ht] at hmerged
        cases hmerged with
        | some hm =>
            rw [hm]
            rfl
  | identity => exact fun t ht => absurd ht List.not_mem_nil

def Commit.row (c : Commit) (id : EntityId) (committedAt : Int64) : Row :=
  ⟨[Value.ofId id, .text c.revision, Value.ofOption Value.ofId c.authorId,
    Value.ofOption Value.ofId c.branchId, .integer committedAt, .text c.message,
    .integer c.linesAdded, .integer c.linesRemoved]⟩

theorem Commit.ofRow_of_kept {c : Commit} {id : EntityId} {cells : List Cell}
    (hid : Record.id? c = some id) (hkept : c.kept = some cells) :
    ∃ r loaded, ResultRow.fetch ⟨{ key := id.value },
      .integer id.value :: cells⟩ = .row r ∧
      ofRow r = .ok loaded ∧ c.LoadedAs loaded := by
  obtain ⟨n, hn, hcells⟩ := Option.bind_eq_some_iff.mp hkept
  cases hcells
  refine ⟨c.row id n, { c with committedAt := .ofEpochNanos n }, ?_, ?_,
    _, Instant.readAs_ofEpochNanos hn, rfl⟩
  · unfold row
    rcases c.authorId with _ | author <;> rcases c.branchId
      with _ | branch <;> rfl
  · exact ((decodes_ofRow (c.row id n)).ok_iff _).mpr
      ⟨⟨id, rfl, congrArg Ident.mk hid.symm⟩, rfl, rfl, rfl, ⟨n, rfl, rfl⟩,
        rfl, rfl, rfl⟩

def Branch.row (b : Branch) (id : EntityId) (createdAt : Int64)
    (mergedAt : Option Int64) : Row :=
  ⟨[Value.ofId id, .text b.name, .integer createdAt,
    Value.ofOption Value.integer mergedAt]⟩

theorem Branch.ofRow_of_kept {b : Branch} {id : EntityId} {cells : List Cell}
    (hid : Record.id? b = some id) (hkept : b.kept = some cells) :
    ∃ r loaded, ResultRow.fetch ⟨{ key := id.value },
      .integer id.value :: cells⟩ = .row r ∧
      ofRow r = .ok loaded ∧ b.LoadedAs loaded := by
  obtain ⟨n, merged, hn, hmerged, rfl⟩ := Branch.kept_eq_some hkept
  refine ⟨b.row id n merged,
    { b with createdAt := .ofEpochNanos n,
             mergedAt := merged.map .ofEpochNanos }, ?_, ?_,
    _, _, Instant.readAs_ofEpochNanos hn, ?_, rfl⟩
  · cases merged <;> rfl
  · exact ((decodes_ofRow (b.row id n merged)).ok_iff _).mpr
      ⟨⟨id, rfl, congrArg Ident.mk hid.symm⟩, rfl, ⟨n, rfl, rfl⟩,
        merged, rfl, rfl⟩
  · generalize b.mergedAt = mergedAt at hmerged ⊢
    cases hmerged with
    | none => exact .none
    | some hm => exact .some (Instant.readAs_ofEpochNanos hm)

namespace Database.Contents

variable {c : Contents} {table : Table}

def shownRow (r : StoredRow) : ResultRow :=
  ⟨{ key := r.key }, .integer r.key :: r.cells⟩

theorem Orderly.read_select (hc : c.Orderly) (htable : table ∈ storeTables)
    {t : StoredTable} (ht : c.table? table.name = some t)
    (one : Option EntityId) :
    c.read (.select table (one.elim .everything fun _ => .withKey))
      (one.toList.map Value.ofId) = .ok ((t.chosen one).map shownRow) := by
  have hshown : ∀ r : StoredRow,
      (⟨{ key := r.key }, t.shownCells r⟩ : ResultRow) = shownRow r := by
    intro r
    unfold StoredTable.shownCells
    rw [StoredTable.keyColumn_eq_of_blank
      (hc.laid.ofTable_eq (mem_layouts table htable) ht),
      if_pos (isSome_keyColumn table htable)]
    rfl
  unfold read
  dsimp only
  rw [table_eq_ok.mpr ht]
  change Except.ok (select t _ _) = _
  cases one with
  | none =>
      change Except.ok (rowsOf t _) = _
      unfold rowsOf StoredTable.chosen
      rw [List.filter_true]
      exact congrArg Except.ok (List.map_congr_left fun r _ => hshown r)
  | some id =>
      have hgiven : givenKey [Value.ofId id] = some id.value := rfl
      change Except.ok (rowsOf t fun r =>
        givenKey [Value.ofId id] == some r.key) = _
      unfold rowsOf StoredTable.chosen
      rw [hgiven, (hc.ordered t (mem_of_table? ht)).filter_key]
      exact congrArg Except.ok (List.map_congr_left fun r _ => hshown r)

theorem Orderly.read_withKey (hc : c.Orderly) (htable : table ∈ storeTables)
    (id : EntityId) :
    c.read (.select table .withKey) [Value.ofId id] =
      (c.table table.name).map fun _ =>
        (c.cells? table.name id.value).toList.map fun cells =>
          ⟨{ key := id.value }, .integer id.value :: cells⟩ := by
  cases ht : c.table? table.name with
  | none =>
      unfold read Contents.table
      dsimp only
      rw [ht]
      rfl
  | some t =>
      refine (hc.read_select htable ht (some id)).trans ?_
      rw [table_eq_ok.mpr ht, cells?_eq_of_table ht]
      change Except.ok ((t.row? id.value).toList.map shownRow) = _
      cases hrow : t.row? id.value with
      | none => rfl
      | some r =>
          rw [← StoredTable.row?_key hrow]
          rfl

end Database.Contents

namespace Script.Subject

section Loads

variable {σ ω : Type} [Backed σ] {w w' : World σ ω} {s : Subject}

def selectOne (s : Subject) : Statement := .select s.series.table .withKey

theorem exec_load (hs : s ≠ .identity)
    (hanswers : Answers w.store.session s.selectOne)
    (id : EntityId) : ((s.adapter.load id).exec w).1 =
      (w.contents.read s.selectOne [Value.ofId id] >>=
        s.adapter.ofRows w.store.options.checkGroupOrdering id).mapError
          .failed := by
  cases s with
  | commit | branch => exact Adapter.exec_load rfl rfl trivial hanswers
  | identity => exact absurd rfl hs

theorem ofRows_of_kept (hs : s ≠ .identity) {r : s.Entity} {id : EntityId}
    {cells : List Cell} (hid : Record.id? r = some id)
    (hkept : s.kept r = some cells) (checkOrdering : Bool) :
    ∃ loaded, s.LoadedAs r loaded ∧ s.adapter.ofRows checkOrdering id
      [⟨{ key := id.value }, .integer id.value :: cells⟩] =
        .ok (some loaded) := by
  cases s with
  | commit =>
      obtain ⟨row, loaded, hfetch, hcreate, hloaded⟩ :=
        Commit.ofRow_of_kept hid hkept
      have hreads : (reader .commit checkOrdering).Reads
          (List.map ResultRow.fetch [_]) [loaded] :=
        ⟨[row], congrArg (fun fetch => [fetch]) hfetch, .cons hcreate .nil⟩
      exact ⟨loaded, hloaded, Adapter.ofRows_of_reads (readsBy .commit) hreads
        (Nat.le_refl 1)⟩
  | branch =>
      obtain ⟨row, loaded, hfetch, hcreate, hloaded⟩ :=
        Branch.ofRow_of_kept hid hkept
      have hreads : (reader .branch checkOrdering).Reads
          (List.map ResultRow.fetch [_]) [loaded] :=
        ⟨[row], congrArg (fun fetch => [fetch]) hfetch, .cons hcreate .nil⟩
      exact ⟨loaded, hloaded, Adapter.ofRows_of_reads (readsBy .branch) hreads
        (Nat.le_refl 1)⟩
  | identity => exact absurd rfl hs

theorem load_of_keptIn (hs : s ≠ .identity)
    (hanswers : Answers w.store.session s.selectOne)
    (hw : w.contents.Orderly) {r : s.Entity}
    (h : KeptIn s.series.table s.kept w.contents r) :
    ∃ id loaded, Record.id? r = some id ∧ s.LoadedAs r loaded ∧
      ((s.adapter.load id).exec w).1 = .ok (some loaded) := by
  obtain ⟨id, cells, hid, hkept, hcells⟩ := h
  obtain ⟨loaded, hloaded, hrows⟩ :=
    ofRows_of_kept hs hid hkept w.store.options.checkGroupOrdering
  have htable : ∃ t, w.contents.table s.series.table.name = .ok t := by
    obtain ⟨row, hrow, -⟩ := Option.map_eq_some_iff.mp hcells
    obtain ⟨t, ht, -⟩ := Option.bind_eq_some_iff.mp hrow
    exact ⟨t, table_eq_ok.mpr ht⟩
  obtain ⟨t, ht⟩ := htable
  refine ⟨id, loaded, hid, hloaded, ?_⟩
  rw [exec_load hs hanswers, selectOne, hw.read_withKey s.series.table_mem,
    ht, hcells]
  change (s.adapter.ofRows _ id [_]).mapError Stop.failed = _
  rw [hrows]
  rfl

theorem load_congr (hs : s ≠ .identity)
    (hanswers : Answers w.store.session s.selectOne)
    (hanswers' : Answers w'.store.session s.selectOne) (hw : w.contents.Orderly)
    (hw' : w'.contents.Orderly) (hoptions : w'.store.options = w.store.options)
    (hhoused : (w'.contents.table? s.series.table.name).isSome =
      (w.contents.table? s.series.table.name).isSome) {id : EntityId}
    (hcells : w'.contents.cells? s.series.table.name id.value =
      w.contents.cells? s.series.table.name id.value) :
    ((s.adapter.load id).exec w').1 = ((s.adapter.load id).exec w).1 := by
  have hread : w'.contents.read s.selectOne [Value.ofId id] =
      w.contents.read s.selectOne [Value.ofId id] := by
    rw [selectOne, hw.read_withKey s.series.table_mem,
      hw'.read_withKey s.series.table_mem, hcells]
    unfold Contents.table
    cases ht : w.contents.table? s.series.table.name with
    | none =>
        rw [ht] at hhoused
        rw [Option.isNone_iff_eq_none.mp
          (Option.isSome_eq_false_iff.mp hhoused)]
    | some t =>
        rw [ht] at hhoused
        obtain ⟨t', ht'⟩ := Option.isSome_iff_exists.mp hhoused
        rw [ht']
        rfl
  rw [exec_load hs hanswers, exec_load hs hanswers', hoptions, hread]

end Loads

end Script.Subject

end Annals
