import Annals.Proofs.Histories
import Annals.Proofs.Provenance
import Annals.Proofs.Readers
import Annals.Proofs.Rereading

namespace Annals.Stream

open Annals.Sql

variable {α β : Type}

theorem exists_forall₂ {R : β → α → Prop} {bs : List β}
    (h : ∀ b ∈ bs, ∃ a, R b a) :
    ∃ as, List.Forall₂ R bs as := by
  induction bs with
  | nil => exact ⟨[], .nil⟩
  | cons b bs ih =>
      obtain ⟨a, ha⟩ := h b List.mem_cons_self
      obtain ⟨as, has⟩ := ih fun b' hb' => h b' (List.mem_cons_of_mem b hb')
      exact ⟨a :: as, .cons ha has⟩

theorem forall₂_find? {R : β → α → Prop} {bs : List β} {as : List α}
    (h : List.Forall₂ R bs as) {p : β → Bool} {q : α → Bool}
    (hpq : ∀ b a, R b a → p b = q a) :
    Option.Rel R (bs.find? p) (as.find? q) := by
  induction h with
  | nil => exact .none
  | @cons b a bs as hab _ ih =>
      rw [List.find?_cons, List.find?_cons, hpq b a hab]
      cases q a with
      | true => exact .some hab
      | false => exact ih

theorem pairwise_of_forall₂ {R : β → α → Prop} {P : β → β → Prop}
    {Q : α → α → Prop} {bs : List β} {as : List α} (h : List.Forall₂ R bs as)
    (hbs : bs.Pairwise P)
    (hPQ : ∀ {b b' a a'}, R b a → R b' a' → P b b' → Q a a') :
    as.Pairwise Q := by
  induction h with
  | nil => exact .nil
  | cons hba hrest ih =>
      obtain ⟨hfirst, hbs⟩ := List.pairwise_cons.mp hbs
      refine .cons (fun a' ha' => ?_) (ih hbs)
      obtain ⟨b', hb', hba'⟩ := exists_of_forall₂ hrest ha'
      exact hPQ hba hba' (hfirst b' hb')

namespace Reader

/-- The fetches make the record, and all belong to one key where records are
made of runs of rows. -/
def Bundles : Reader α → Int64 → List Fetch → α → Prop
  | rows l, _, fetches, a => ∃ r, fetches = [.row r] ∧ l.create r = .ok a
  | groups l _, key, fetches, a =>
    ∃ run, fetches = GroupLayout.fetched run ∧ run ≠ [] ∧
      (∀ p ∈ run, p.1 = key ∧ l.key p.2 = .ok key) ∧ l.Makes run a

variable {key : β → Int64} {part : β → List Fetch} {bs : List β} {as : List α}

theorem exists_runs {l : GroupLayout α} {check : Bool}
    (h : List.Forall₂ (fun b a => (groups l check).Bundles (key b) (part b) a)
      bs as) :
    ∃ rs, bs.flatMap part = GroupLayout.fetched rs.flatten ∧
      List.Forall₂ (fun run k => run ≠ [] ∧ ∀ p ∈ run, p.1 = k) rs
        (bs.map key) ∧
      (∀ p ∈ rs.flatten, l.key p.2 = .ok p.1) ∧ List.Forall₂ l.Makes rs as := by
  induction h with
  | nil => exact ⟨[], rfl, .nil, fun p hp => absurd hp List.not_mem_nil, .nil⟩
  | @cons b a bs as hba _ ih =>
      obtain ⟨run, hpart, hne, hkeys, hmakes⟩ := hba
      obtain ⟨rs, hparts, hkeyed, hlookup, hmade⟩ := ih
      refine ⟨run :: rs, ?_, .cons ⟨hne, fun p hp => (hkeys p hp).1⟩ hkeyed,
        fun p hp => ?_, .cons hmakes hmade⟩
      · rw [List.flatMap_cons, hpart, hparts]
        exact List.map_append.symm
      · rcases List.mem_append.mp (List.flatten_cons ▸ hp) with hp | hp
        · rw [(hkeys p hp).2, (hkeys p hp).1]
        · exact hlookup p hp

theorem reads_rows {l : Layout α}
    (h : List.Forall₂ (fun b a => (rows l).Bundles (key b) (part b) a) bs as) :
    (rows l).Reads (bs.flatMap part) as := by
  induction h with
  | nil => exact ⟨[], rfl, .nil⟩
  | @cons b a bs as hba _ ih =>
      obtain ⟨row, hpart, hcreate⟩ := hba
      obtain ⟨made, hparts, hmakes⟩ := ih
      refine ⟨row :: made, ?_, .cons hcreate hmakes⟩
      rw [List.flatMap_cons, hpart, hparts]
      rfl

/-- Bundles in the strict order of their keys are read as the records that they
make, one after the other. -/
theorem reads_bundles {r : Reader α}
    (h : List.Forall₂ (fun b a => r.Bundles (key b) (part b) a) bs as)
    (hkeys : (bs.map key).Pairwise (· < ·)) : r.Reads (bs.flatMap part) as := by
  cases r with
  | rows l => exact reads_rows h
  | groups l check =>
      obtain ⟨rs, hparts, hkeyed, hlookup, hmade⟩ := exists_runs h
      have hruns : AreRuns rs.flatten rs (bs.map key) :=
        ⟨rfl, hkeyed, hkeys.isChain.imp fun _ _ => Int64.ne_of_lt⟩
      refine ⟨rs.flatten, hparts, ⟨hlookup, ?_⟩, fun _ => hruns.ascending hkeys⟩
      rw [hruns.runs_eq]
      exact hmade

end Reader

end Annals.Stream

namespace Annals

open Annals.Sql Annals.Stream Annals.Database Annals.Database.Contents

namespace Script.Subject

theorem eq_of_table {s s' : Subject}
    (h : s.series.table = s'.series.table) : s = s' := by
  cases s <;> cases s' <;> first | rfl | exact absurd h (by decide)

end Script.Subject

namespace Database.StoredRow.Of

variable {r : StoredRow}

theorem exists_record {s : Script.Subject} (h : r.Of s.series.table) :
    ∃ (x : s.Entity) (id : EntityId), Record.id? x = some id ∧
      id.value = r.key ∧
      s.kept x = some r.cells := by
  obtain ⟨hpositive, values, hvalues, hcells⟩ := h
  -- the table leaves one kind of payload only, so the other kinds are ruled out
  -- by it
  generalize htable : s.series.table = table at hvalues hcells
  cases hvalues with
  | @commit c _ h =>
      obtain rfl : s = .commit := Script.Subject.eq_of_table htable
      obtain ⟨cells, hkept, hdrawn⟩ := Commit.drawn_payload h
      cases hdrawn.symm.trans hcells
      exact ⟨({ c with ident := ⟨some ⟨r.key, hpositive⟩⟩ } : Commit), _, rfl,
        rfl, hkept⟩
  | @branch b _ _ hcreated hmerged =>
      obtain rfl : s = .branch := Script.Subject.eq_of_table htable
      obtain ⟨cells, hkept, hdrawn⟩ := Branch.drawn_values hcreated hmerged
      cases hdrawn.symm.trans hcells
      exact ⟨({ b with ident := ⟨some ⟨r.key, hpositive⟩⟩ } : Branch), _, rfl,
        rfl, hkept⟩
  | identity i =>
      obtain rfl : s = .identity := Script.Subject.eq_of_table htable
      have hkept : i.kept = some r.cells :=
        congrArg Except.toOption ((Identity.drawn_values i).symm.trans hcells)
      exact ⟨({ i with ident := ⟨some ⟨r.key, hpositive⟩⟩ } : Identity), _, rfl,
        rfl, hkept⟩
  | owned owner a => cases s <;> exact absurd htable (by decide)

theorem exists_alias (h : r.Of identityAliases) :
    ∃ (owner : EntityId) (a : Alias), (Record.id? a).isSome ∧
      Alias.row owner a = r := by
  obtain ⟨key, cells⟩ := r
  obtain ⟨hpositive, values, hvalues, hcells⟩ := h
  generalize htable : identityAliases = table at hvalues hcells
  cases hvalues with
  | owned owner a =>
      cases (Alias.drawn_values owner a).symm.trans hcells
      exact ⟨owner, { a with ident := ⟨some ⟨key, hpositive⟩⟩ }, rfl, rfl⟩
  | commit | branch | identity => exact absurd htable (by decide)

end Database.StoredRow.Of

namespace Database.Contents

theorem Recorded.exists_aliases {c : Contents} (hc : c.Recorded)
    (id : EntityId) :
    ∃ as : List Alias, (∀ a ∈ as, (Record.id? a).isSome) ∧
      (as.Pairwise fun a b => Record.idValue a < Record.idValue b) ∧
      c.aliasRows id.value = as.map (Alias.row id) := by
  have hrows : ∀ r ∈ c.aliasRows id.value, ∃ a, (Record.id? a).isSome ∧
      Alias.row id a = r := by
    intro r hr
    obtain ⟨t, ht, hr, hlink⟩ := mem_aliasRows.mp hr
    have hblank :=
      hc.laid.ofTable_eq (mem_layouts identityAliases (by decide)) ht
    obtain ⟨owner, a, hset, rfl⟩ :=
      (hc.rows t (mem_of_table? ht) identityAliases (by decide) hblank r
        hr).exists_alias
    have howner : owner.value = id.value := of_decide_eq_true
      ((Cell.integer_equals owner.value id.value).symm.trans hlink)
    refine ⟨a, hset, ?_⟩
    rw [EntityId.value_inj.mp howner]
  obtain ⟨as, has⟩ := exists_forall₂ hrows
  have has : List.Forall₂ (fun a r => (Record.id? a).isSome ∧
      Alias.row id a = r) as (c.aliasRows id.value) := has.flip
  obtain ⟨hset, hmade⟩ := (List.forall₂_and_left as _).mp has
  have hmap : as.map (Alias.row id) = c.aliasRows id.value :=
    List.forall₂_eq_eq_eq ▸ List.forall₂_map_left_iff.mpr hmade
  obtain ⟨ordered, hperm, hascending, hordered⟩ :=
    Identity.exists_ascending hc.toOrderly (.of_eq hmap.symm)
  exact ⟨ordered, fun a ha => hset a (hperm.mem_iff.mp ha),
    hascending, hordered⟩

end Database.Contents

namespace Script.Subject

/-- The rows of a result that belong to one row of the table of an adapter. -/
def part (s : Subject) (c : Contents) (r : StoredRow) : List ResultRow :=
  match s with
  | .commit | .branch => [shownRow r]
  | .identity => familyRows r.key (some r.cells) (c.aliasRows r.key)

def SchemeIn (s : Subject) (c : Contents) : Prop :=
  ∀ table ∈ s.adapter.tables, (c.table? table.name).isSome

theorem read_selection (s : Subject) {c : Contents} (hc : c.Orderly)
    (hscheme : s.SchemeIn c) {t : StoredTable}
    (ht : c.table? s.series.table.name = some t) (one : Option EntityId) :
    c.read (s.adapter.selection one).1 (s.adapter.selection one).2 =
      .ok ((t.chosen one).flatMap (s.part c)) := by
  have hselect : ∀ table ∈ storeTables, c.table? table.name = some t →
      c.read (.select table (one.elim .everything fun _ => .withKey))
        (one.toList.map Value.ofId) =
        .ok ((t.chosen one).flatMap fun r => [shownRow r]) := by
    intro table htable ht
    rw [hc.read_select htable ht one, List.map_eq_flatMap]
  cases s with
  | commit =>
      have hselected := hselect commits (by decide) ht
      cases one <;> exact hselected
  | branch =>
      have hselected := hselect branches (by decide) ht
      cases one <;> exact hselected
  | identity => exact hc.read_families hscheme ht one

/-- The row of a table is read as the record. -/
structure ReadFrom (s : Subject) (c : Contents) (r : StoredRow)
    (x : s.Entity) : Prop where
  id : ∃ id, Record.id? x = some id ∧ id.value = r.key
  bundles : ∀ checkOrdering,
    (s.reader checkOrdering).Bundles r.key ((s.part c r).map ResultRow.fetch) x

theorem exists_readFrom {s : Subject} {c : Contents} (hc : c.Recorded)
    {r : StoredRow} (h : r.Of s.series.table) : ∃ x, s.ReadFrom c r x := by
  obtain ⟨x, id, hid, hkey, hkept⟩ := h.exists_record
  obtain ⟨key, cells⟩ := r
  cases hkey
  cases s with
  | commit =>
      obtain ⟨row, loaded, hfetch, hcreate, t, -, rfl⟩ :=
        Commit.ofRow_of_kept hid hkept
      refine ⟨{ x with committedAt := t }, ⟨id, hid, rfl⟩, ?_⟩
      intro _
      exact ⟨row, congrArg (fun fetch => [fetch]) hfetch, hcreate⟩
  | branch =>
      obtain ⟨row, loaded, hfetch, hcreate, t, merged, -, -, rfl⟩ :=
        Branch.ofRow_of_kept hid hkept
      refine ⟨{ x with createdAt := t, mergedAt := merged }, ⟨id, hid, rfl⟩,
        ?_⟩
      intro _
      exact ⟨row, congrArg (fun fetch => [fetch]) hfetch, hcreate⟩
  | identity =>
      obtain ⟨as, hset, hascending, hrows⟩ := hc.exists_aliases id
      have hdistinct := Identity.distinct_of_ascending hset hascending
      have hfetch := Identity.fetch_familyRows x id as
      refine ⟨{ x with ident := ⟨some id⟩, aliases := as }, ⟨id, rfl, rfl⟩, ?_⟩
      intro _
      refine ⟨_, ?_, ?_, ?_, Identity.makes_joinRows x id hset hdistinct⟩
      · unfold part
        dsimp only
        rw [hrows, ← show x.kept = some cells from hkept, hfetch]
        exact (List.map_map (f := fun a => (id.value, x.joinRow id a))
          (g := fun p : Int64 × Row => Fetch.row p.2)).symm
      · simp [Identity.offered_ne_nil]
      · intro p hp
        obtain ⟨a, -, rfl⟩ := List.mem_map.mp hp
        exact ⟨rfl, rfl⟩

/-- The records are those of the rows of an adapter's table, in the order of the
rows. -/
def Lists (s : Subject) (c : Contents) (all : List s.Entity) : Prop :=
  ∃ t, c.table? s.series.table.name = some t ∧
    List.Forall₂ (s.ReadFrom c) t.rows all

/-- Those of some records for which an adapter asks: all of them, or the one
with an identifier. -/
def chosen (s : Subject) (all : List s.Entity) : Option EntityId → List s.Entity
  | none => all
  | some id => (all.find? fun x => Record.id? x = some id).toList

variable {s : Subject} {c : Contents} {all : List s.Entity}

theorem forall₂_chosen {t : StoredTable}
    (hrows : List.Forall₂ (s.ReadFrom c) t.rows all)
    (one : Option EntityId) : List.Forall₂ (s.ReadFrom c) (t.chosen one)
      (s.chosen all one) := by
  cases one with
  | none => exact hrows
  | some id =>
      have hfound := forall₂_find? hrows (p := (·.key == id.value))
        (q := fun x => Record.id? x = some id) (fun r x hrow => by
          obtain ⟨own, hown, hkey⟩ := hrow.id
          rw [hown, ← hkey, beq_eq_decide]
          exact decide_eq_decide.mpr
            (EntityId.value_inj.trans Option.some_inj.symm))
      unfold StoredTable.chosen StoredTable.row? chosen
      dsimp only
      generalize t.rows.find? (·.key == id.value) = row at hfound ⊢
      generalize all.find? (fun x => decide (Record.id? x = some id)) =
        found at hfound ⊢
      cases hfound with
      | none => exact .nil
      | some hrow => exact .cons hrow .nil

theorem exists_lists (hc : c.Recorded) (hscheme : s.SchemeIn c) :
    ∃ all, s.Lists c all := by
  have htable : s.series.table ∈ s.adapter.tables := by
    cases s <;> exact List.mem_cons_self
  obtain ⟨t, ht⟩ := Option.isSome_iff_exists.mp (hscheme _ htable)
  have hblank := hc.laid.ofTable_eq (mem_layouts _ s.series.table_mem) ht
  obtain ⟨all, hall⟩ := exists_forall₂ fun r hr => exists_readFrom hc
    (hc.rows t (mem_of_table? ht) _ s.series.table_mem hblank r hr)
  exact ⟨all, t, ht, hall⟩

namespace Lists

theorem isSome_id? (h : s.Lists c all) : ∀ x ∈ all, (Record.id? x).isSome := by
  obtain ⟨t, -, hrows⟩ := h
  intro x hx
  obtain ⟨r, -, hrow⟩ := exists_of_forall₂ hrows hx
  obtain ⟨id, hid, -⟩ := hrow.id
  exact Option.isSome_of_mem hid

theorem keys_eq (h : s.Lists c all) :
    (c.table? s.series.table.name).map (·.rows.map StoredRow.key) =
      some (all.map Record.idValue) := by
  obtain ⟨t, ht, hrows⟩ := h
  rw [ht, Option.map_some]
  congr 1
  generalize t.rows = rows at hrows
  induction hrows with
  | nil => rfl
  | cons hrow _ ih =>
      obtain ⟨id, hid, hkey⟩ := hrow.id
      rw [List.map_cons, List.map_cons, ih, ← hkey, Record.idValue_eq hid]

theorem ascending (h : s.Lists c all) (hc : c.Orderly) :
    all.Pairwise fun x y => Record.idValue x < Record.idValue y := by
  obtain ⟨t, ht, hkeys⟩ := Option.map_eq_some_iff.mp h.keys_eq
  rw [← List.pairwise_map (f := Record.idValue) (R := (· < ·)), ← hkeys]
  exact hc.ordered t (mem_of_table? ht)

theorem reads (h : s.Lists c all) (hc : c.Orderly) (hscheme : s.SchemeIn c)
    (checkOrdering : Bool) (one : Option EntityId) :
    ∃ rows, c.read (s.adapter.selection one).1 (s.adapter.selection one).2 =
      .ok rows ∧
      (s.reader checkOrdering).Reads (rows.map ResultRow.fetch)
      (s.chosen all one) := by
  obtain ⟨t, ht, hrows⟩ := h
  have hbundles := (forall₂_chosen hrows one).imp fun r x hrow =>
    hrow.bundles checkOrdering
  refine ⟨_, s.read_selection hc hscheme ht one, ?_⟩
  rw [List.map_flatMap]
  exact Reader.reads_bundles hbundles
    ((hc.ordered t (mem_of_table? ht)).chosen one)

end Lists

end Script.Subject

section Loads

variable {α σ ω : Type} [Backed σ]

/-- The queries of an adapter for every record or for one, made one after the
other, are answered as the database answers them. -/
def Adapter.Answered (a : Adapter α) : List (Option EntityId) → σ → Prop
  | [], _ => True
  | one :: rest, s => a.openings one s = a.openings one (Backed.database s) ∧
      a.Answered rest
        ((Session.query (a.selection one).1 (a.selection one).2).run s).2

theorem Adapter.answered_database (a : Adapter α)
    (asked : List (Option EntityId)) (db : Database) :
    a.Answered asked db := by
  induction asked generalizing db with
  | nil => trivial
  | cons one rest ih => exact ⟨rfl, ih _⟩

theorem Adapter.Answered.scripted {a : Adapter α}
    {asked : List (Option EntityId)} {s : Scripted σ}
    (h : a.Answered asked s.inner) (hfaults : s.faults = []) :
    a.Answered asked s := by
  induction asked generalizing s with
  | nil => trivial
  | cons one rest ih =>
      obtain ⟨inner, calls, faults, failCommit, failRollback⟩ := s
      cases hfaults
      exact ⟨h.1, ih h.2 rfl⟩

namespace Script.Subject.Lists

variable {s : Subject} {w : World σ ω} {all : List s.Entity}

theorem exists_opening (h : s.Lists w.contents all) (hc : w.contents.Orderly)
    (hscheme : s.SchemeIn w.contents) {one : Option EntityId}
    {rest : List (Option EntityId)}
    (hanswered : s.adapter.Answered (one :: rest) w.store.session) :
    ∃ c, s.adapter.openings one w.store.session = .ok [c] ∧
      (s.reader w.store.options.checkGroupOrdering).told c.fetches =
        ending (s.chosen all one) none := by
  obtain ⟨rows, hread, hreads⟩ :=
    h.reads hc hscheme w.store.options.checkGroupOrdering one
  refine ⟨{ fetches := rows.map ResultRow.fetch }, ?_,
    Reader.told_of_reads hreads⟩
  refine hanswered.1.trans
    ((Database.query_of_reading (s.selection_isReading one) _ _).trans ?_)
  exact congrArg (Except.map _) hread

theorem exec_loadAll (h : s.Lists w.contents all) (hc : w.contents.Orderly)
    (hscheme : s.SchemeIn w.contents)
    (hanswered : s.adapter.Answered [none] w.store.session) :
    (s.adapter.loadAll.exec w).1 = .ok all := by
  obtain ⟨c, hopenings, htold⟩ := h.exists_opening hc hscheme hanswered
  have hallowed : s.adapter.require .load = .ok () := by cases s <;> rfl
  exact Adapter.exec_loadAll_of_told s.readsBy hallowed hopenings htold

/-- One record is looked up as the one that the scan lists, and the next look-up
finds the session as the query has left it. -/
theorem exec_lookup (h : s.Lists w.contents all) (hc : w.contents.Orderly)
    (hscheme : s.SchemeIn w.contents) {id : EntityId}
    {rest : List (Option EntityId)}
    (hanswered : s.adapter.Answered (some id :: rest) w.store.session) :
    ∃ v : World σ ω,
      (s.adapter.lookup id).exec w =
        (.ok (all.find? fun x => Record.id? x = some id), v) ∧
      v.contents = w.contents ∧ s.adapter.Answered rest v.store.session := by
  obtain ⟨c, hopenings, htold⟩ := h.exists_opening hc hscheme hanswered
  have hallowed : s.adapter.require .loadById = .ok () := by cases s <;> rfl
  have hfound :=
    (Adapter.exec_load_of_told s.readsBy hallowed hopenings htold).1
      Option.length_toList_le
  rw [Adapter.load, Action.exec_require_bind hallowed, Option.elim_none,
    show (s.chosen all (some id)).head? = _ from Option.head?_toList] at hfound
  have hcontents := (s.lookup_program id).contents_of_reading w
  rw [Adapter.lookup, Adapter.exec_scan] at hfound hcontents ⊢
  rw [Store.exec_scan_opened hopenings
    (s.adapter.single id)] at hfound hcontents ⊢
  exact ⟨_, Prod.ext hfound rfl, hcontents, hanswered.2⟩

theorem exec_load (h : s.Lists w.contents all) (hc : w.contents.Orderly)
    (hscheme : s.SchemeIn w.contents) {id : EntityId}
    (hanswered : s.adapter.Answered [some id] w.store.session) :
    ((s.adapter.load id).exec w).1 =
      .ok (all.find? fun x => Record.id? x = some id) := by
  obtain ⟨v, hlookup, -⟩ := h.exec_lookup hc hscheme hanswered
  have hallowed : s.adapter.require .loadById = .ok () := by cases s <;> rfl
  rw [Adapter.load, Action.exec_require_bind hallowed, hlookup]

theorem exec_lookups (h : s.Lists w.contents all) (hc : w.contents.Orderly)
    (hscheme : s.SchemeIn w.contents) {ids : List EntityId}
    (hanswered : s.adapter.Answered (ids.map some) w.store.session) :
    ∃ v, (ids.mapM s.adapter.lookup).exec w =
      (.ok (ids.map fun id => all.find? fun x => Record.id? x = some id),
        v) := by
  induction ids generalizing w with
  | nil => exact ⟨w, rfl⟩
  | cons id ids ih =>
      -- the first look-up has left the contents, from which all that follows is
      -- read, as they were
      obtain ⟨v, hlookup, hsame, hrest⟩ := h.exec_lookup hc hscheme hanswered
      obtain ⟨v', hlookups⟩ :=
        ih (hsame ▸ h) (hsame ▸ hc) (hsame ▸ hscheme) hrest
      exact ⟨v', Action.exec_mapM_cons_eq_ok.mpr
        ⟨_, v, _, hlookup, hlookups, rfl⟩⟩

theorem exec_loadMany (h : s.Lists w.contents all) (hc : w.contents.Orderly)
    (hscheme : s.SchemeIn w.contents) {ids : List EntityId}
    (hanswered : s.adapter.Answered (ids.map some) w.store.session) :
    ((s.adapter.loadMany ids).exec w).1 =
      .ok (ids.filterMap fun id => all.find? fun x =>
        Record.id? x = some id) := by
  obtain ⟨v, hlookups⟩ := h.exec_lookups hc hscheme hanswered
  have hallowed : s.adapter.require .loadByIds = .ok () := by cases s <;> rfl
  rw [Adapter.loadMany, Action.exec_require_bind hallowed,
    Action.exec_bind_ok hlookups]
  exact congrArg Except.ok List.filterMap_map

end Script.Subject.Lists

/-- Scans, look-ups and batches of look-ups agree.  Wherever adapters have led
to, as long as the scheme of an adapter is there and its queries are answered: a
scan lists a record for each row of the table, in the strict order of their
identifiers; a look-up finds the one with the identifier, or else none; and
several look-ups find those with the identifiers in the order of these, passing
over those that are not there.  None of it depends on whether the order of rows
is checked, or on what has been read before. -/
theorem Script.Subject.loads_agree (s : Subject) {w : World σ ω}
    (hreached : Reached w) (hscheme : s.SchemeIn w.contents) :
    ∃ all : List s.Entity,
      (w.contents.table? s.series.table.name).map (·.rows.map StoredRow.key) =
        some (all.map Record.idValue) ∧
      (∀ x ∈ all, (Record.id? x).isSome) ∧
      (all.Pairwise fun x y => Record.idValue x < Record.idValue y) ∧
      ∀ v : World σ ω, v.contents = w.contents →
        (s.adapter.Answered [none] v.store.session →
          (s.adapter.loadAll.exec v).1 = .ok all) ∧
        (∀ id, s.adapter.Answered [some id] v.store.session →
          ((s.adapter.load id).exec v).1 =
            .ok (all.find? fun x => Record.id? x = some id)) ∧
        ∀ ids, s.adapter.Answered (ids.map some) v.store.session →
          ((s.adapter.loadMany ids).exec v).1 =
            .ok (ids.filterMap fun id => all.find? fun x =>
              Record.id? x = some id) := by
  have hrecorded : w.contents.Recorded := hreached.recorded.now
  obtain ⟨all, hall⟩ := exists_lists hrecorded hscheme
  have hascending := hall.ascending hrecorded.toOrderly
  refine ⟨all, hall.keys_eq, hall.isSome_id?, hascending, ?_⟩
  intro v hv
  rw [← hv] at hall hscheme hrecorded
  refine ⟨?_, ?_, ?_⟩
  · exact hall.exec_loadAll hrecorded.toOrderly hscheme
  · intro id
    exact hall.exec_load hrecorded.toOrderly hscheme
  · intro ids
    exact hall.exec_loadMany hrecorded.toOrderly hscheme

theorem Reached.failing {w : World (Scripted σ) ω} (h : Reached w)
    (failCommit : Bool) :
    Reached (w.failing failCommit) := h.aside rfl

end Loads

open Identity in
/-- The repaired store after three identities have been saved, the last one
without aliases, and the one in the middle has been deleted. -/
def thinned : World (Scripted Database) Unit :=
  ((Identity.adapter.deleteAll [stored 2 "grace" []]).exec
    ((Identity.adapter.save
      [stored 0 "ada" [(0, "x"), (0, "y")], stored 0 "grace" [(0, "z")],
        stored 0 "joan" []]).exec repaired).2).2

theorem reached_thinned : Reached thinned := by
  have hfresh : Reached fresh := .start rfl
  have hunreliable : Reached unreliable :=
    (hfresh.run (.basic (.createScheme .identity))).failing true
  have hrepaired : Reached repaired :=
    (hunreliable.run (.basic (.save .identity [lone]))).failing false
  exact .run (.run hrepaired (.basic (.save .identity _)))
    (.basic (.deleteAll .identity _))

open Identity in
theorem loads_agree_thinned :
    Reached thinned ∧ Script.Subject.identity.SchemeIn thinned.contents ∧
      (Identity.adapter.loadAll.exec thinned).1 =
        .ok [stored 1 "ada" [(1, "x"), (2, "y")], stored 3 "joan" []] ∧
      ((Identity.adapter.load ⟨2, by decide⟩).exec thinned).1 = .ok none ∧
      ((Identity.adapter.loadMany
          [⟨3, by decide⟩, ⟨2, by decide⟩, ⟨1, by decide⟩, ⟨3, by decide⟩]).exec
            thinned).1 =
        .ok [stored 3 "joan" [], stored 1 "ada" [(1, "x"), (2, "y")],
          stored 3 "joan" []] := by
  have hscheme : Script.Subject.identity.SchemeIn thinned.contents := by
    unfold Script.Subject.SchemeIn
    decide +kernel
  have hfaults : thinned.store.session.faults = [] := by decide +kernel
  have hanswered : ∀ asked,
      Identity.adapter.Answered asked thinned.store.session :=
    fun asked => (Identity.adapter.answered_database asked _).scripted hfaults
  obtain ⟨all, -, -, -, hagree⟩ :=
    Script.Subject.loads_agree .identity reached_thinned hscheme
  obtain ⟨hall, hone, hmany⟩ := hagree thinned rfl
  have hloaded : (Identity.adapter.loadAll.exec thinned).1.toOption =
      some [stored 1 "ada" [(1, "x"), (2, "y")], stored 3 "joan" []] := by
    decide +kernel
  have hall := hall (hanswered _)
  obtain rfl : all = _ :=
    Option.some_inj.mp ((congrArg Except.toOption hall).symm.trans hloaded)
  exact ⟨reached_thinned, hscheme, hall, hone _ (hanswered _),
    hmany _ (hanswered _)⟩

end Annals
