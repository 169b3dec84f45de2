import Annals.Proofs.Decoding
import Annals.Proofs.Grouping
import Annals.Proofs.Readers
import Annals.Proofs.Wholeness
import Mathlib.Data.List.Perm.Basic

namespace Annals

open Annals.Sql Annals.Stream Annals.Database Annals.Database.Contents

namespace Identity

/-- The row of the join that an identity makes with one of its aliases, or
without one. -/
def joinRow (i : Identity) (id : EntityId) (a : Option Alias) : Row :=
  ⟨[Value.ofId id, .text i.name, Value.ofOption Value.text i.primaryEmail] ++
    match a with
    | none => [.null, .null, .null]
    | some a => [.integer (Record.idValue a), .text a.name, .text a.email]⟩

/-- What the rows of an identity hold: its aliases, or one time none. -/
def offered : List Alias → List (Option Alias)
  | [] => [none]
  | as => as.map some

theorem fetch_familyRows (i : Identity) (id : EntityId) (as : List Alias) :
    (familyRows id.value i.kept (as.map (Alias.row id))).map ResultRow.fetch =
      (offered as).map fun a => Fetch.row (i.joinRow id a) := by
  obtain ⟨ident, name, primaryEmail, aliases⟩ := i
  cases as with
  | nil => cases primaryEmail <;> rfl
  | cons a as =>
      unfold offered kept familyRows
      rw [List.map_cons]
      dsimp only
      rw [← List.map_cons, List.map_map, List.map_map, List.map_map]
      refine List.map_congr_left fun a _ => ?_
      cases primaryEmail <;> rfl

theorem rowHead_joinRow (i : Identity) (id : EntityId) (a : Option Alias) :
    rowHead (i.joinRow id a) =
      .ok { ident := ⟨some id⟩, name := i.name,
            primaryEmail := i.primaryEmail } :=
  ((decodes_rowHead _).ok_iff _).mpr ⟨⟨id, rfl, rfl⟩, rfl, rfl, rfl⟩

theorem rowAlias_joinRow (i : Identity) (id : EntityId) {a : Option Alias}
    (hset : ∀ b, a = some b → (Record.id? b).isSome) :
    rowAlias (i.joinRow id a) = .ok a := by
  cases a with
  | none => rfl
  | some a =>
      obtain ⟨⟨id?⟩, name, email⟩ := a
      obtain ⟨own, hown⟩ := Option.isSome_iff_exists.mp (hset _ rfl)
      cases hown
      exact ((decodes_rowAlias _).ok_iff _).mpr ⟨⟨own, rfl, rfl⟩, rfl, rfl⟩

theorem foldl_receive {i : Identity} (as : List Alias)
    (hdistinct : (i.aliases ++ as).Pairwise fun a b => a.sameRecord b = false) :
    (as.map some).foldl receive i = { i with aliases := i.aliases ++ as } := by
  induction as generalizing i with
  | nil => simp
  | cons a as ih =>
      have hnew : ∀ m ∈ i.aliases, m.sameRecord a = false := fun m hm =>
        (List.pairwise_append.mp hdistinct).2.2 m hm a List.mem_cons_self
      have hreceive : i.receive (some a) =
          { i with aliases := i.aliases ++ [a] } :=
        congrArg Prod.snd (addAlias_eq_true_iff.mpr hnew)
      rw [List.map_cons, List.foldl_cons, hreceive,
        ih (by simpa using hdistinct)]
      simp

theorem foldl_offered {i : Identity} (as : List Alias) (hnone : i.aliases = [])
    (hdistinct : as.Pairwise fun a b => a.sameRecord b = false) :
    (offered as).foldl receive i = { i with aliases := as } := by
  cases as with
  | nil =>
      obtain ⟨ident, name, primaryEmail, aliases⟩ := i
      cases hnone
      rfl
  | cons a as =>
      have hfold :=
        foldl_receive (i := i) (a :: as) (by simpa [hnone] using hdistinct)
      rw [hnone] at hfold
      exact hfold

theorem mapM_rowAlias (i : Identity) (id : EntityId)
    {found : List (Option Alias)}
    (hset : ∀ b, some b ∈ found → (Record.id? b).isSome) :
    (found.map (i.joinRow id)).mapM rowAlias = .ok found := by
  induction found with
  | nil => rfl
  | cons a found ih =>
      rw [List.map_cons, List.mapM_cons,
        rowAlias_joinRow i id fun b hb => hset b (hb ▸ List.mem_cons_self),
        ih fun b hb => hset b (List.mem_cons_of_mem a hb)]
      rfl

theorem mem_offered {as : List Alias} {a : Alias}
    (h : some a ∈ offered as) : a ∈ as := by
  cases as with
  | nil => simp [offered] at h
  | cons b as => simpa [offered] using h

theorem offered_ne_nil (as : List Alias) : offered as ≠ [] := by
  cases as <;> exact List.cons_ne_nil _ _

theorem makes_joinRows (i : Identity) (id : EntityId) {as : List Alias}
    (hset : ∀ a ∈ as, (Record.id? a).isSome)
    (hdistinct : as.Pairwise fun a b => a.sameRecord b = false) :
    layout.Makes ((offered as).map fun a => (id.value, i.joinRow id a))
      { i with ident := ⟨some id⟩, aliases := as } := by
  have hfound := mapM_rowAlias i id fun b hb => hset b (mem_offered hb)
  have hfold := foldl_offered as
    (i := { ident := ⟨some id⟩, name := i.name,
            primaryEmail := i.primaryEmail }) rfl hdistinct
  obtain ⟨first, others, hoffered⟩ :=
    List.exists_cons_of_ne_nil (offered_ne_nil as)
  rw [hoffered] at hfound hfold ⊢
  refine makes_iff.mpr ⟨_, first :: others, rowHead_joinRow i id first, ?_,
    hfold.symm⟩
  rw [← hfound]
  congr 1
  simp

theorem groups_joinRows (i : Identity) (id : EntityId) {as : List Alias}
    (hset : ∀ a ∈ as, (Record.id? a).isSome)
    (hdistinct : as.Pairwise fun a b => a.sameRecord b = false) :
    layout.Groups ((offered as).map fun a => (id.value, i.joinRow id a))
      [{ i with ident := ⟨some id⟩, aliases := as }] := by
  have hruns : AreRuns ((offered as).map fun a => (id.value, i.joinRow id a))
      [(offered as).map fun a => (id.value, i.joinRow id a)] [id.value] := by
    refine ⟨by simp, .cons ⟨by simp [offered_ne_nil], fun p hp => ?_⟩ .nil,
      .singleton _⟩
    obtain ⟨a, -, rfl⟩ := List.mem_map.mp hp
    rfl
  refine ⟨fun p hp => ?_, ?_⟩
  · obtain ⟨a, -, rfl⟩ := List.mem_map.mp hp
    rfl
  · rw [hruns.runs_eq]
    exact .cons (makes_joinRows i id hset hdistinct) .nil

def selectOne : Statement :=
  .selectFamily identities identityAliases Alias.ownerColumn true

def ofRows (checkOrdering : Bool) (id : EntityId) (rows : List ResultRow) :
    Except Failure (Option Identity) := do
  let stream ← adapter.records checkOrdering
    { fetches := rows.map ResultRow.fetch }
  adapter.single id stream

section Worlds

variable {σ ω : Type} [Backed σ] {w w' : World σ ω}

theorem exec_load (hanswers : Answers w.store.session selectOne)
    (id : EntityId) :
    ((adapter.load id).exec w).1 =
      (w.contents.read selectOne [Value.ofId id] >>=
        ofRows w.store.options.checkGroupOrdering id).mapError .failed :=
  Adapter.exec_load rfl rfl trivial hanswers

/-- The same identity, with its aliases in the order of their identifiers. -/
structure Reordered (i loaded : Identity) : Prop where
  same : loaded = { i with aliases := loaded.aliases }
  perm : loaded.aliases.Perm i.aliases
  ascending : loaded.aliases.Pairwise fun a b =>
    Record.idValue a < Record.idValue b

/-- An identity is its own reordering just if its aliases are in order. -/
theorem Reordered.eq_iff {i loaded : Identity} (h : Reordered i loaded) :
    loaded = i ↔ i.aliases.Pairwise fun a b =>
      Record.idValue a < Record.idValue b := by
  constructor
  · rintro rfl
    exact h.ascending
  · intro hascending
    have heq : loaded.aliases = i.aliases :=
      h.perm.eq_of_pairwise (fun a b _ _ hlt hgt =>
        absurd hgt (Int64.lt_asymm hlt)) h.ascending hascending
    rw [h.same, heq]

theorem exists_ascending {c : Contents} (hc : c.Orderly) {id : EntityId}
    {as : List Alias}
    (h : (c.aliasRows id.value).Perm (as.map (Alias.row id))) :
    ∃ ordered : List Alias, ordered.Perm as ∧
      (ordered.Pairwise fun a b => Record.idValue a < Record.idValue b) ∧
      c.aliasRows id.value = ordered.map (Alias.row id) := by
  obtain ⟨ordered, hrows, hperm⟩ :=
    (congrFun₂ (List.eq_map_comp_perm (Alias.row id))
      (c.aliasRows id.value) as).mpr h
  have hsorted := hc.aliasRows_sorted id.value
  rw [hrows, List.map_map, List.pairwise_map] at hsorted
  exact ⟨ordered, hperm, hsorted, hrows⟩

theorem sameRecord_of_lt {a b : Alias} (ha : (Record.id? a).isSome)
    (hb : (Record.id? b).isSome) (hlt : Record.idValue a < Record.idValue b) :
    a.sameRecord b = false := by
  obtain ⟨⟨ida⟩, namea, emaila⟩ := a
  obtain ⟨⟨idb⟩, nameb, emailb⟩ := b
  obtain ⟨n, hn⟩ := Option.isSome_iff_exists.mp ha
  obtain ⟨m, hm⟩ := Option.isSome_iff_exists.mp hb
  cases hn
  cases hm
  refine beq_false_of_ne ?_
  rintro rfl
  exact Int64.ne_of_lt hlt rfl

theorem distinct_of_ascending {as : List Alias}
    (hset : ∀ a ∈ as, (Record.id? a).isSome)
    (hascending : as.Pairwise fun a b => Record.idValue a < Record.idValue b) :
    as.Pairwise fun a b => a.sameRecord b = false :=
  (List.Pairwise.and_mem.mp hascending).imp fun ⟨ha, hb, hlt⟩ =>
    sameRecord_of_lt (hset _ ha) (hset _ hb) hlt

theorem ofRows_familyRows (checkOrdering : Bool) {i : Identity} {id : EntityId}
    {as : List Alias} (hid : Record.id? i = some id)
    (hset : ∀ a ∈ as, (Record.id? a).isSome)
    (hascending : as.Pairwise fun a b => Record.idValue a < Record.idValue b) :
    ofRows checkOrdering id
      (familyRows id.value i.kept (as.map (Alias.row id))) =
      .ok (some { i with aliases := as }) := by
  have hident : i.ident = ⟨some id⟩ := congrArg Ident.mk hid
  have hascend : Ascending ((offered as).map fun a =>
      (id.value, i.joinRow id a)) :=
      List.pairwise_map.mpr (List.pairwise_of_forall fun _ _ =>
        Int64.le_refl id.value)
  have hreads : (Reader.groups layout checkOrdering).Reads
      ((familyRows id.value i.kept (as.map (Alias.row id))).map ResultRow.fetch)
      [{ i with aliases := as }] := by
    refine ⟨_, ?_, hident ▸ groups_joinRows i id hset
      (distinct_of_ascending hset hascending),
      fun _ => hascend⟩
    rw [fetch_familyRows, GroupLayout.fetched, List.map_map]
    rfl
  exact Adapter.ofRows_of_reads (Script.Subject.readsBy .identity) hreads
    (Nat.le_refl 1)

theorem load_of_familyIn (hanswers : Answers w.store.session selectOne)
    (hw : w.contents.Orderly) (hhoused : w.contents.Housed) {i : Identity}
    (h : i.FamilyIn w.contents) :
    ∃ id loaded, Record.id? i = some id ∧ Reordered i loaded ∧
      ((adapter.load id).exec w).1 = .ok (some loaded) := by
  obtain ⟨id, hid, hset, hcells, hfamily⟩ := h
  obtain ⟨ordered, hperm, hascending, hrows⟩ := exists_ascending hw hfamily
  refine ⟨id, { i with aliases := ordered }, hid, ⟨rfl, hperm, hascending⟩, ?_⟩
  rw [exec_load hanswers, selectOne, hw.read_family hhoused, hcells, hrows]
  change (ofRows _ id _).mapError Stop.failed = _
  rw [ofRows_familyRows _ hid (fun a ha => hset a (hperm.mem_iff.mp ha))
    hascending]
  rfl

theorem load_of_others {batch : List Identity}
    (hanswers : Answers w.store.session selectOne)
    (hanswers' : Answers w'.store.session selectOne) (hw : w.contents.Orderly)
    (hwhole : w.contents.Whole)
    (hset : FamiliesSet batch w.contents w'.contents)
    (hoptions : w'.store.options = w.store.options) {id : EntityId}
    (hother : ∀ x ∈ batch, Record.id? x ≠ some id) :
    ((adapter.load id).exec w').1 = ((adapter.load id).exec w).1 := by
  rw [exec_load hanswers, exec_load hanswers', hoptions]
  rcases hset.housed with ⟨-, hsame⟩ | hhoused
  · rw [hsame]
  · obtain ⟨hhoused, hhoused'⟩ := hhoused hwhole
    obtain ⟨hcells, hrows⟩ := hset.others id hother
    rw [selectOne, hw.read_family hhoused, hset.orderly.read_family hhoused',
      hcells, hrows]

theorem exists_submit {batch : List Identity} {written : Written Identity}
    (h : (adapter.save batch).exec w = (.ok written, w') ∨
      (adapter.updateAll batch).exec w = (.ok written, w')) :
    ∃ needed op, (adapter.submit needed op batch).exec w =
      (.ok written, w') := by
  rcases h with h | h
  · exact ⟨_, _, h⟩
  · exact ⟨_, _, h⟩

theorem options_of_submit {needed : List Capability} {op : String}
    {batch : List Identity} {written : Written Identity}
    (h : (adapter.submit needed op batch).exec w = (.ok written, w')) :
    w'.store.options = w.store.options := by
  have hprogram : Program (Elementary AdapterStatement)
      (adapter.submit needed op batch :
      Action σ ω (Written Identity)) :=
    (Script.Subject.submit_program .identity needed op batch).elementary
      fun _ hs => hs
  have hoptions := (hprogram.settings_eq w).1
  rwa [h] at hoptions

end Worlds

def stored (id : Int64) (name : String)
    (aliases : List (Int64 × String)) : Identity :=
  { ident := .ofValue id, name,
    aliases := aliases.map fun a =>
      { ident := .ofValue a.1, name := a.2, email := a.2 } }

def reopened (db : Database) : World Database Unit :=
  { store := Store.ofSession db {}, memory := () }

theorem database_reopened (db : Database) : (reopened db).database = db := rfl

/-- A new store, in which two identities have been saved. -/
def founded : World Database Unit :=
  ((do
    Identity.adapter.createScheme
    Identity.adapter.save
      [stored 0 "ada" [(0, "x"), (0, "y"), (0, "z")],
        stored 0 "grace" [(0, "w")]] :
      Action Database Unit (Written Identity)).exec
    { store := Store.ofSession {} {}, memory := () }).2

def giver : Identity := stored 1 "ada" [(2, "y"), (3, "z")]

def receiver : Identity := stored 2 "grace" [(4, "w"), (1, "x")]

theorem reachable_founded :
    Database.ReachableBy keepsIntegrity founded.database := by
  have hscheme : Program (Plain AdapterStatement)
      (adapter.createScheme : Action Database Unit Unit) :=
    Script.Subject.createScheme_program .identity
  have hsave (batch : List Identity) : Program (Plain AdapterStatement)
      (adapter.save batch : Action Database Unit (Written Identity)) :=
    Script.Subject.submit_program .identity _ _ batch
  exact ((hscheme.andThen fun _ => hsave _).elementary fun _ hs =>
    hs.keepsIntegrity).reachableBy _ .empty

theorem history_founded : ∃ xs : List Submission, History founded xs := by
  have hempty : History (reopened {}) [] := .start rfl rfl rfl
  have hscheme : ((adapter.createScheme : Action Database Unit Unit).exec
      (reopened {})).1.toOption = some () := by
    decide +kernel
  unfold founded
  change ∃ xs, History (Action.exec _ (reopened {})).2 xs
  rw [Action.exec_bind]
  rcases hmade : (adapter.createScheme : Action Database Unit Unit).exec
    (reopened {}) with ⟨stop | ⟨⟩, w⟩
  · rw [hmade] at hscheme
    cases hscheme
  · have hreached := hempty.createScheme .identity
    change History (adapter.createScheme.exec _).2 _ at hreached
    rw [hmade] at hreached
    exact ⟨_, hreached.save .identity _⟩

theorem whole_founded : founded.contents.Whole := by
  obtain ⟨xs, hhistory⟩ := history_founded
  exact hhistory.whole

theorem updateAll_giver :
    ∃ written w', (adapter.updateAll [giver, receiver]).exec founded =
      (.ok written, w') ∧
      written.outcome = .ok () ∧ written.batch = [giver, receiver] :=
  Written.exists_of_map (by decide +kernel)

section Batches

variable {σ ω : Type} [Backed σ] {w w' : World σ ω}

/-- Identities survive a store whose scheme is whole.  Once a batch has been
saved or updated, every identity of it, unless a later one has its identifier,
is loaded as the call has left it, with neither more nor fewer aliases; these
come in the order of their identifiers.  Any other identity is loaded as before.
Calls outside of any write keep the scheme whole. -/
theorem load_after_batch :
    (∀ (w : World σ ω) (xs : List Submission), History w xs →
      w.contents.Whole) ∧
    ∀ (w w' : World σ ω) (batch : List Identity) (written : Written Identity),
      Database.ReachableBy keepsIntegrity w.database → w.contents.Whole →
      Answers w.store.session selectOne → Answers w'.store.session selectOne →
      (adapter.save batch).exec w = (.ok written, w') ∨
        (adapter.updateAll batch).exec w = (.ok written, w') →
      written.outcome = .ok () →
      (∀ earlier i later, written.batch = earlier ++ i :: later →
        (∀ x ∈ later, Record.id? x ≠ Record.id? i) →
        ∃ id loaded, Record.id? i = some id ∧ Reordered i loaded ∧
          ((adapter.load id).exec w').1 = .ok (some loaded)) ∧
      ∀ id, (∀ x ∈ written.batch, Record.id? x ≠ some id) →
        ((adapter.load id).exec w').1 = ((adapter.load id).exec w).1 := by
  constructor
  · intro w xs hhistory
    exact hhistory.whole
  intro w w' batch written hreach hwhole hanswers hanswers' h hok
  obtain ⟨needed, op, h⟩ := exists_submit h
  have hset := familiesSet_of_submit h hok hreach.orderly
  constructor
  · intro earlier i later hsplit hlater
    have hhoused := (hsplit ▸ hset).housed_of_split hwhole
    have hown := hset.own earlier i later hsplit hlater
    exact load_of_familyIn hanswers' hset.orderly hhoused hown
  · intro id hother
    have hoptions := options_of_submit h
    exact load_of_others hanswers hanswers' hreach.orderly hwhole hset
      hoptions hother

theorem load_after_move :
    Database.ReachableBy keepsIntegrity founded.database ∧
      (∃ xs : List Submission, History founded xs) ∧
      founded.contents.Whole ∧
      ∃ written w', (adapter.updateAll [giver, receiver]).exec founded =
        (.ok written, w') ∧
        written.outcome = .ok () ∧ written.batch = [giver, receiver] ∧
        ∃ id loaded, Record.id? receiver = some id ∧ Reordered receiver loaded ∧
          ((adapter.load id).exec w').1 = .ok (some loaded) := by
  obtain ⟨written, w', hrun, hok, hbatch⟩ := updateAll_giver
  obtain ⟨hhistories, hbatches⟩ := load_after_batch (σ := Database) (ω := Unit)
  obtain ⟨xs, hhistory⟩ := history_founded
  have hwhole := hhistories founded xs hhistory
  obtain ⟨hloaded, -⟩ := hbatches founded w' [giver, receiver] written
    reachable_founded hwhole (answers_database _) (answers_database _)
      (.inr hrun) hok
  have hlast : ∀ x ∈ ([] : List Identity),
      Record.id? x ≠ Record.id? receiver := by simp
  exact ⟨reachable_founded, ⟨xs, hhistory⟩, hwhole, written, w', hrun, hok,
    hbatch, hloaded [giver] receiver [] hbatch hlast⟩

/-- A store in which the table of aliases could not be made, while a write
around it has gone on. -/
def interrupted : World (Scripted Database) Unit :=
  ((Store.write "prepare" adapter.entity
    (Action.observe adapter.createScheme)).exec
    (fresh.armed { fragment := "CREATE TABLE identity_aliases" })).2

def halved : World Database Unit := reopened interrupted.database

theorem reachable_halved :
    Database.ReachableBy keepsIntegrity halved.database := by
  have hscheme : Program (Plain AdapterStatement)
      (adapter.createScheme : Action (Scripted Database) Unit Unit) :=
    Script.Subject.createScheme_program .identity
  have hprepare :=
    (Program.write "prepare" adapter.entity (.attempt hscheme)).elementary
      fun _ hs => hs.keepsIntegrity
  have hreach : Database.ReachableBy keepsIntegrity interrupted.database :=
    hprepare.reachableBy
      (fresh.armed { fragment := "CREATE TABLE identity_aliases" }) .empty
  unfold halved
  rwa [database_reopened]

/-- It is not so that identities survive every store: without a table of
aliases, an identity that has none is saved, but cannot be loaded. -/
theorem load_halved :
    ¬ ∀ (w w' : World Database Unit) (batch : List Identity)
      (written : Written Identity),
      Database.ReachableBy keepsIntegrity w.database →
        Answers w.store.session selectOne → Answers w'.store.session selectOne →
        (adapter.save batch).exec w = (.ok written, w') ∨
          (adapter.updateAll batch).exec w = (.ok written, w') →
        written.outcome = .ok () → ∀ earlier i later,
          written.batch = earlier ++ i :: later →
          (∀ x ∈ later, Record.id? x ≠ Record.id? i) →
          ∃ id loaded, Record.id? i = some id ∧ Reordered i loaded ∧
            ((adapter.load id).exec w').1 = .ok (some loaded) := by
  intro hclaim
  obtain ⟨written, w', hrun, hok, hbatch⟩ : ∃ written w',
      (adapter.save [lone]).exec halved = (.ok written, w') ∧
        written.outcome = .ok () ∧
        written.batch = [{ lone with ident := .ofValue 1 }] :=
    Written.exists_of_map (by decide +kernel)
  obtain ⟨id, loaded, hid, -, hload⟩ :=
    hclaim halved w' [lone] written reachable_halved
      (answers_database _) (answers_database _)
      (.inl hrun) hok [] _ [] hbatch (by simp)
  have hfailed : ((adapter.load ⟨1, by decide⟩).exec
      ((adapter.save [lone]).exec halved).2).1.toOption = none := by
    decide +kernel
  cases hid
  rw [hrun, hload] at hfailed
  cases hfailed

/-- In a store whose scheme is whole, an identity that has been saved or updated
is loaded as the call has left it just if its aliases stand in the order of
their identifiers. -/
theorem load_eq_self_iff {batch : List Identity} {written : Written Identity}
    (hreach : Database.ReachableBy keepsIntegrity w.database)
    (hwhole : w.contents.Whole) (hanswers' : Answers w'.store.session selectOne)
    (h : (adapter.save batch).exec w = (.ok written, w') ∨
      (adapter.updateAll batch).exec w = (.ok written, w'))
    (hok : written.outcome = .ok ()) {earlier later : List Identity}
    {i : Identity} (hsplit : written.batch = earlier ++ i :: later)
    (hlater : ∀ x ∈ later, Record.id? x ≠ Record.id? i) :
    ∃ id, Record.id? i = some id ∧
      (((adapter.load id).exec w').1 = .ok (some i) ↔
      i.aliases.Pairwise fun a b => Record.idValue a < Record.idValue b) := by
  obtain ⟨needed, op, h⟩ := exists_submit h
  have hset := familiesSet_of_submit h hok hreach.orderly
  have hhoused := (hsplit ▸ hset).housed_of_split hwhole
  obtain ⟨id, loaded, hid, hreordered, hload⟩ :=
    load_of_familyIn hanswers' hset.orderly hhoused
      (hset.own earlier i later hsplit hlater)
  refine ⟨id, hid, ?_⟩
  rw [hload, ← hreordered.eq_iff]
  simp

theorem load_eq_self_of_giver :
    Database.ReachableBy keepsIntegrity founded.database ∧
      founded.contents.Whole ∧
      ∃ written w', (adapter.updateAll [giver, receiver]).exec founded =
        (.ok written, w') ∧
        written.outcome = .ok () ∧ ∃ id, Record.id? giver = some id ∧
          ((adapter.load id).exec w').1 = .ok (some giver) := by
  obtain ⟨written, w', hrun, hok, hbatch⟩ := updateAll_giver
  have hlater : ∀ x ∈ [receiver], Record.id? x ≠ Record.id? giver := by decide
  have hascending : giver.aliases.Pairwise fun a b =>
      Record.idValue a < Record.idValue b := by
      decide +kernel
  obtain ⟨id, hid, hiff⟩ :=
    load_eq_self_iff reachable_founded whole_founded (answers_database _)
      (.inr hrun) hok (show written.batch = [] ++ _ from hbatch) hlater
  exact ⟨reachable_founded, whole_founded, written, w', hrun, hok, id, hid,
    hiff.mpr hascending⟩

/-- It is not so that every identity is loaded as a successful call has left it,
not even where the scheme is whole: here an identity has received an older alias
from another one behind its own, and is loaded with that alias in front. -/
theorem load_ne_self :
    ¬ ∀ (w w' : World Database Unit) (batch : List Identity)
      (written : Written Identity),
      Database.ReachableBy keepsIntegrity w.database → w.contents.Whole →
        (adapter.save batch).exec w = (.ok written, w') ∨
          (adapter.updateAll batch).exec w = (.ok written, w') →
        written.outcome = .ok () → ∀ earlier i later,
          written.batch = earlier ++ i :: later →
          (∀ x ∈ later, Record.id? x ≠ Record.id? i) →
            ∃ id, Record.id? i = some id ∧
            ((adapter.load id).exec w').1 = .ok (some i) := by
  intro hclaim
  obtain ⟨written, w', hrun, hok, hbatch⟩ := updateAll_giver
  obtain ⟨id, hid, hload⟩ :=
    hclaim founded w' [giver, receiver] written reachable_founded
      whole_founded (.inr hrun) hok [giver] receiver [] hbatch
        fun x hx => by cases hx
  have hreordered : ((adapter.load ⟨2, by decide⟩).exec
      ((adapter.updateAll [giver, receiver]).exec founded).2).1.toOption =
        some (some (stored 2 "grace" [(1, "x"), (4, "w")])) := by
    decide +kernel
  cases hid
  rw [hrun, hload] at hreordered
  revert hreordered
  decide

end Batches

end Identity

end Annals
