import Annals.Proofs.Batches
import Annals.Proofs.Fields
import Annals.Proofs.Loading
import Mathlib.Data.List.Nodup

namespace Annals

open Annals.Json Annals.Sql Annals.Stream Annals.Database
    Annals.Database.Contents

namespace Identity

/-- No two aliases denote the same record. -/
def Distinct (i : Identity) : Prop :=
  i.aliases.Pairwise fun a b => a.sameRecord b = false

/-- The identity with its aliases added one after another. -/
def gathered (i : Identity) : Identity :=
  i.aliases.foldl (fun i a => (i.addAlias a).2) { i with aliases := [] }

theorem Distinct.addAlias {i : Identity} (h : i.Distinct) (a : Alias) :
    (i.addAlias a).2.Distinct := by
  by_cases hnew : ∀ m ∈ i.aliases, m.sameRecord a = false
  · rw [addAlias_eq_true_iff.mpr hnew]
    refine List.pairwise_append.mpr ⟨h, List.pairwise_singleton _ a,
      fun m hm a' ha' => ?_⟩
    rw [List.mem_singleton.mp ha']
    exact hnew m hm
  · rw [addAlias_eq_false_iff.mpr (by simpa using hnew)]
    exact h

theorem Distinct.foldl_addAlias {i : Identity} (h : i.Distinct)
    (as : List Alias) :
    (as.foldl (fun i a => (i.addAlias a).2) i).Distinct := by
  induction as generalizing i with
  | nil => exact h
  | cons a as ih => exact ih (h.addAlias a)

/-- Adding the aliases of an identity leaves none out just if no two of them
denote the same record. -/
theorem gathered_eq_iff (i : Identity) : i.gathered = i ↔ i.Distinct := by
  constructor
  · intro h
    rw [← h]
    exact Distinct.foldl_addAlias
      (show Distinct { i with aliases := [] } from .nil) _
  · intro h
    have hfold := foldl_receive (i := { i with aliases := [] }) i.aliases h
    rw [List.foldl_map] at hfold
    exact hfold

theorem distinct_fields : (fields.map Field.name).Nodup := by decide

def listed (json : Json) : List Json :=
  match (Codec.entries fields json).lookup "aliases" with
  | some (.array items) => items
  | _ => []

theorem mapM_listed {json : Json} {i : Identity}
    (h : codec.decode json = .ok i) :
    (listed json).mapM Alias.codec.decode = .ok i.aliases := by
  obtain ⟨values, hvalues, rfl⟩ := map_eq_ok.mp
    (show ((Codec.record "Identity" fields).decode json).map _ = .ok i from h)
  obtain ⟨ident, name, primaryEmail, aliases, ⟨⟩⟩ := values
  obtain ⟨-, -, -, hgives⟩ := Codec.gives_of_record distinct_fields hvalues
  change _ = Except.ok aliases
  unfold listed
  cases hentry : (Codec.entries fields json).lookup "aliases" with
  | none =>
      have hstandIn : some ([] : List Alias) = some aliases := by
        have hstandIn := hgives.stands_in hentry
        cases json <;> exact hstandIn
      cases hstandIn
      rfl
  | some entry =>
      obtain ⟨items, rfl, hitems⟩ :=
        Codec.list_decode_eq_ok (hgives.decode hentry)
      exact hitems

theorem filterMap_of_mapM {ε α β : Type} {f : α → Except ε β} {as : List α}
    {bs : List β} (h : as.mapM f = .ok bs) :
    as.filterMap (fun a => (f a).toOption) = bs := by
  have hall := mapM_eq_ok.mp h
  clear h
  induction hall with
  | nil => rfl
  | cons hb _ ih =>
      rw [List.filterMap_cons, hb, ih]
      rfl

theorem distinct_iff_listed {json : Json} {i : Identity}
    (h : codec.decode json = .ok i) :
    i.Distinct ↔ (listed json).Pairwise fun x y =>
      ∀ a b, Alias.codec.decode x = .ok a → Alias.codec.decode y = .ok b →
        a.sameRecord b = false := by
  have hdecodes (x : Json) (a : Alias) :
      (Alias.codec.decode x).toOption = some a ↔
      Alias.codec.decode x = .ok a := by
    cases Alias.codec.decode x <;> simp [Except.toOption]
  unfold Distinct
  rw [← filterMap_of_mapM (mapM_listed h), List.pairwise_filterMap]
  constructor
  · intro hlisted
    exact hlisted.imp fun hxy a b ha hb =>
      hxy a ((hdecodes _ a).mpr ha) b ((hdecodes _ b).mpr hb)
  · intro hlisted
    exact hlisted.imp fun hxy a ha b hb =>
      hxy a b ((hdecodes _ a).mp ha) ((hdecodes _ b).mp hb)

section Worlds

variable {σ ω : Type} [Backed σ] {w w' : World σ ω}

theorem nodup_of_mapM {owner : EntityId} {as : List Alias} {ids : List EntityId}
    (h : (as.mapM (Alias.insertRow owner)).exec w = (.ok ids, w'))
    (hlaid : w.contents.Laid) :
    (as.filterMap Record.id?).Nodup ∧ ∀ id ∈ as.filterMap Record.id?,
      w.contents.cells? identityAliases.name id.value = none := by
  induction as generalizing ids w with
  | nil => exact ⟨.nil, fun id hid => by cases hid⟩
  | cons a as ih =>
      obtain ⟨own, v, rest, hone, hrest, rfl⟩ :=
        Action.exec_mapM_cons_eq_ok.mp h
      obtain ⟨hlaid', -, hfree, cells, -, hset⟩ :=
        Alias.rowSet_of_insertRow hone hlaid
      obtain ⟨hnodup, hothers⟩ := ih hrest hlaid'
      have hnew : own ∉ as.filterMap Record.id? := by
        intro hmem
        cases hset.1.symm.trans (hothers own hmem)
      have hbefore : ∀ id ∈ as.filterMap Record.id?,
          w.contents.cells? identityAliases.name id.value = none := by
        intro id hid
        have hne : id.value ≠ own.value :=
          fun heq => hnew (EntityId.value_inj.mp heq ▸ hid)
        rw [← hset.2 id.value hne]
        exact hothers id hid
      obtain ⟨u, n, ⟨hid, -⟩ | ⟨hid, -⟩, -⟩ := Alias.insertRow_eq_ok hone
      · rw [List.filterMap_cons_some hid]
        refine ⟨List.nodup_cons.mpr ⟨hnew, hnodup⟩, fun id hmem => ?_⟩
        rcases List.mem_cons.mp hmem with rfl | hmem
        · exact hfree
        · exact hbefore id hmem
      · rw [List.filterMap_cons_none hid]
        exact ⟨hnodup, hbefore⟩

theorem nodup_of_batch {batch : List Identity} {keys : List Keys}
    (h : (batch.mapM adapter.writeOne).exec w = (.ok keys, w'))
    (hlaid : w.contents.Laid) :
    ∀ i ∈ batch, (i.aliases.filterMap Record.id?).Nodup := by
  induction batch generalizing keys w with
  | nil => simp
  | cons i batch ih =>
      obtain ⟨k, v, rest, hone, hrest, rfl⟩ := Action.exec_mapM_cons_eq_ok.mp h
      obtain ⟨u, hlaid', -, haliases, -⟩ := exists_headed hone hlaid
      intro x hx
      rcases List.mem_cons.mp hx with rfl | hx
      · exact (nodup_of_mapM haliases hlaid').1
      · exact ih hrest (placed_of_writeOne hone hlaid).laid x hx

theorem nodup_of_submit {needed : List Capability} {op : String}
    {batch : List Identity} {written : Written Identity}
    (h : (adapter.submit needed op batch).exec w = (.ok written, w'))
    (hok : written.outcome = .ok ()) (hlaid : w.contents.Laid) :
    ∀ i ∈ batch, (i.aliases.filterMap Record.id?).Nodup := by
  rcases Script.Subject.written_of_submit (s := .identity) h hok with
    ⟨rfl, -, -⟩ | ⟨keys, hwrite, -, -⟩
  · intro i hi
    cases hi
  · obtain ⟨u, v, -, hu, hwork, -⟩ := contents_of_write hwrite
    exact nodup_of_batch hwork (hu ▸ hlaid)

end Worlds

theorem Distinct.nodup {i : Identity} (h : i.Distinct) :
    (i.aliases.filterMap Record.id?).Nodup := by
  refine List.pairwise_filterMap.mpr (h.imp fun {a b} hab id hid id' hid' => ?_)
  rintro rfl
  obtain ⟨⟨ida⟩, namea, emaila⟩ := a
  obtain ⟨⟨idb⟩, nameb, emailb⟩ := b
  cases hid
  cases hid'
  exact absurd hab (by simp [Alias.sameRecord])

/-- The aliases of an identity that has been read are those that the document
lists, each one of them.  They are a set just if no two entries denote the same
record, and just if adding them one after another leaves none out.  A set has no
identifier twice; while an alias identifier occurs twice in an identity, no
batch with that identity is saved or updated. -/
theorem aliases_as_listed {json : Json} {i : Identity}
    (h : codec.decode json = .ok i) :
    (listed json).mapM Alias.codec.decode = .ok i.aliases ∧
    (i.Distinct ↔ (listed json).Pairwise fun x y =>
      ∀ a b, Alias.codec.decode x = .ok a → Alias.codec.decode y = .ok b →
        a.sameRecord b = false) ∧
    (i.gathered = i ↔ i.Distinct) ∧
    (i.Distinct → (i.aliases.filterMap Record.id?).Nodup) ∧
    ∀ {σ ω : Type} [Backed σ] (w w' : World σ ω) (batch : List Identity)
      (written : Written Identity),
      Database.ReachableBy keepsIntegrity w.database →
      (adapter.save batch).exec w = (.ok written, w') ∨
        (adapter.updateAll batch).exec w = (.ok written, w') →
      written.outcome = .ok () → i ∈ batch →
      (i.aliases.filterMap Record.id?).Nodup := by
  refine ⟨mapM_listed h, distinct_iff_listed h, i.gathered_eq_iff,
    Distinct.nodup, fun w w' batch written hreach hrun hok hi => ?_⟩
  obtain ⟨needed, op, hsubmit⟩ := exists_submit hrun
  exact nodup_of_submit hsubmit hok hreach.orderly.laid i hi

/-- A document that lists two aliases with one identifier. -/
def doubledText : String :=
  "\x7b\"name\":\"ada\",\"aliases\":[\x7b\"id\":1,\"name\":\"a\",\"email\":\"a\"\x7d,\x7b\"id\":1,\"name\":\"b\",\"email\":\"b\"\x7d]\x7d"

def doubledAlias (name : String) : Json :=
  .object [("email", .string name), ("id", .integer 1), ("name", .string name)]

def doubledJson : Json :=
  .object [("aliases", .array [doubledAlias "a", doubledAlias "b"]),
    ("name", .string "ada")]

def doubled : Identity :=
  { name := "ada", aliases :=
    [{ ident := .ofValue 1, name := "a", email := "a" },
      { ident := .ofValue 1, name := "b", email := "b" }] }

theorem not_distinct_doubled : ¬doubled.Distinct := by
  intro h
  have hsame := List.pairwise_pair.mp h
  revert hsame
  decide

theorem aliases_of_doubled :
    codec.decode doubledJson = .ok doubled ∧
      (¬(listed doubledJson).Pairwise fun x y =>
        ∀ a b, Alias.codec.decode x = .ok a → Alias.codec.decode y = .ok b →
          a.sameRecord b = false) ∧
      Database.ReachableBy keepsIntegrity founded.database ∧
      ∃ written w', (adapter.save [doubled]).exec founded = (.ok written, w') ∧
        written.outcome ≠ .ok () := by
  have hdecode : codec.decode doubledJson = .ok doubled := rfl
  obtain ⟨-, hlisted, -, -, hsave⟩ := aliases_as_listed hdecode
  refine ⟨hdecode, fun h => not_distinct_doubled (hlisted.mpr h),
    reachable_founded, ?_⟩
  rcases hrun : (adapter.save [doubled]).exec founded with ⟨outcome, w'⟩
  have hsubmitted : Script.Subject.Submitted .identity Capability.save.name
      [doubled] founded (outcome, w') :=
    hrun ▸ Script.Subject.submitted_submit .identity _ Capability.save.name
      [doubled] founded
  obtain ⟨written, rfl, -⟩ := hsubmitted.exists_written
  refine ⟨written, w', rfl, fun hok => ?_⟩
  have hnodup :=
    hsave founded w' [doubled] written reachable_founded (.inl hrun) hok
      List.mem_cons_self
  revert hnodup
  decide

/-- It is not so that the aliases of every identity that is read from a document
are a set. -/
theorem not_distinct_of_read :
    ¬ ∀ (text : String) (i : Identity),
      Json.Reader.document codec.read text = .ok i → i.Distinct := by
  intro hclaim
  have hread : (Json.Reader.document codec.read doubledText).toOption =
      some doubled := by
    decide +kernel
  rcases hdocument : Json.Reader.document codec.read doubledText with fault | i
  · rw [hdocument] at hread
    cases hread
  · rw [hdocument] at hread
    cases hread
    exact not_distinct_doubled (hclaim doubledText doubled hdocument)

end Identity

end Annals
