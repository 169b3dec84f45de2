import Annals.Proofs.Histories
import Mathlib.Data.List.Forall2

namespace Annals

open Annals.Sql Annals.Stream Annals.Database Annals.Database.Contents

namespace Database.Contents

def rows (c : Contents) (name : String) : List StoredRow :=
  (c.table? name).elim [] StoredTable.rows

theorem rows_eq_of_table {c : Contents} {name : String} {t : StoredTable}
    (ht : c.table? name = some t) : c.rows name = t.rows := by
  unfold rows
  rw [ht]
  rfl

theorem mem_rows {c : Contents} {name : String} {r : StoredRow} :
    r ∈ c.rows name ↔ ∃ t, c.table? name = some t ∧ r ∈ t.rows := by
  unfold rows
  cases c.table? name <;> simp

end Database.Contents

namespace Identity

def NewAliases (i : Identity) : Prop := ∀ a ∈ i.aliases, Record.id? a = none

/-- The alias in the row belongs to the identity. -/
def owns (i : Identity) (r : StoredRow) : Bool :=
  (Record.id? i).any fun id => (Alias.link r).equals id.value

/-- Among the identifiers that come next, as many as the identity has aliases,
there is one that has the row of an alias, and this alias does not belong to the
identity. -/
def Blocked (i : Identity) (c : Contents) (n : Int64) : Prop :=
  ∃ r ∈ c.rows identityAliases.name, i.owns r = false ∧ n.toInt < r.key.toInt ∧
    r.key.toInt ≤ n.toInt + i.aliases.length

end Identity

theorem received_of_none {is : List (Option EntityId)} (h : ∀ i ∈ is, i = none)
    {ids : List EntityId} (hlength : is.length = ids.length) :
    received is (ids.map some) = ids := by
  induction is generalizing ids with
  | nil =>
      cases ids with
      | nil => rfl
      | cons id ids => cases hlength
  | cons i is ih =>
      cases ids with
      | nil => cases hlength
      | cons id ids =>
          cases h i List.mem_cons_self
          have hrest := ih (fun i hi => h i (List.mem_cons_of_mem _ hi))
            (Nat.succ.inj hlength)
          exact congrArg (id :: ·) hrest

theorem Numbered.beyond {k : Series} {supplied : List EntityId} {c : Contents}
    {n : Int64} (h : Numbered k supplied c n) (count : Nat)
    (hfree : ∀ r ∈ c.rows k.table.name, n.toInt < r.key.toInt →
      n.toInt + count < r.key.toInt) :
    Numbered k (supplied.filter fun id => n.toInt + count < id.value.toInt)
      c n := by
  obtain ⟨hlaid, hnonneg, hvalue, hkeys⟩ := h
  refine ⟨hlaid, hnonneg, hvalue, fun t ht => ?_⟩
  obtain ⟨hvalue, hkeys⟩ := hkeys t ht
  refine ⟨hvalue, fun r hr => ?_⟩
  obtain ⟨hpositive, hle | ⟨id, hid, hkey⟩⟩ := hkeys r hr
  · exact ⟨hpositive, .inl hle⟩
  · refine ⟨hpositive, ?_⟩
    by_cases hle : r.key ≤ n
    · exact .inl hle
    · have hlt : n.toInt < r.key.toInt :=
        Int64.lt_iff_toInt_lt.mp (Int64.not_le.mp hle)
      have hbeyond := hfree r (mem_rows.mpr ⟨t, ht, hr⟩) hlt
      rw [← hkey] at hbeyond
      exact .inr ⟨id, List.mem_filter.mpr ⟨hid, by simpa using hbeyond⟩, hkey⟩

section Aliases

variable {σ ω : Type} [Backed σ] {w w' v v' : World σ ω} {xs : List Submission}
    {i : Identity} {keys : Keys} {supplied : List EntityId} {n : Int64}

theorem Alias.free_of_mapM {owner : EntityId} {as : List Alias}
    {ids : List EntityId}
    (h : (as.mapM (insertRow owner)).exec w = (.ok ids, w'))
    (hnew : ∀ a ∈ as, Record.id? a = none)
    (hn : Numbered .aliases supplied w.contents n) {key : Int64}
    (hlt : n.toInt < key.toInt) (hle : key.toInt ≤ n.toInt + as.length) :
    w.contents.cells? identityAliases.name key = none := by
  -- every alias takes the identifier after the value, so the keys up to the
  -- bound are met one by one
  induction as generalizing ids supplied n w with
  | nil =>
      rw [List.length_nil] at hle
      omega
  | cons a as ih =>
      obtain ⟨id, v, rest, hone, hrest, rfl⟩ := Action.exec_mapM_cons_eq_ok.mp h
      obtain ⟨-, -, hfree, cells, -, hset⟩ := rowSet_of_insertRow hone hn.laid
      obtain ⟨u, m, ⟨hold, -⟩ | ⟨-, hid⟩, hinsert⟩ := insertRow_eq_ok hone
      · cases (hnew a List.mem_cons_self).symm.trans hold
      · obtain ⟨hint, hn', -⟩ := hn.of_nextId (k := .aliases) hid
        have hafter := hn'.of_insert .aliases hinsert
        by_cases heq : key = id.value
        · exact heq ▸ hfree
        · have hne : key.toInt ≠ id.value.toInt :=
            fun hsame => heq (Int64.toInt_inj.mp hsame)
          rw [List.length_cons] at hle
          rw [← hset.2 key heq]
          exact ih hrest (fun a ha => hnew a (List.mem_cons_of_mem _ ha)) hafter
            (by omega) (by omega)

namespace Identity

theorem rows_of_delete {id : EntityId} {m : Nat}
    (h : (Store.execute (.delete identityAliases Alias.ownerColumn)
      [Value.ofId id]).exec w =
      (.ok m, w')) (hid : Record.id? i = some id) (hlaid : w.contents.Laid) :
    w'.contents.rows identityAliases.name =
      (w.contents.rows identityAliases.name).filter fun r => !i.owns r := by
  obtain ⟨locked, hchange⟩ := change_of_execute h
  obtain ⟨t, ht, -, hcontents⟩ := delete_eq_ok hchange
  have hblank := hlaid.ofTable_eq (mem_layouts identityAliases (by decide)) ht
  rw [hcontents, rows_eq_of_table
    (table?_put_self ht (StoredTable.blank_remove _ _)), rows_eq_of_table ht]
  refine List.filter_congr fun r _ => ?_
  unfold owns
  rw [hid, Option.any_some, ← Alias.cell_link,
    ← StoredTable.cell_eq_of_blank hblank]
  rfl

theorem exists_cleared (h : (adapter.writeOne i).exec w = (.ok keys, w'))
    (hn : Numbered .aliases supplied w.contents n) :
    ∃ v, (i.aliases.mapM (Alias.insertRow keys.id)).exec v =
      (.ok keys.parts, w') ∧
      Numbered .aliases supplied v.contents n ∧
      v.contents.rows identityAliases.name =
        (w.contents.rows identityAliases.name).filter fun r => !i.owns r := by
  -- a new identity owns no rows yet, and those of another one are deleted
  -- before its aliases are written
  rcases Adapter.writeOne_eq_ok h with ⟨hnone, hinsert⟩ | ⟨id, hid, hupdate⟩
  · obtain ⟨u, v, m, hid, hexecute, haliases⟩ := insertRows_eq_ok hinsert
    obtain ⟨hlaid, htables⟩ := table?_of_nextId hid hn.laid (by decide)
    have htable : v.contents.table? identityAliases.name =
        w.contents.table? identityAliases.name :=
      (table?_of_rewritten (rewritten_of_insert hexecute) hlaid (by decide)
        (by decide) (by decide)).trans (htables identityAliases (by decide))
    have hdrawn : Numbered .aliases supplied u.contents n :=
      hn.of_nextId_other (show Series.identities ≠ .aliases by decide) hid
    have hhead := hdrawn.of_insert .identities hexecute
    rw [Series.share_other (by decide), List.append_nil] at hhead
    refine ⟨v, haliases, hhead, ?_⟩
    have howns : ∀ r, i.owns r = false := fun r => by
      unfold owns
      rw [hnone]
      rfl
    unfold rows
    rw [htable, List.filter_eq_self.mpr fun r _ => by rw [howns]; rfl]
  · obtain ⟨rfl, u, v, m, hexecute, hdelete, haliases⟩ :=
      updateRows_eq_ok hid hupdate
    have hupdated := hn.of_update .identities hexecute
    have htable : u.contents.table? identityAliases.name =
        w.contents.table? identityAliases.name :=
      table?_of_rewritten (rewritten_of_update hexecute) hn.laid (by decide)
        (by decide) (by decide)
    refine ⟨v, haliases, hupdated.of_delete .aliases hdelete, ?_⟩
    rw [rows_of_delete hdelete hid hupdated.laid]
    unfold rows
    rw [htable]

theorem not_blocked_of_writeOne (h :
    (adapter.writeOne i).exec w = (.ok keys, w'))
    (hnew : i.NewAliases) (hn : Numbered .aliases supplied w.contents n) :
    ¬i.Blocked w.contents n := by
  obtain ⟨v, haliases, hnumbered, hrows⟩ := exists_cleared h hn
  rintro ⟨r, hr, howns, hlt, hle⟩
  have hnone := Alias.free_of_mapM haliases hnew hnumbered hlt hle
  have hmem : r ∈ v.contents.rows identityAliases.name := by
    rw [hrows]
    exact List.mem_filter.mpr ⟨hr, by rw [howns]; rfl⟩
  obtain ⟨t, ht, hr⟩ := mem_rows.mp hmem
  rw [cells?_eq_of_table ht, Option.map_eq_none_iff] at hnone
  have hother := List.find?_eq_none.mp hnone r hr
  simp at hother

/-- In the midst of writing an identity with new aliases as many identifiers
have been drawn as there are aliases in front; of those that have been supplied,
only ones beyond a bound below which nothing is in the way can have rows. -/
theorem numbered_underway (h : Underway .identity [i] w v) (hnew : i.NewAliases)
    (hn : Numbered .aliases supplied w.contents n) (count : Nat)
    (hfree : ∀ r ∈ w.contents.rows identityAliases.name, i.owns r = false →
      n.toInt < r.key.toInt → n.toInt + count < r.key.toInt) :
    ∃ n', Numbered .aliases (supplied.filter fun id =>
      n.toInt + count < id.value.toInt) v.contents n' ∧
        n'.toInt = n.toInt + i.aliases.length := by
  obtain ⟨op, session, ks, hbegin, hrun⟩ := h
  obtain ⟨key, u, rest, hone, hrest, rfl⟩ := Action.exec_mapM_cons_eq_ok.mp hrun
  cases hrest
  have hcontents := World.contents_entered op adapter.entity hbegin
  rw [← hcontents] at hn hfree
  obtain ⟨u, haliases, hnumbered, hrows⟩ := exists_cleared hone hn
  have hbeyond := hnumbered.beyond count fun r hr => by
    rw [show Series.aliases.table.name = identityAliases.name from
      rfl, hrows] at hr
    obtain ⟨hr, howns⟩ := List.mem_filter.mp hr
    exact hfree r hr (by simpa using howns)
  have hlength : i.aliases.length = key.parts.length :=
    (Script.Subject.fits_of_writeOne (s := .identity) hone).2.length_eq
  have hempty : ∀ id? ∈ i.aliases.map Record.id?, id? = none := by
    intro id? hid
    obtain ⟨a, ha, rfl⟩ := List.mem_map.mp hid
    exact hnew a ha
  have hmoves := Alias.moves_of_mapM haliases .aliases
  rw [Series.share_self, Series.share_self, List.filterMap_eq_nil_iff.mpr hnew,
    received_of_none hempty (by rw [List.length_map, hlength])] at hmoves
  obtain ⟨n', hn', hdrawn⟩ := hmoves _ n hbeyond
  rw [List.append_nil] at hn'
  exact ⟨n', hn', by rw [hdrawn.toInt_eq, hlength]⟩

theorem not_blocked_of_save {written : Written Identity}
    (houtermost : w.store.writing = false)
    (h : (adapter.save [i]).exec w = (.ok written, w'))
    (hok : written.outcome = .ok ()) (hnew : i.NewAliases)
    (hn : Numbered .aliases supplied w.contents n) :
    ¬i.Blocked w.contents n := by
  rcases Script.Subject.written_of_submit (s := .identity) h hok with
    ⟨hnil, -, -⟩ | ⟨keys, hwrite, -, -⟩
  · cases hnil
  · obtain ⟨u, v, -, hu, hwork, -⟩ := contents_of_write_ok houtermost hwrite
    obtain ⟨key, u', rest, hone, -, -⟩ := Action.exec_mapM_cons_eq_ok.mp hwork
    rw [← hu] at hn ⊢
    exact not_blocked_of_writeOne hone hnew hn

end Identity

/-- The identifiers of aliases.  After every history, and in the midst of a
batch of identities, the key of an alias lies between one and the value of the
sequence, or is an identifier with which an alias has come; the identifier that
is drawn follows the value of the sequence, and has no row unless an alias has
come with it.  An identity with new aliases comes upon no row just if it is not
blocked; if it is, then it cannot be saved, and nothing changes, so that it
cannot be saved thereafter. -/
theorem History.alias_identifiers (h : History w xs) :
    (∀ earlier v, (v = w ∧ earlier = []) ∨ Underway .identity earlier w v →
      ∀ r ∈ v.contents.rows identityAliases.name,
        ∃ n, v.contents.value? Series.aliases.sequence = some n ∧ 1 ≤ r.key ∧
          (r.key ≤ n ∨ ∃ id ∈ xs.flatMap (·.supplied .aliases) ++
            earlier.flatMap (Script.Subject.supplied .aliases .identity),
              id.value = r.key)) ∧
    (∀ earlier v id v' n, Underway .identity earlier w v →
      v.contents.value? Series.aliases.sequence = some n →
      (Store.nextId Alias.entityName).exec v = (.ok id, v') →
      id.value.toInt = n.toInt + 1 ∧
        ((∀ t, v'.contents.table? identityAliases.name = some t →
          requireFree t id.value = .ok ()) ∨
          id ∈ xs.flatMap (·.supplied .aliases) ++
            earlier.flatMap (Script.Subject.supplied .aliases .identity))) ∧
    ∀ n (i : Identity), w.contents.value? Series.aliases.sequence = some n →
      i.NewAliases →
      (¬i.Blocked w.contents n →
        (∀ v id v', Underway .identity [] w v →
          (Store.nextId Identity.entityName).exec v = (.ok id, v') →
          ∀ t, v'.contents.table? identities.name = some t →
            requireFree t id.value = .ok ()) ∧
        ∀ as a bs v id v', i.aliases = as ++ a :: bs →
          Underway .identity [{ i with aliases := as }] w v →
          (Store.nextId Alias.entityName).exec v = (.ok id, v') →
          ∀ t, v'.contents.table? identityAliases.name = some t →
            requireFree t id.value = .ok ()) ∧
      (i.Blocked w.contents n →
        ∃ written w', (Identity.adapter.save [i]).exec w = (.ok written, w') ∧
          written.outcome ≠ .ok () ∧ written.batch = [i] ∧
            w'.contents = w.contents) := by
  obtain ⟨m, hm, -⟩ := h.numbered .aliases
  have hnumbered : ∀ earlier v, (v = w ∧ earlier = []) ∨
      Underway .identity earlier w v →
      ∃ n, Numbered .aliases (xs.flatMap (·.supplied .aliases) ++
        earlier.flatMap (Script.Subject.supplied .aliases .identity))
          v.contents n := by
    rintro earlier v (⟨rfl, rfl⟩ | hv)
    · exact ⟨m, by simpa using hm⟩
    · exact h.numbered_underway hv .aliases
  refine ⟨fun earlier v hv r hr => ?_,
    fun earlier v id v' n hv hvalue hid => ?_,
    fun n i hvalue hnew => ⟨fun hfree => ⟨fun v id v' hv hid t ht => ?_,
      fun as a bs v id v' hsplit hv hid t ht => ?_⟩, fun hblocked => ?_⟩⟩
  · obtain ⟨t, ht, hr⟩ := mem_rows.mp hr
    obtain ⟨n, hn⟩ := hnumbered earlier v hv
    obtain ⟨hvalue, hkeys⟩ := hn.keys t ht
    obtain ⟨hpositive, hkey⟩ := hkeys r hr
    exact ⟨n, hvalue, hpositive, hkey⟩
  · obtain ⟨n', hn⟩ := h.numbered_underway hv .aliases
    cases hn.value_eq hvalue
    exact ⟨(hn.of_nextId (k := .aliases) hid).1,
      hn.free_of_nextId (k := .aliases) hid⟩
  · obtain ⟨n', hn⟩ := h.numbered_underway hv .identities
    rcases hn.free_of_nextId (k := .identities) hid with hfree' | hmem
    · exact hfree' t ht
    · have hnone : xs.flatMap (·.supplied .identities) = [] :=
        List.flatMap_eq_nil_iff.mpr fun x _ =>
          Submission.supplied_series .identity x
      rw [hnone] at hmem
      cases hmem
  · cases hm.value_eq hvalue
    have hnew' : Identity.NewAliases { i with aliases := as } :=
      fun a ha => hnew a (hsplit ▸ List.mem_append_left _ ha)
    obtain ⟨n', hn', hcount⟩ :=
      Identity.numbered_underway hv hnew' hm i.aliases.length
        fun r hr howns hlt => Int.not_le.mp fun hle =>
          hfree ⟨r, hr, howns, hlt, hle⟩
    rcases hn'.free_of_nextId (k := .aliases) hid with hfree' | hmem
    · exact hfree' t ht
    -- what has been supplied and is left lies beyond all identifiers that the
    -- identity draws
    · obtain ⟨hint, -, -⟩ := hn'.of_nextId (k := .aliases) hid
      have hlt := of_decide_eq_true (List.mem_filter.mp hmem).2
      rw [hsplit, List.length_append, List.length_cons] at hlt
      dsimp only at hcount
      omega
  · cases hm.value_eq hvalue
    have hatomic : Script.Subject.identity.Atomic [i] w
        (Identity.adapter.save [i]) :=
      Script.Subject.atomic_submit .identity _ _ [i] h.outside.1 hm.laid
    obtain ⟨written, w', hrun, hafter⟩ := hatomic
    refine ⟨written, w', hrun, ?_⟩
    cases houtcome : written.outcome with
    | error stop =>
        rw [houtcome] at hafter
        exact ⟨nofun, hafter.2, hafter.1⟩
    | ok _ =>
        exact absurd hblocked
          (Identity.not_blocked_of_save h.outside.1 hrun houtcome hnew hm)

end Aliases

def ada : Identity :=
  { name := "ada",
    aliases :=
      [{ ident := .ofValue 1, name := "countess",
         email := "ada@example.org" }] }

def grace : Identity :=
  { name := "grace",
    aliases := [{ name := "amazing", email := "grace@example.org" }] }

/-- The store after an identity has been saved whose alias came with the first
identifier. -/
def occupied : World (Scripted Database) Unit :=
  ((Identity.adapter.save [ada]).exec
    (Identity.adapter.createScheme.exec fresh).2).2

theorem history_occupied : ∃ xs : List Submission, History occupied xs ∧
    (xs.flatMap (·.supplied .aliases)).map EntityId.value = [1] := by
  have hfresh : History fresh [] := .start rfl rfl rfl
  exact ⟨_, (hfresh.createScheme .identity).save .identity [ada], by
    decide +kernel⟩

theorem grace_newAliases : grace.NewAliases := by
  unfold Identity.NewAliases
  decide

theorem grace_blocked : grace.Blocked occupied.contents 0 := by
  refine ⟨{ key := 1,
            cells := [.integer 1, .text "countess", .text "ada@example.org"] },
              ?_, ?_⟩ <;>
    decide +kernel

theorem alias_identifiers_occupied :
    ∃ xs : List Submission, History occupied xs ∧
    (xs.flatMap (·.supplied .aliases)).map EntityId.value = [1] ∧
    occupied.contents.value? Series.aliases.sequence = some 0 ∧
    grace.NewAliases ∧ grace.Blocked occupied.contents 0 ∧
    ∃ written w',
      (Identity.adapter.save [grace]).exec occupied = (.ok written, w') ∧
      written.outcome ≠ .ok () ∧ written.batch = [grace] ∧
      w'.contents = occupied.contents := by
  obtain ⟨xs, h, hsupplied⟩ := history_occupied
  have hvalue : occupied.contents.value? Series.aliases.sequence = some 0 := by
    decide +kernel
  exact ⟨xs, h, hsupplied, hvalue, grace_newAliases, grace_blocked,
    (h.alias_identifiers.2.2 0 grace hvalue grace_newAliases).2 grace_blocked⟩

theorem alias_in_the_way :
    ¬ ∀ (w : World (Scripted Database) Unit) (xs : List Submission),
      History w xs →
      ∀ (i : Identity) (written : Written Identity)
        (w' : World (Scripted Database) Unit) (f : Failure),
        i.NewAliases →
        (Identity.adapter.save [i]).exec w = (.ok written, w') →
        written.outcome = .error (.failed f) →
        f.message ≠ "UNIQUE constraint failed: identity_aliases.id" := by
  intro hclaim
  obtain ⟨xs, h, -⟩ := history_occupied
  obtain ⟨written, w', hsave, houtcome, -⟩ : ∃ written w',
      (Identity.adapter.save [grace]).exec occupied = (.ok written, w') ∧
        written.outcome = .error (.failed (Failure.backend
          "UNIQUE constraint failed: identity_aliases.id")) ∧
        written.batch = [grace] := Written.exists_of_map (by decide +kernel)
  exact hclaim occupied xs h grace written w' _ grace_newAliases hsave
    houtcome rfl

end Annals
