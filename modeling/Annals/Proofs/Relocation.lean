import Annals.Proofs.Ownership

namespace Annals

open Annals.Sql Annals.Stream Annals.Database Annals.Database.Contents

/-- A batch of stored identities whose collections have been changed.  No
identifier of an alias stands in two collections, none is beyond the value of
the sequence, and an alias that moves comes from an identity which stands in
front. -/
structure Relocating (c : Contents) (n : Int64)
    (batch : List Identity) : Prop where
  distinct : (batch.map Record.id?).Nodup
  stored : ∀ i ∈ batch, ∃ before : Identity, before.Distinct ∧
    before.Rearranged i ∧
    ∃ id, Record.id? before = some id ∧
      (c.cells? identities.name id.value).isSome
  below : ∀ i ∈ batch, ∀ id ∈ i.aliasIds, id.value ≤ n
  apart : batch.Pairwise fun i j => ∀ id ∈ i.aliasIds, id ∉ j.aliasIds
  forward : ∀ earlier i later, batch = earlier ++ i :: later →
    ∀ r ∈ c.rows identityAliases.name, (∃ id ∈ i.aliasIds, id.value = r.key) →
      ∃ giver ∈ earlier ++ [i], giver.owns r

theorem Relocating.exists_id {c : Contents} {n : Int64} {batch : List Identity}
    (h : Relocating c n batch) {i : Identity} (hi : i ∈ batch) :
    ∃ id, Record.id? i = some id ∧
      (c.cells? identities.name id.value).isSome := by
  obtain ⟨before, -, hrearranged, id, hid, hstored⟩ := h.stored i hi
  exact ⟨id, hrearranged.id?_eq.trans hid, hstored⟩

theorem Relocating.isSome_id? {c : Contents} {n : Int64} {batch : List Identity}
    (h : Relocating c n batch) : ∀ i ∈ batch, (Record.id? i).isSome := by
  intro i hi
  obtain ⟨id, hid, -⟩ := h.exists_id hi
  rw [hid]
  rfl

def newcomersOf (batch : List Identity) : Nat :=
  (batch.flatMap Identity.aliases).countP fun a => (Record.id? a).isNone

def Identity.aliasRows (i : Identity) : List StoredRow :=
  (Record.id? i).elim [] fun id => i.aliases.map (Alias.row id)

theorem Identity.owns_of_mem {i j : Identity} {r : StoredRow}
    (hr : r ∈ i.aliasRows) (hne : Record.id? i ≠ Record.id? j) :
    j.owns r = false := by
  unfold aliasRows at hr
  cases hi : Record.id? i with
  | none =>
      rw [hi] at hr
      cases hr
  | some id =>
      rw [hi] at hr hne
      obtain ⟨a, -, rfl⟩ := List.mem_map.mp hr
      unfold owns
      cases hj : Record.id? j with
      | none => rfl
      | some other =>
          rw [hj] at hne
          have hvalues : id.value ≠ other.value := fun heq =>
            hne (congrArg some (EntityId.value_inj.mp heq))
          exact (Cell.integer_equals id.value other.value).trans
            (decide_eq_false hvalues)

theorem Identity.filter_aliasRows {i : Identity} {batch : List Identity}
    (h : Record.id? i ∉ batch.map Record.id?) :
    i.aliasRows.filter (fun r => !batch.any (·.owns r)) = i.aliasRows := by
  apply List.filter_eq_self.mpr
  intro r hr
  have hnone : batch.any (·.owns r) = false := by
    apply List.any_eq_false.mpr
    intro j hj howns
    have hne : Record.id? i ≠ Record.id? j :=
      fun heq => h (List.mem_map.mpr ⟨j, hj, heq.symm⟩)
    rw [owns_of_mem hr hne] at howns
    cases howns
  rw [hnone]
  rfl

theorem Identity.filter_owned (i : Identity) (batch : List Identity)
    (rows : List StoredRow) :
    (rows.filter fun r => !i.owns r).filter (fun r => !batch.any (·.owns r)) =
      rows.filter fun r => !(i :: batch).any (·.owns r) := by
  rw [List.filter_filter]
  apply List.filter_congr
  intro r _
  rw [List.any_cons, Bool.not_or, Bool.and_comm]

section Worlds

variable {σ ω : Type} [Backed σ] {w w' : World σ ω}

/-- After a batch the rows of aliases are those of its identities, as they have
been written, and those that belonged to none of its identities before. -/
theorem Identity.rows_of_mapM {batch : List Identity} {keys : List Keys}
    (h : (batch.mapM adapter.writeOne).exec w = (.ok keys, w'))
    (hstored : ∀ i ∈ batch, (Record.id? i).isSome)
    (hdistinct : (batch.map Record.id?).Nodup) (hlaid : w.contents.Laid) :
    (w'.contents.rows identityAliases.name).Perm
      ((List.zipWith Script.Subject.identity.keyed batch keys).flatMap
        aliasRows ++
        (w.contents.rows identityAliases.name).filter fun r =>
          !batch.any (·.owns r)) := by
  induction batch generalizing keys w with
  | nil =>
      cases h
      simp
  | cons i batch ih =>
      obtain ⟨k, v, rest, hone, hrest, rfl⟩ := Action.exec_mapM_cons_eq_ok.mp h
      obtain ⟨id, hid⟩ :=
        Option.isSome_iff_exists.mp (hstored i List.mem_cons_self)
      obtain ⟨hnew, hdistinct'⟩ := List.nodup_cons.mp hdistinct
      have hid' : Record.id? i = some k.id := by
        rw [hid,
          (Script.Subject.fits_of_writeOne (s := .identity) hone).1 id hid]
      let written := Script.Subject.identity.keyed i k
      have hapart : Record.id? written ∉ batch.map Record.id? := fun hmem =>
        hnew (hid' ▸ hmem)
      have hhead := (rows_of_writeOne hone hid hlaid).filter fun r =>
        !batch.any (·.owns r)
      rw [List.filter_append, filter_owned] at hhead
      change ((v.contents.rows identityAliases.name).filter _).Perm
        (written.aliasRows.filter _ ++ _) at hhead
      rw [filter_aliasRows hapart] at hhead
      have htail := ih hrest (fun j hj => hstored j (List.mem_cons_of_mem i hj))
        hdistinct' (placed_of_writeOne hone hlaid).laid
      rw [List.zipWith_cons_cons, List.flatMap_cons]
      refine htail.trans ((hhead.append_left _).trans ?_)
      rw [← List.append_assoc]
      exact List.perm_append_comm.append_right _

theorem Alias.mem_parts {as : List Alias} {ids : List EntityId}
    (hfits : List.Forall₂ Record.Fits as ids) {id : EntityId} (hid : id ∈ ids) :
    id ∈ as.filterMap Record.id? ∨
    id ∈ received (as.map Record.id?) (ids.map some) := by
  induction hfits with
  | nil => cases hid
  | @cons a own as ids hfirst _ ih =>
      rw [List.map_cons, List.map_cons, received_cons, List.mem_append]
      rcases List.mem_cons.mp hid with rfl | hid
      · cases hold : Record.id? a with
        | some old =>
            left
            rw [List.filterMap_cons_some hold, hfirst old hold]
            exact List.mem_cons_self
        | none =>
            right
            left
            simp [received]
      · rcases ih hid with hmem | hmem
        · left
          obtain ⟨b, hb, hid⟩ := List.mem_filterMap.mp hmem
          exact List.mem_filterMap.mpr ⟨b, List.mem_cons_of_mem a hb, hid⟩
        · exact .inr (.inr hmem)

theorem Identity.key_of_mem {i : Identity} {keys : Keys}
    (hfits : Script.Subject.identity.Fits i keys)
    {r : StoredRow}
    (hr : r ∈ (Script.Subject.identity.keyed i keys).aliasRows) :
    ∃ id, id.value = r.key ∧
      (id ∈ i.aliasIds ∨
        id ∈ received (i.aliases.map Record.id?) (keys.parts.map some)) := by
  obtain ⟨a, ha, rfl⟩ := List.mem_map.mp
    (show r ∈ (List.zipWith Record.keyed i.aliases keys.parts).map
      (Alias.row keys.id) from hr)
  have hmem : Record.id? a ∈ keys.parts.map some := by
    rw [← Alias.ids_zipWith hfits.2]
    exact List.mem_map_of_mem ha
  obtain ⟨id, hid, heq⟩ := List.mem_map.mp hmem
  refine ⟨id, ?_, Alias.mem_parts hfits.2 hid⟩
  exact (Record.idValue_eq heq.symm).symm

theorem Identity.received_slots {i : Identity} {keys : Keys}
    (hfits : Script.Subject.identity.Fits i keys) :
    received (Script.Subject.slots .aliases .identity i)
        (Script.Subject.slots .aliases .identity
          (Script.Subject.identity.keyed i keys)) =
      received (i.aliases.map Record.id?) (keys.parts.map some) := by
  have hslots : ∀ j : Identity, Script.Subject.slots .aliases .identity j =
      j.aliases.map Record.id? := by
    intro j
    change Series.identities.share .aliases _ ++ Series.aliases.share
      .aliases _ = _
    rw [Series.share_self, Series.share_other (by decide)]
    rfl
  rw [hslots, hslots, ← Alias.ids_zipWith hfits.2]
  rfl

theorem Relocating.row_before {i j : Identity} {batch : List Identity}
    {keys : Keys} {n n' : Int64} (h : Relocating w.contents n (i :: batch))
    (hw : w.contents.Orderly)
    (hone : (Identity.adapter.writeOne i).exec w = (.ok keys, w'))
    (hdrawn : Consecutive n
      (received (i.aliases.map Record.id?) (keys.parts.map some)) n')
    (hj : j ∈ batch) {id : EntityId} (hid : id ∈ j.aliasIds) {r : StoredRow}
    (hr : r ∈ w'.contents.rows identityAliases.name) (hkey : id.value = r.key) :
    r ∈ w.contents.rows identityAliases.name ∧ i.owns r = false := by
  obtain ⟨own, hown, -⟩ := h.exists_id List.mem_cons_self
  have hrows := Identity.rows_of_writeOne hone hown hw.laid
  rcases List.mem_append.mp (hrows.mem_iff.mp hr) with hnew | hold
  -- an identifier of a later identity is neither one of the first identity nor
  -- a new one
  · exfalso
    obtain ⟨other, hother, hmem | hmem⟩ :=
      Identity.key_of_mem
        (Script.Subject.fits_of_writeOne (s := .identity) hone) hnew
    · rw [← hkey, EntityId.value_inj] at hother
      exact (List.pairwise_cons.mp h.apart).1 j hj other hmem (hother ▸ hid)
    · have hlt := hdrawn.lt_of_mem hmem
      have hle := h.below j (List.mem_cons_of_mem i hj) id hid
      rw [hkey, ← hother, Int64.le_iff_toInt_le] at hle
      omega
  · obtain ⟨hold, hnot⟩ := List.mem_filter.mp hold
    exact ⟨hold, by simpa using hnot⟩

/-- Writing the first identity of a batch leaves the others in the same
position. -/
theorem Relocating.later {i : Identity} {batch : List Identity} {keys : Keys}
    {n n' : Int64} (h : Relocating w.contents n (i :: batch))
    (hw : w.contents.Orderly)
    (hone : (Identity.adapter.writeOne i).exec w = (.ok keys, w'))
    (hdrawn : Consecutive n
      (received (i.aliases.map Record.id?) (keys.parts.map some)) n') :
    Relocating w'.contents n' batch := by
  have hfits : Script.Subject.identity.Fits i keys :=
    Script.Subject.fits_of_writeOne hone
  have hset := Identity.familySet_of_writeOne hone hw
  obtain ⟨hfirst, hdistinct⟩ := List.nodup_cons.mp h.distinct
  obtain ⟨id, hid, -⟩ := h.exists_id List.mem_cons_self
  have hkey : keys.id = id := (hfits.1 id hid).symm
  constructor
  · exact hdistinct
  · intro j hj
    obtain ⟨before, hbefore, hrearranged, other, hother, hstored⟩ :=
      h.stored j (List.mem_cons_of_mem i hj)
    refine ⟨before, hbefore, hrearranged, other, hother, ?_⟩
    have hne : other.value ≠ keys.id.value := by
      intro heq
      rw [hkey, EntityId.value_inj] at heq
      refine hfirst (List.mem_map.mpr ⟨j, hj, ?_⟩)
      rw [hid, ← heq, hrearranged.id?_eq, hother]
    rw [(hset.others other.value hne).1]
    exact hstored
  · intro j hj other hother
    exact Int64.le_trans (h.below j (List.mem_cons_of_mem i hj) other hother)
      hdrawn.le
  · exact (List.pairwise_cons.mp h.apart).2
  · rintro earlier j later rfl r hr ⟨other, hother, heq⟩
    have hj : j ∈ earlier ++ j :: later :=
      List.mem_append_right _ List.mem_cons_self
    obtain ⟨hold, hnot⟩ := h.row_before hw hone hdrawn hj hother hr heq
    obtain ⟨giver, hgiver, howns⟩ :=
      h.forward (i :: earlier) j later rfl r hold ⟨other, hother, heq⟩
    rcases List.mem_cons.mp hgiver with rfl | hgiver
    · rw [hnot] at howns
      cases howns
    · exact ⟨giver, hgiver, howns⟩

theorem Identity.length_received {i : Identity} {keys : Keys}
    (hfits : Script.Subject.identity.Fits i keys) :
    (received (i.aliases.map Record.id?) (keys.parts.map some)).length =
      i.newcomers := by
  rw [Annals.length_received (by rw [List.length_map, hfits.2.length_eq]),
    List.countP_map]
  rfl

section Success

variable {calm : σ → Prop} (h : Faultless σ calm)
include h

theorem Identity.exec_batch {batch : List Identity} {n : Int64}
    (hw : calm w.store.session) (hready : Ready w.contents n)
    (hmoves : Relocating w.contents n batch)
    (hroom : Room n (newcomersOf batch)) :
    ∃ keys n' w', (batch.mapM adapter.writeOne).exec w = (.ok keys, w') ∧
      calm w'.store.session ∧
      Consecutive n (Script.Subject.identity.receivedIn .aliases batch
        (List.zipWith Script.Subject.identity.keyed batch keys)) n' := by
  induction batch generalizing w n with
  | nil => exact ⟨[], n, w, rfl, hw, .nil n⟩
  | cons i batch ih =>
      obtain ⟨before, hbefore, hrearranged, -⟩ :=
        hmoves.stored i List.mem_cons_self
      obtain ⟨id, hid, hstored⟩ := hmoves.exists_id List.mem_cons_self
      have hown : ∀ r ∈ w.contents.rows identityAliases.name,
          (∃ id ∈ i.aliasIds, id.value = r.key) → i.owns r := by
        intro r hr hmem
        obtain ⟨giver, hgiver, howns⟩ := hmoves.forward [] i batch rfl r hr hmem
        rwa [← List.mem_singleton.mp hgiver]
      have hneeded : newcomersOf (i :: batch) = i.newcomers + newcomersOf
          batch := List.countP_append
      rw [hneeded] at hroom
      obtain ⟨k, n', v, hone, hv, hready', hdrawn⟩ :=
        exec_writeOne h hw hready hid hstored
          (hrearranged.distinct hbefore).nodup
          (hmoves.below i List.mem_cons_self) hown
            (hroom.mono (Nat.le_add_right _ _))
      have hfits : Script.Subject.identity.Fits i k :=
        Script.Subject.fits_of_writeOne hone
      have hroom' : Room n' (newcomersOf batch) :=
        Room.after (by rwa [length_received hfits]) hdrawn
      obtain ⟨keys, n'', w', hrest, hw', hdrawn'⟩ :=
        ih hv hready' (hmoves.later hready.orderly hone hdrawn) hroom'
      refine ⟨k :: keys, n'', w', ?_, hw', ?_⟩
      · exact Action.exec_mapM_cons_eq_ok.mpr ⟨k, v, keys, hone, hrest, rfl⟩
      · change Consecutive n (received _ _ ++ _) n''
        rw [received_slots hfits]
        exact hdrawn.append hdrawn'

end Success

/-- What it means that a batch in which aliases move has been updated.  The rows
of aliases are those of the identities as the call has left them, and those that
belonged to none of them; an identifier is that of one row only; the new aliases
have identifiers behind the value of the sequence, and what belonged to the
identities and stands in none of their collections is gone. -/
structure Relocated (batch written : List Identity) (n : Int64)
    (c c' : Contents) : Prop where
  filled : List.Forall₂ Script.Subject.identity.Filled batch written
  fresh : ∃ n',
    Consecutive n (Script.Subject.identity.receivedIn .aliases batch written) n'
  families : ∀ i ∈ written, i.FamilyIn c'
  rows : (c'.rows identityAliases.name).Perm
    (written.flatMap Identity.aliasRows ++
    (c.rows identityAliases.name).filter fun r => !batch.any (·.owns r))
  only : ∀ i ∈ written, ∀ a ∈ i.aliases, ∀ r ∈ c'.rows identityAliases.name,
    r.key = Record.idValue a → ∃ id, Record.id? i = some id ∧ r = Alias.row id a
  gone : ∀ r ∈ c.rows identityAliases.name, (∃ i ∈ batch, i.owns r) →
    (∀ i ∈ batch, ∀ id ∈ i.aliasIds, id.value ≠ r.key) →
      c'.cells? identityAliases.name r.key = none
  others : ∀ id : EntityId, (∀ i ∈ batch, Record.id? i ≠ some id) →
    FamilyKept id.value c c'

theorem Identity.key_of_written {batch : List Identity} {keys : List Keys}
    (hfits : List.Forall₂ Script.Subject.identity.Fits batch keys)
    {r : StoredRow}
    (hr : r ∈ (List.zipWith Script.Subject.identity.keyed batch keys).flatMap
      aliasRows) :
    ∃ id, id.value = r.key ∧ ((∃ i ∈ batch, id ∈ i.aliasIds) ∨
      id ∈ Script.Subject.identity.receivedIn .aliases batch
        (List.zipWith Script.Subject.identity.keyed batch keys)) := by
  induction hfits with
  | nil => simp at hr
  | @cons i k batch keys hfirst _ ih =>
      have hreceived : Script.Subject.identity.receivedIn .aliases (i :: batch)
          (List.zipWith Script.Subject.identity.keyed (i :: batch)
            (k :: keys)) =
            received (i.aliases.map Record.id?) (k.parts.map some) ++
              Script.Subject.identity.receivedIn .aliases batch
                (List.zipWith Script.Subject.identity.keyed batch keys) :=
        congrArg (· ++ _) (received_slots hfirst)
      rw [hreceived]
      rw [List.zipWith_cons_cons, List.flatMap_cons] at hr
      rcases List.mem_append.mp hr with hr | hr
      · obtain ⟨id, hid, hmem | hmem⟩ := key_of_mem hfirst hr
        · exact ⟨id, hid, .inl ⟨i, List.mem_cons_self, hmem⟩⟩
        · exact ⟨id, hid, .inr (List.mem_append_left _ hmem)⟩
      · obtain ⟨id, hid, ⟨j, hj, hmem⟩ | hmem⟩ := ih hr
        · exact ⟨id, hid, .inl ⟨j, List.mem_cons_of_mem i hj, hmem⟩⟩
        · exact ⟨id, hid, .inr (List.mem_append_right _ hmem)⟩

theorem Identity.ids_written {batch : List Identity} {keys : List Keys}
    (hfits : List.Forall₂ Script.Subject.identity.Fits batch keys)
    (hstored : ∀ i ∈ batch, (Record.id? i).isSome) :
    (List.zipWith Script.Subject.identity.keyed batch keys).map Record.id? =
      batch.map Record.id? := by
  induction hfits with
  | nil => rfl
  | @cons i k batch keys hfirst _ ih =>
      obtain ⟨id, hid⟩ :=
        Option.isSome_iff_exists.mp (hstored i List.mem_cons_self)
      rw [List.zipWith_cons_cons, List.map_cons, List.map_cons,
        ih fun j hj => hstored j (List.mem_cons_of_mem i hj), hid,
        hfirst.1 id hid]
      rfl

theorem Identity.isSome_id?_of_written {batch : List Identity}
    {keys : List Keys}
    (hfits : List.Forall₂ Script.Subject.identity.Fits batch keys) :
    ∀ i ∈ List.zipWith Script.Subject.identity.keyed batch keys, ∃ id,
      Record.id? i = some id := by
  intro i hi
  have hmem := List.mem_map_of_mem (f := Record.id?) hi
  rw [Script.Subject.ids_zipWith hfits] at hmem
  obtain ⟨k, -, hk⟩ := List.mem_map.mp hmem
  exact ⟨k.id, hk.symm⟩

theorem FamiliesSet.familyIn {batch : List Identity} {c c' : Contents}
    (h : FamiliesSet batch c c') (hdistinct : (batch.map Record.id?).Nodup)
    {i : Identity} (hi : i ∈ batch) : i.FamilyIn c' := by
  obtain ⟨earlier, later, hsplit⟩ := List.append_of_mem hi
  apply h.own earlier i later hsplit
  intro x hx heq
  rw [hsplit, List.map_append, List.map_cons] at hdistinct
  have hrest := (List.nodup_append.mp hdistinct).2.1
  exact (List.nodup_cons.mp hrest).1 (List.mem_map.mpr ⟨x, hx, heq⟩)

/-- What has happened where a batch has been written under some keys. -/
structure Identity.Moved (batch : List Identity) (keys : List Keys) (n : Int64)
    (c c' : Contents) :
    Prop where
  fits : List.Forall₂ Script.Subject.identity.Fits batch keys
  drawn : ∃ n', Consecutive n (Script.Subject.identity.receivedIn .aliases batch
    (List.zipWith Script.Subject.identity.keyed batch keys)) n'
  rows : (c'.rows identityAliases.name).Perm
    ((List.zipWith Script.Subject.identity.keyed batch keys).flatMap
      aliasRows ++
      (c.rows identityAliases.name).filter fun r => !batch.any (·.owns r))

theorem Identity.Moved.dropped {batch : List Identity} {keys : List Keys}
    {n : Int64} {c c' : Contents} (h : Moved batch keys n c c') (hc : c.Orderly)
    (hbelow : ∀ r ∈ c.rows identityAliases.name, r.key ≤ n)
    {r : StoredRow} (hr : r ∈ c.rows identityAliases.name)
    (howns : ∃ i ∈ batch, i.owns r)
    (hdropped : ∀ i ∈ batch, ∀ id ∈ i.aliasIds, id.value ≠ r.key) :
    c'.cells? identityAliases.name r.key = none := by
  obtain ⟨n', hdrawn⟩ := h.drawn
  apply cells?_eq_none
  intro r' hr' hkey
  rcases List.mem_append.mp (h.rows.mem_iff.mp hr') with hnew | hold
  · obtain ⟨id, hid, ⟨i, hi, hmem⟩ | hmem⟩ := key_of_written h.fits hnew
    · exact hdropped i hi id hmem (hid.trans hkey)
    · have hlt := hdrawn.lt_of_mem hmem
      have hle := hbelow r hr
      rw [← hkey, ← hid, Int64.le_iff_toInt_le] at hle
      omega
  · obtain ⟨hold, hnot⟩ := List.mem_filter.mp hold
    have hany : batch.any (·.owns r') = true := by
      rw [hc.eq_of_key hold hr hkey]
      exact List.any_eq_true.mpr howns
    simp [hany] at hnot

theorem Identity.Moved.relocated {batch : List Identity} {keys : List Keys}
    {n : Int64} {c c' : Contents} (h : Moved batch keys n c c')
    (hmoves : Relocating c n batch) (hc : c.Orderly)
    (hbelow : ∀ r ∈ c.rows identityAliases.name, r.key ≤ n)
    (hset : FamiliesSet
      (List.zipWith Script.Subject.identity.keyed batch keys) c c') :
    Relocated batch
      (List.zipWith Script.Subject.identity.keyed batch keys) n c c' := by
  have hids := ids_written h.fits hmoves.isSome_id?
  constructor
  · exact Record.forall₂_zipWith
      (fun i k (hone : Script.Subject.identity.Fits i k) => hone.filled) h.fits
  · exact h.drawn
  · have hdistinct := hmoves.distinct
    rw [← hids] at hdistinct
    exact fun i hi => hset.familyIn hdistinct hi
  · exact h.rows
  · intro i hi a ha r hr hkey
    obtain ⟨id, hid⟩ := isSome_id?_of_written h.fits i hi
    have hmem : Alias.row id a ∈ i.aliasRows := by
      unfold aliasRows
      rw [hid]
      exact List.mem_map_of_mem ha
    have hwritten : Alias.row id a ∈ c'.rows identityAliases.name :=
      h.rows.mem_iff.mpr
        (List.mem_append_left _ (List.mem_flatMap.mpr ⟨i, hi, hmem⟩))
    exact ⟨id, hid, hset.orderly.eq_of_key hr hwritten hkey⟩
  · intro r hr howns hdropped
    exact h.dropped hc hbelow hr howns hdropped
  · intro id hother
    refine hset.others id fun x hx heq => ?_
    have hmem : some id ∈ batch.map Record.id? := by
      rw [← hids, ← heq]
      exact List.mem_map_of_mem hx
    obtain ⟨i, hi, hid⟩ := List.mem_map.mp hmem
    exact hother i hi hid

section Success

variable {calm : σ → Prop} (h : Faultless σ calm)
include h

theorem Identity.exec_update {batch : List Identity} {n : Int64}
    (hw : calm w.store.session)
    (hfree : w.store.writing = false → w.database.saved = none)
    (horderly : w.contents.Orderly) (hwhole : w.contents.Whole)
    (hvalue : w.contents.value? Series.aliases.sequence = some n)
    (hbelow : ∀ r ∈ w.contents.rows identityAliases.name, r.key ≤ n)
    (hmoves : Relocating w.contents n batch)
    (hroom : Room n (newcomersOf batch)) (hbatch : batch ≠ []) :
    ∃ keys w', (adapter.updateAll batch).exec w =
        (.ok ⟨.ok (), List.zipWith Script.Subject.identity.keyed batch keys⟩,
          w') ∧
      Moved batch keys n w.contents w'.contents := by
  have hready : Ready w.contents n := by
    refine ⟨horderly, hwhole.housed ?_, hvalue, hbelow⟩
    obtain ⟨i, hi⟩ := List.exists_mem_of_ne_nil batch hbatch
    obtain ⟨id, -, hstored⟩ := hmoves.exists_id hi
    obtain ⟨t, ht, -⟩ := isSome_cells?.mp hstored
    rw [ht]
    rfl
  have hprogram : Program (Elementary AdapterStatement)
      (batch.mapM adapter.writeOne : Action σ ω (List Keys)) :=
    (Program.mapM (Script.Subject.writeOne_program .identity) batch).elementary
      fun _ hp => hp
  have hwritten : ∃ keys w', (Store.write Capability.update.name adapter.entity
      (batch.mapM adapter.writeOne)).exec w = (.ok keys, w') ∧
        Moved batch keys n w.contents w'.contents := by
    refine h.exec_write hw hfree hprogram fun u hu _ hcontents => ?_
    rw [← hcontents] at hready hmoves horderly ⊢
    obtain ⟨keys, n', v, hrun, hv, hdrawn⟩ :=
      exec_batch h hu hready hmoves hroom
    refine ⟨keys, v, hrun, hv, Script.Subject.fits_of_mapM (s := .identity)
      hrun, ⟨n', hdrawn⟩, ?_⟩
    exact rows_of_mapM hrun hmoves.isSome_id? hmoves.distinct horderly.laid
  obtain ⟨keys, w', hwrite, hmoved⟩ := hwritten
  refine ⟨keys, w', ?_, hmoved⟩
  exact Script.Subject.exec_submit_written (s := .identity) (by split <;> rfl)
    hbatch hwrite hmoved.fits

end Success

/-- In a store that has been reached, aliases move within a batch, and the value
of their sequence is not behind any of their identifiers. -/
structure Identity.Movable (w : World σ ω) (batch : List Identity)
    (n : Int64) : Prop where
  reachable : Database.ReachableBy keepsIntegrity w.database
  value : w.contents.value? Series.aliases.sequence = some n
  below : ∀ r ∈ w.contents.rows identityAliases.name, r.key ≤ n
  relocating : Relocating w.contents n batch

/-- Aliases that move within a batch.  If no call fails, the scheme is whole,
and no transaction is left open where no write is under way, then a batch in
which aliases move from the front to the back is updated, as long as there are
identifiers for its new aliases.  Calls outside of any write leave the scheme
whole and no transaction open. -/
theorem Identity.update_relocating {calm : σ → Prop} (h : Faultless σ calm) :
    (∀ (w : World σ ω) (xs : List Submission), History w xs →
      w.contents.Whole ∧ w.database.saved = none) ∧
    ∀ (w : World σ ω) (batch : List Identity) (n : Int64),
      calm w.store.session →
      (w.store.writing = false → w.database.saved = none) →
      w.contents.Whole → Movable w batch n → Room n (newcomersOf batch) →
      ∃ written w', (adapter.updateAll batch).exec w = (.ok written, w') ∧
        written.outcome = .ok () ∧
          Relocated batch written.batch n w.contents w'.contents := by
  constructor
  · intro w xs hhistory
    exact ⟨hhistory.whole, hhistory.saved_eq_none⟩
  intro w batch n hw hfree hwhole hmovable hroom
  obtain ⟨hreach, hvalue, hbelow, hmoves⟩ := hmovable
  by_cases hbatch : batch = []
  · subst hbatch
    refine ⟨_, w, rfl, rfl, .nil, ⟨n, .nil n⟩, ?_, ?_, ?_, ?_,
      fun _ _ => ⟨rfl, rfl⟩⟩
    · exact fun i hi => absurd hi List.not_mem_nil
    · simp
    · exact fun i hi => absurd hi List.not_mem_nil
    · rintro r - ⟨i, hi, -⟩
      cases hi
  · obtain ⟨keys, w', hrun, hmoved⟩ :=
      exec_update h hw hfree hreach.orderly hwhole hvalue hbelow hmoves
        hroom hbatch
    obtain ⟨needed, op, hsubmit⟩ := exists_submit (.inr hrun)
    have hset := familiesSet_of_submit hsubmit rfl hreach.orderly
    exact ⟨_, w', hrun, rfl, hmoved.relocated hmoves hreach.orderly hbelow hset⟩

end Worlds

namespace Identity

def founders : List Identity :=
  [stored 1 "ada" [(1, "x"), (2, "y"), (3, "z")], stored 2 "grace" [(4, "w")]]

/-- The first identity has given away its first alias and dropped its last one,
and has a new one. -/
def relinquished : Identity :=
  (((((stored 1 "ada" [(1, "x"), (2, "y"), (3, "z")]).removeAlias
    { ident := .ofValue 1, name := "x", email := "x" }).2).removeAlias
      { ident := .ofValue 3, name := "z", email := "z" }).2.addAlias
        { name := "v", email := "v" }).2

def enlarged : Identity :=
  ((stored 2 "grace" [(4, "w")]).addAlias
    { ident := .ofValue 1, name := "x", email := "x" }).2

/-- The founded store after the last identifier for aliases has been drawn. -/
def exhausted : World Database Unit :=
  ((Store.execute (.setSequence Series.aliases.sequence)
    [.integer Int64.maxValue]).exec founded).2

theorem reachable_exhausted :
    Database.ReachableBy keepsIntegrity exhausted.database := by
  have hprogram : Program (Elementary keepsIntegrity)
      (Store.execute (.setSequence Series.aliases.sequence)
        [.integer Int64.maxValue] :
        Action Database Unit Nat) :=
      .basic (.plain (.execute Series.aliases.sequence_layout _))
  exact hprogram.reachableBy founded reachable_founded

theorem relocating_enlarged {c : Contents} {n : Int64} (hn : 4 ≤ n)
    (hrows : c.rows identityAliases.name = founders.flatMap aliasRows)
    (hfirst : (c.cells? identities.name 1).isSome)
    (hsecond : (c.cells? identities.name 2).isSome) :
    Relocating c n [relinquished, enlarged] := by
  constructor
  · decide +kernel
  · intro i hi
    rcases List.mem_pair.mp hi with rfl | rfl
    · exact ⟨stored 1 "ada" [(1, "x"), (2, "y"), (3, "z")],
        by unfold Distinct; decide +kernel,
          ((Rearranged.same.removed _).removed _).added _, ⟨1, by decide⟩,
          rfl, hfirst⟩
    · exact ⟨stored 2 "grace" [(4, "w")], by unfold Distinct; decide +kernel,
        Rearranged.same.added _, ⟨2, by decide⟩, rfl, hsecond⟩
  · intro i hi id hid
    have hle : ∀ i ∈ [relinquished, enlarged], ∀ id ∈ i.aliasIds,
        id.value ≤ 4 := by
      decide +kernel
    exact Int64.le_trans (hle i hi id hid) hn
  · decide +kernel
  · have howns : ∀ r ∈ founders.flatMap aliasRows,
        (∃ id ∈ relinquished.aliasIds, id.value = r.key) →
        relinquished.owns r := by
      decide +kernel
    have hgives : ∀ r ∈ founders.flatMap aliasRows,
        (∃ id ∈ enlarged.aliasIds, id.value = r.key) →
          ∃ giver ∈ [relinquished, enlarged], giver.owns r := by
      decide +kernel
    intro earlier i later hsplit r hr hmem
    rw [hrows] at hr
    rcases earlier with _ | ⟨giver, _ | ⟨other, earlier⟩⟩
    · obtain ⟨rfl, -⟩ := List.cons.inj hsplit
      exact ⟨relinquished, List.mem_cons_self, howns r hr hmem⟩
    · obtain ⟨hgiver, hsplit⟩ := List.cons.inj hsplit
      obtain ⟨rfl, -⟩ := List.cons.inj hsplit
      exact hgiver ▸ hgives r hr hmem
    · simp at hsplit

theorem contents_founded :
    founded.contents.value? Series.aliases.sequence = some 4 ∧
    founded.contents.rows identityAliases.name = founders.flatMap aliasRows ∧
    (founded.contents.cells? identities.name 1).isSome ∧
    (founded.contents.cells? identities.name 2).isSome := by
  decide +kernel

theorem contents_exhausted :
    exhausted.contents.value? Series.aliases.sequence = some Int64.maxValue ∧
      exhausted.contents.rows identityAliases.name =
        founders.flatMap aliasRows ∧
      (exhausted.contents.cells? identities.name 1).isSome ∧
      (exhausted.contents.cells? identities.name 2).isSome ∧
      (exhausted.contents.table? identityAliases.name).isSome ∧
      exhausted.store.writing = false ∧ exhausted.database.saved = none := by
  decide +kernel

theorem movable_founded : Movable founded [relinquished, enlarged] 4 := by
  obtain ⟨hvalue, hrows, hfirst, hsecond⟩ := contents_founded
  have hbelow : ∀ r ∈ founders.flatMap aliasRows, r.key ≤ 4 := by decide +kernel
  exact ⟨reachable_founded, hvalue, hrows ▸ hbelow,
    relocating_enlarged (Int64.le_refl 4) hrows hfirst hsecond⟩

theorem update_relinquished :
    (∃ xs : List Submission, History founded xs) ∧
    Movable founded [relinquished, enlarged] 4 ∧
    ∃ written w', (adapter.updateAll [relinquished, enlarged]).exec founded =
      (.ok written, w') ∧
      written.outcome = .ok () ∧
        Relocated [relinquished, enlarged] written.batch 4 founded.contents
          w'.contents := by
  obtain ⟨hhistories, hupdates⟩ :=
    update_relocating (ω := Unit) faultless_database
  obtain ⟨xs, hhistory⟩ := history_founded
  obtain ⟨hwhole, hsaved⟩ := hhistories founded xs hhistory
  have hroom : Room 4 (newcomersOf [relinquished, enlarged]) :=
    .inr (by decide +kernel)
  refine ⟨⟨xs, hhistory⟩, movable_founded, hupdates founded _ 4 trivial ?_
    hwhole movable_founded hroom⟩
  intro _
  exact hsaved

def IsUpdated (w : World Database Unit) (batch : List Identity) : Prop :=
  ∃ written w', (adapter.updateAll batch).exec w = (.ok written, w') ∧
    written.outcome = .ok ()

theorem not_isUpdated {w : World Database Unit} {batch : List Identity}
    (h : ((adapter.updateAll batch).exec w).1.toOption.map
      (fun written => written.outcome.toOption) = some none) :
      ¬IsUpdated w batch := by
  rintro ⟨written, w', hrun, hok⟩
  rw [hrun] at h
  have hnone : written.outcome.toOption = none := Option.some.inj h
  rw [hok] at hnone
  cases hnone

/-- The halved store after an identity without aliases has been saved in it. -/
def inhabited : World Database Unit := ((adapter.save [lone]).exec halved).2

theorem contents_inhabited :
    inhabited.contents.value? Series.aliases.sequence = some 0 ∧
    inhabited.contents.rows identityAliases.name = [] ∧
    (inhabited.contents.cells? identities.name 1).isSome ∧
    inhabited.store.writing = false ∧ inhabited.database.saved = none := by
  decide +kernel

theorem movable_inhabited : Movable inhabited [stored 1 "grace" []] 0 := by
  obtain ⟨hvalue, hrows, hstored, -, -⟩ := contents_inhabited
  have hsave : Program (Plain AdapterStatement)
      (adapter.save [lone] : Action Database Unit (Written Identity)) :=
    Script.Subject.submit_program .identity _ _ [lone]
  have hnone : ∀ r, r ∉ inhabited.contents.rows identityAliases.name := by
    intro r
    rw [hrows]
    exact List.not_mem_nil
  refine ⟨(hsave.elementary fun _ hs => hs.keepsIntegrity).reachableBy halved
    reachable_halved, hvalue, fun r hr => absurd hr (hnone r), ?_⟩
  constructor
  · decide
  · intro i hi
    rw [List.mem_singleton.mp hi]
    exact ⟨stored 1 "grace" [], by unfold Distinct; decide, .same,
      ⟨1, by decide⟩, rfl, hstored⟩
  · decide
  · decide
  · intro earlier i later _ r hr
    exact absurd hr (hnone r)

/-- A store in which a transaction is begun without a write. -/
def begun (w : World Database Unit) : World Database Unit :=
  w.withSession (Session.beginTransaction.run w.store.session).2

theorem contents_begun (w : World Database Unit) :
    (begun w).contents = w.contents := by
  change ((Session.beginTransaction.run w.database).2 : Database).contents = _
  rw [run_begin]
  split <;> rfl

theorem Movable.begun {w : World Database Unit} {batch : List Identity}
    {n : Int64} (h : Movable w batch n) : Movable (begun w) batch n := by
  obtain ⟨hreach, hvalue, hbelow, hmoves⟩ := h
  rw [← contents_begun] at hvalue hbelow hmoves
  exact ⟨hreach.began, hvalue, hbelow, hmoves⟩

/-- It is not so that every batch in which aliases move can be updated.  The
update fails if the batch has a new alias for which there is no identifier; if
there is no table of aliases, although none of the identities has an alias; and
if a transaction has been left open. -/
theorem update_exhausted :
    (¬ ∀ (w : World Database Unit) (batch : List Identity) (n : Int64),
      w.store.writing = false → w.database.saved = none → w.contents.Whole →
        Movable w batch n → IsUpdated w batch) ∧
    (¬ ∀ (w : World Database Unit) (batch : List Identity) (n : Int64),
      w.store.writing = false → w.database.saved = none →
        Room n (newcomersOf batch) → Movable w batch n → IsUpdated w batch) ∧
    ¬ ∀ (w : World Database Unit) (batch : List Identity) (n : Int64),
      w.store.writing = false → w.contents.Whole → Room n (newcomersOf batch) →
        Movable w batch n → IsUpdated w batch := by
  refine ⟨fun hclaim => ?_, fun hclaim => ?_, fun hclaim => ?_⟩
  · obtain ⟨hvalue, hrows, hfirst, hsecond, hhoused, hwriting, hsaved⟩ :=
      contents_exhausted
    have hmoves :=
      relocating_enlarged (n := Int64.maxValue) (by decide) hrows hfirst hsecond
    have hmovable : Movable exhausted [relinquished, enlarged] Int64.maxValue :=
      ⟨reachable_exhausted, hvalue, fun r _ => Int64.le_maxValue r.key, hmoves⟩
    refine not_isUpdated ?_
      (hclaim exhausted _ _ hwriting hsaved (fun _ => hhoused) hmovable)
    decide +kernel
  · obtain ⟨-, -, -, hwriting, hsaved⟩ := contents_inhabited
    refine not_isUpdated ?_
      (hclaim inhabited _ _ hwriting hsaved (.inl rfl) movable_inhabited)
    decide +kernel
  · have hroom : Room 4 (newcomersOf [relinquished, enlarged]) :=
      .inr (by decide +kernel)
    have hwhole : (begun founded).contents.Whole := by
      rw [contents_begun]
      exact whole_founded
    have hwriting : (begun founded).store.writing = false := by decide +kernel
    refine not_isUpdated ?_
      (hclaim (begun founded) _ _ hwriting hwhole hroom movable_founded.begun)
    decide +kernel

end Identity

end Annals
