import Annals.Proofs.Writes
import Annals.Script.Basic
import Mathlib.Data.List.Defs

namespace Annals

open Annals.Sql

theorem EntityId.ofValue_value (id : EntityId) :
    EntityId.ofValue id.value = .ok id := by
  unfold EntityId.ofValue EntityId.ofValue?
  rw [dif_pos id.positive]

theorem EntityId.value_inj {a b : EntityId} : a.value = b.value ↔ a = b := by
  obtain ⟨n, hn⟩ := a
  obtain ⟨m, hm⟩ := b
  simp

theorem Ident.assign_eq {i : Ident} {id : EntityId}
    (h : ∀ old, i.id? = some old → old = id) :
    i.assign id.value = .ok (id, ⟨some id⟩) := by
  obtain ⟨_ | old⟩ := i
  · unfold Ident.assign
    rw [EntityId.ofValue_value]
    rfl
  · cases h old rfl
    unfold Ident.assign
    rw [EntityId.ofValue_value]
    change (if id = id then _ else _) = _
    rw [if_pos rfl]
    rfl

namespace Record

variable {α β κ : Type} [Record α]

def keyed (r : α) (id : EntityId) : α := withIdent r ⟨some id⟩

theorem idValue_eq {r : α} {id : EntityId} (h : id? r = some id) :
    idValue r = id.value := by
  unfold idValue Ident.value
  rw [show (ident r).id? = some id from h]

/-- An identifier fits a record that has none or that one. -/
def Fits (r : α) (id : EntityId) : Prop := ∀ old, id? r = some old → old = id

theorem fits_of_new {r : α} (hid : id? r = none) (id : EntityId) :
    Fits r id := by
  intro old hold
  cases hid.symm.trans hold

theorem fits_own {r : α} {id : EntityId} (hid : id? r = some id) :
    Fits r id := by
  intro old hold
  exact Option.some.inj (hold.symm.trans hid)

theorem Fits.fill_eq {r : α} {id : EntityId} (h : Fits r id) :
    fill r id.value = (.ok (), keyed r id) := by
  unfold fill assign
  rw [Ident.assign_eq h]
  rfl

theorem fillEach_eq {R : β → κ → Prop}
    {fillOne : β → κ → Except IdentError Unit × β}
    {filled : β → κ → β}
    (hone : ∀ b key, R b key → fillOne b key = (.ok (), filled b key))
    {bs : List β} {keys : List κ} (h : List.Forall₂ R bs keys) :
    fillEach fillOne bs keys = (.ok (), List.zipWith filled bs keys) := by
  induction h with
  | nil => rfl
  | cons hfirst _ ih =>
      unfold fillEach
      rw [hone _ _ hfirst]
      simp only [ih]
      rfl

theorem forall₂_zipWith {R : β → κ → Prop} {S : β → β → Prop}
    {filled : β → κ → β} (hone : ∀ b key, R b key → S b (filled b key))
    {bs : List β} {keys : List κ} (h : List.Forall₂ R bs keys) :
    List.Forall₂ S bs (List.zipWith filled bs keys) := by
  induction h with
  | nil => exact .nil
  | cons hfirst _ ih => exact .cons (hone _ _ hfirst) ih

/-- A record has become another one that is the same but for its slot.  The slot
is filled now, and keeps what it held before. -/
def Filled (before after : α) : Prop :=
  ∃ id, after = keyed before id ∧ Fits before id

theorem Fits.filled {r : α} {id : EntityId} (h : Fits r id) :
    Filled r (keyed r id) := ⟨id, rfl, h⟩

end Record

theorem Action.forall₂_of_mapM {σ ω α β : Type} {R : α → β → Prop}
    {f : α → Action σ ω β}
    (hf : ∀ {a b w w'}, (f a).exec w = (.ok b, w') → R a b) {as : List α}
    {bs : List β} {w w' : World σ ω} (h : (as.mapM f).exec w = (.ok bs, w')) :
    List.Forall₂ R as bs := by
  induction as generalizing bs w with
  | nil =>
      cases h
      exact .nil
  | cons a as ih =>
      obtain ⟨b, v, rest, hb, hrest, rfl⟩ := Action.exec_mapM_cons_eq_ok.mp h
      exact .cons (hf hb) (ih hrest)

variable {σ ω α : Type} [Session σ] {w w' : World σ ω}

theorem Adapter.writeOne_eq_ok {a : Adapter α} [Record α] {r : α} {keys : Keys}
    (h : (a.writeOne r).exec w = (.ok keys, w')) :
    (Record.id? r = none ∧ (a.insert r).exec w = (.ok keys, w')) ∨
      ∃ id, Record.id? r = some id ∧
        (a.update r).exec w = (.ok (1, keys), w') := by
  unfold writeOne at h
  cases hid : Record.id? r with
  | none =>
      rw [hid] at h
      exact .inl ⟨rfl, h⟩
  | some id =>
      rw [hid] at h
      obtain ⟨⟨affected, keys'⟩, v, hupdate, h⟩ := Action.exec_bind_eq_ok.mp h
      change (if affected = 1 then _ else _ : Action σ ω Keys).exec v = _ at h
      split at h
      case isTrue hone =>
        cases h
        exact .inr ⟨id, rfl, hone ▸ hupdate⟩
      case isFalse => cases h

theorem Adapter.exec_submit_stopped [Record α] {a : Adapter α}
    {needed : List Capability} {op : String} {batch : List α} {stop : Stop}
    (hallowed : a.requireAll needed = .ok ()) (hbatch : batch ≠ [])
    (hwrite : (Store.write op a.entity (batch.mapM a.writeOne)).exec w =
      (.error stop, w')) :
    (a.submit needed op batch).exec w =
      (.ok { outcome := .error stop, batch }, w') := by
  unfold Adapter.submit
  rw [hallowed]
  change (a.writeBatch op batch).exec w = _
  unfold Adapter.writeBatch
  rw [if_neg (by simpa using hbatch),
    Action.exec_bind_ok (Action.exec_observe _ _), hwrite]
  rfl

namespace Commit

theorem insertRow_eq_ok {c : Commit} {keys : Keys}
    (h : (insertRow c).exec w = (.ok keys, w')) :
    ∃ v values n, (Store.nextId entityName).exec w = (.ok keys.id, v) ∧
      c.payload = .ok values ∧
      (Store.execute (.insert commits) (Value.ofId keys.id :: values)).exec v =
        (.ok n, w') := by
  obtain ⟨id, v, hid, hrest⟩ := Action.exec_bind_eq_ok.mp h
  obtain ⟨values, v', hvalues, hwrite⟩ := Action.exec_bind_eq_ok.mp hrest
  obtain ⟨hpayload, rfl⟩ := Action.exec_ofExcept_eq_ok.mp hvalues
  obtain ⟨⟨⟩, v'', hinsert, hdone⟩ := Action.exec_bind_eq_ok.mp hwrite
  obtain ⟨n, hexecute⟩ := Store.exec_perform_eq_ok.mp hinsert
  cases hdone
  exact ⟨_, values, n, hid, hpayload, hexecute⟩

theorem updateRow_eq_ok {c : Commit} {id : EntityId} {n : Nat} {keys : Keys}
    (hid : Record.id? c = some id)
    (h : (updateRow c).exec w = (.ok (n, keys), w')) :
    keys.id = id ∧ ∃ values, c.payload = .ok values ∧
      (Store.execute (.update commits) (values ++ [Value.ofId id])).exec w =
        (.ok n, w') := by
  unfold updateRow at h
  simp only [hid] at h
  obtain ⟨values, v, hvalues, hrest⟩ := Action.exec_bind_eq_ok.mp h
  obtain ⟨hpayload, rfl⟩ := Action.exec_ofExcept_eq_ok.mp hvalues
  obtain ⟨n', v', hupdate, hdone⟩ := Action.exec_bind_eq_ok.mp hrest
  cases hdone
  exact ⟨rfl, values, hpayload, hupdate⟩

end Commit

namespace Branch

theorem insertRow_eq_ok {b : Branch} {keys : Keys}
    (h : (insertRow b).exec w = (.ok keys, w')) :
    ∃ v created merged n, (Store.nextId entityName).exec w = (.ok keys.id, v) ∧
      Value.ofInstant b.createdAt = .ok created ∧
      Value.ofOptionalInstant b.mergedAt = .ok merged ∧
      (Store.execute (.insert branches) [Value.ofId keys.id, .text b.name,
        created, merged]).exec v = (.ok n, w') := by
  obtain ⟨id, v, hid, hrest⟩ := Action.exec_bind_eq_ok.mp h
  obtain ⟨created, v₁, hcreated, hrest₁⟩ := Action.exec_bind_eq_ok.mp hrest
  obtain ⟨merged, v₂, hmerged, hwrite⟩ := Action.exec_bind_eq_ok.mp hrest₁
  obtain ⟨⟨⟩, v', hinsert, hdone⟩ := Action.exec_bind_eq_ok.mp hwrite
  obtain ⟨n, hexecute⟩ := Store.exec_perform_eq_ok.mp hinsert
  obtain ⟨hcreated', rfl⟩ := Action.exec_ofExcept_eq_ok.mp hcreated
  obtain ⟨hmerged', rfl⟩ := Action.exec_ofExcept_eq_ok.mp hmerged
  cases hdone
  exact ⟨_, created, merged, n, hid, hcreated', hmerged', hexecute⟩

end Branch

namespace Alias

def values (owner id : EntityId) (a : Alias) : List Value :=
  [Value.ofId id, Value.ofId owner, .text a.name, .text a.email]

theorem insertRow_eq_ok {owner id : EntityId} {a : Alias}
    (h : (insertRow owner a).exec w = (.ok id, w')) :
    ∃ v n, (Record.id? a = some id ∧ v = w ∨
        Record.id? a = none ∧ (Store.nextId entityName).exec w = (.ok id, v)) ∧
      (Store.execute (.insert identityAliases) (a.values owner id)).exec v =
        (.ok n, w') := by
  have hperform : ∀ {id' : EntityId} {v : World σ ω},
      (do
        Store.perform (.insert identityAliases) (a.values owner id')
        return id' : Action σ ω EntityId).exec v = (.ok id, w') →
      id' = id ∧ ∃ n,
        (Store.execute (.insert identityAliases) (a.values owner id')).exec v =
        (.ok n, w') := by
    intro id' v h
    obtain ⟨⟨⟩, v', hinsert, h⟩ := Action.exec_bind_eq_ok.mp h
    obtain ⟨n, hinsert⟩ := Store.exec_perform_eq_ok.mp hinsert
    cases h
    exact ⟨rfl, n, hinsert⟩
  unfold insertRow at h
  cases hold : a.ident.id? with
  | none =>
      simp only [hold] at h
      obtain ⟨id', v, hid, h⟩ := Action.exec_bind_eq_ok.mp h
      obtain ⟨rfl, n, hinsert⟩ := hperform h
      exact ⟨v, n, .inr ⟨hold, hid⟩, hinsert⟩
  | some old =>
      simp only [hold] at h
      obtain ⟨rfl, n, hinsert⟩ := hperform h
      exact ⟨w, n, .inl ⟨hold, rfl⟩, hinsert⟩

theorem fits_of_insertRow {owner id : EntityId} {a : Alias}
    (h : (insertRow owner a).exec w = (.ok id, w')) : Record.Fits a id := by
  obtain ⟨v, n, ⟨hid, -⟩ | ⟨hid, -⟩, -⟩ := insertRow_eq_ok h
  · exact Record.fits_own hid
  · exact Record.fits_of_new hid id

end Alias

namespace Identity

theorem insertRows_eq_ok {i : Identity} {keys : Keys}
    (h : (insertRows i).exec w = (.ok keys, w')) :
    ∃ u v n, (Store.nextId entityName).exec w = (.ok keys.id, u) ∧
      (Store.execute (.insert identities)
        [Value.ofId keys.id, .text i.name,
          Value.ofOption Value.text i.primaryEmail]).exec u = (.ok n, v) ∧
      (i.aliases.mapM (Alias.insertRow keys.id)).exec v =
        (.ok keys.parts, w') := by
  obtain ⟨id, u, hid, h⟩ := Action.exec_bind_eq_ok.mp h
  obtain ⟨⟨⟩, v, hinsert, h⟩ := Action.exec_bind_eq_ok.mp h
  obtain ⟨n, hinsert⟩ := Store.exec_perform_eq_ok.mp hinsert
  obtain ⟨parts, v', hparts, h⟩ := Action.exec_bind_eq_ok.mp h
  cases h
  exact ⟨u, v, n, hid, hinsert, hparts⟩

theorem updateRows_eq_ok {i : Identity} {id : EntityId} {keys : Keys}
    (hid : Record.id? i = some id)
    (h : (updateRows i).exec w = (.ok (1, keys), w')) :
    keys.id = id ∧ ∃ u v n,
      (Store.execute (.update identities)
        [.text i.name, Value.ofOption Value.text i.primaryEmail,
          Value.ofId id]).exec w = (.ok 1, u) ∧
      (Store.execute (.delete identityAliases Alias.ownerColumn)
        [Value.ofId id]).exec u = (.ok n, v) ∧
      (i.aliases.mapM (Alias.insertRow id)).exec v = (.ok keys.parts, w') := by
  unfold updateRows at h
  rw [hid] at h
  obtain ⟨affected, u, hupdate, h⟩ := Action.exec_bind_eq_ok.mp h
  change (if affected ≠ 1 then _ else _ : Action σ ω (Nat × Keys)).exec
    u = _ at h
  split at h
  case isTrue hne =>
    cases h
    exact absurd rfl hne
  case isFalse hone =>
    obtain ⟨⟨⟩, v, hdelete, h⟩ := Action.exec_bind_eq_ok.mp h
    obtain ⟨n, hdelete⟩ := Store.exec_perform_eq_ok.mp hdelete
    obtain ⟨parts, v', hparts, h⟩ := Action.exec_bind_eq_ok.mp h
    cases h
    exact ⟨rfl, u, v, n, hupdate, hdelete, hparts⟩

end Identity

namespace Script.Subject

def Fits : (s : Subject) → s.Entity → Keys → Prop
  | .commit => fun (c : Commit) keys => Record.Fits c keys.id
  | .branch => fun (b : Branch) keys => Record.Fits b keys.id
  | .identity => fun (i : Identity) keys =>
    Record.Fits i keys.id ∧ List.Forall₂ Record.Fits i.aliases keys.parts

def keyed : (s : Subject) → s.Entity → Keys → s.Entity
  | .commit => fun (c : Commit) keys => Record.keyed c keys.id
  | .branch => fun (b : Branch) keys => Record.keyed b keys.id
  | .identity => fun (i : Identity) keys =>
    { Record.keyed i keys.id with
      aliases := List.zipWith Record.keyed i.aliases keys.parts }

def Filled : (s : Subject) → s.Entity → s.Entity → Prop
  | .commit => fun (c c' : Commit) => Record.Filled c c'
  | .branch => fun (b b' : Branch) => Record.Filled b b'
  | .identity => fun (i i' : Identity) =>
    ∃ aliases, List.Forall₂ Record.Filled i.aliases aliases ∧
      Record.Filled { i with aliases } i'

theorem id?_keyed (s : Subject) (r : s.Entity) (keys : Keys) :
    Record.id? (s.keyed r keys) = some keys.id := by
  cases s <;> rfl

theorem ids_zipWith {s : Subject} {batch : List s.Entity} {keys : List Keys}
    (h : List.Forall₂ s.Fits batch keys) :
    (List.zipWith s.keyed batch keys).map Record.id? = keys.map fun k =>
      some k.id := by
  induction h with
  | nil => rfl
  | cons _ _ ih =>
      rw [List.zipWith_cons_cons, List.map_cons, List.map_cons, ih, id?_keyed]

theorem ne_of_zipWith {s : Subject} {batch : List s.Entity} {keys : List Keys}
    (h : List.Forall₂ s.Fits batch keys) {id : Option EntityId}
    (hother : ∀ r ∈ List.zipWith s.keyed batch keys, Record.id? r ≠ id) :
    ∀ k ∈ keys, id ≠ some k.id := by
  rintro k hk rfl
  have hmem : some k.id ∈ (List.zipWith s.keyed batch keys).map Record.id? := by
    rw [ids_zipWith h]
    exact List.mem_map_of_mem hk
  obtain ⟨r, hr, hid⟩ := List.mem_map.mp hmem
  exact hother r hr hid

variable {s : Subject} {r : s.Entity} {keys : Keys}

theorem Fits.filled (h : s.Fits r keys) : s.Filled r (s.keyed r keys) := by
  cases s with
  | commit => exact Record.Fits.filled h
  | branch => exact Record.Fits.filled h
  | identity =>
      exact ⟨_, Record.forall₂_zipWith (fun a id (hfits : Record.Fits a id) =>
        hfits.filled) h.2, keys.id, rfl, h.1⟩

theorem Fits.assign_eq (h : s.Fits r keys) :
    s.adapter.assign r keys = (.ok (), s.keyed r keys) := by
  cases s with
  | commit => exact Record.Fits.fill_eq h
  | branch => exact Record.Fits.fill_eq h
  | identity =>
      have hparts : Record.fillEach (fun a id => Record.fill a id.value)
          (Identity.aliases (Record.keyed r keys.id)) keys.parts =
            (.ok (), List.zipWith Record.keyed (Identity.aliases r)
              keys.parts) :=
        Record.fillEach_eq (fun a id (hfits : Record.Fits a id) =>
          hfits.fill_eq) h.2
      change Identity.assignKeys r keys = _
      unfold Identity.assignKeys
      rw [Record.Fits.fill_eq h.1]
      simp only [hparts]
      rfl

theorem fits_of_writeOne (h : (s.adapter.writeOne r).exec w = (.ok keys, w')) :
    s.Fits r keys := by
  rcases Adapter.writeOne_eq_ok h with ⟨hnone, hinsert⟩ | ⟨id, hid, hupdate⟩
  · have hfits : Record.Fits r keys.id := Record.fits_of_new hnone keys.id
    cases s with
    | commit => exact hfits
    | branch => exact hfits
    | identity =>
        obtain ⟨u, v, n, -, -, haliases⟩ := Identity.insertRows_eq_ok hinsert
        exact ⟨hfits, Action.forall₂_of_mapM Alias.fits_of_insertRow haliases⟩
  · have hfits : keys.id = id → Record.Fits r keys.id :=
      fun heq => heq ▸ Record.fits_own hid
    cases s with
    | commit => exact hfits (Commit.updateRow_eq_ok hid hupdate).1
    | branch => cases hupdate
    | identity =>
        obtain ⟨heq, u, v, n, -, -, haliases⟩ :=
          Identity.updateRows_eq_ok hid hupdate
        exact ⟨hfits heq, Action.forall₂_of_mapM
          Alias.fits_of_insertRow haliases⟩

theorem fits_of_mapM {batch : List s.Entity} {keys : List Keys}
    (h : (batch.mapM s.adapter.writeOne).exec w = (.ok keys, w')) :
    List.Forall₂ s.Fits batch keys := Action.forall₂_of_mapM fits_of_writeOne h

theorem exec_submit_written {needed : List Capability} {op : String}
    {batch : List s.Entity} {keys : List Keys}
    (hallowed : s.adapter.requireAll needed = .ok ()) (hbatch : batch ≠ [])
    (hwrite :
      (Store.write op s.adapter.entity (batch.mapM s.adapter.writeOne)).exec w =
      (.ok keys, w')) (hfits : List.Forall₂ s.Fits batch keys) :
    (s.adapter.submit needed op batch).exec w =
      (.ok { outcome := .ok (), batch := List.zipWith s.keyed batch keys },
        w') := by
  have hassign : Record.fillEach s.adapter.assign batch keys =
      (.ok (), List.zipWith s.keyed batch keys) :=
    Record.fillEach_eq (fun r key (hone : s.Fits r key) => hone.assign_eq) hfits
  unfold Adapter.submit
  rw [hallowed]
  change (s.adapter.writeBatch op batch).exec w = _
  unfold Adapter.writeBatch
  rw [if_neg (by simpa using hbatch),
    Action.exec_bind_ok (Action.exec_observe _ _), hwrite]
  simp only [hassign]
  rfl

/-- What writing a batch leads to.  If the write succeeds then so does the
assignment. -/
inductive Submitted (s : Subject) (op : String) (batch : List s.Entity)
    (w : World σ ω) :
    Except Stop (Written s.Entity) × World σ ω → Prop where
  | refused (f : Failure) :
      Submitted s op batch w (.ok { outcome := .error (.failed f), batch }, w)
  | empty (hbatch : batch = []) :
      Submitted s op batch w (.ok { outcome := .ok (), batch }, w)
  | stopped {stop : Stop} {w' : World σ ω}
      (hwrite : (Store.write op s.adapter.entity
        (batch.mapM s.adapter.writeOne)).exec w = (.error stop, w')) :
      Submitted s op batch w (.ok { outcome := .error stop, batch }, w')
  | written {keys : List Keys} {w' : World σ ω}
      (hwrite : (Store.write op s.adapter.entity
        (batch.mapM s.adapter.writeOne)).exec w = (.ok keys, w'))
      (hfits : List.Forall₂ s.Fits batch keys) :
      Submitted s op batch w
        (.ok { outcome := .ok (), batch := List.zipWith s.keyed batch keys },
          w')

theorem Submitted.exists_written {op : String} {batch : List s.Entity}
    {w w' : World σ ω} {outcome : Except Stop (Written s.Entity)}
    (h : Submitted s op batch w (outcome, w')) :
    ∃ written, outcome = .ok written ∧
      (written.outcome = .ok () ∧ List.Forall₂ s.Filled batch written.batch ∨
        written.outcome ≠ .ok () ∧ written.batch = batch) := by
  cases h with
  | refused f => exact ⟨_, rfl, .inr ⟨nofun, rfl⟩⟩
  | empty hbatch =>
      subst hbatch
      exact ⟨_, rfl, .inl ⟨rfl, .nil⟩⟩
  | stopped => exact ⟨_, rfl, .inr ⟨nofun, rfl⟩⟩
  | written _ hfits =>
      exact ⟨_, rfl, .inl ⟨rfl,
        Record.forall₂_zipWith (fun r key (hone : s.Fits r key) =>
          hone.filled) hfits⟩⟩

theorem submitted_submit (s : Subject) (needed : List Capability) (op : String)
    (batch : List s.Entity) (w : World σ ω) :
    Submitted s op batch w ((s.adapter.submit needed op batch).exec w) := by
  cases hallowed : s.adapter.requireAll needed with
  | error f =>
      unfold Adapter.submit
      rw [hallowed]
      exact .refused f
  | ok u =>
      by_cases hbatch : batch = []
      · unfold Adapter.submit
        rw [hallowed, hbatch]
        exact .empty rfl
      · rcases hwrite : (Store.write op s.adapter.entity
          (batch.mapM s.adapter.writeOne)).exec w with ⟨stop | keys, w'⟩
        · rw [Adapter.exec_submit_stopped hallowed hbatch hwrite]
          exact .stopped hwrite
        · obtain ⟨u, v, hwork⟩ := Store.work_of_write_ok hwrite
          have hfits := fits_of_mapM hwork
          rw [exec_submit_written hallowed hbatch hwrite hfits]
          exact .written hwrite hfits

theorem written_of_submit {needed : List Capability} {op : String}
    {batch : List s.Entity} {written : Written s.Entity} {w w' : World σ ω}
    (h : (s.adapter.submit needed op batch).exec w = (.ok written, w'))
    (hok : written.outcome = .ok ()) :
    (batch = [] ∧ written.batch = [] ∧ w' = w) ∨
      ∃ keys,
        (Store.write op s.adapter.entity (batch.mapM s.adapter.writeOne)).exec
          w = (.ok keys, w') ∧
        List.Forall₂ s.Fits batch keys ∧
        written.batch = List.zipWith s.keyed batch keys := by
  have hsubmitted := submitted_submit s needed op batch w
  rw [h] at hsubmitted
  cases hsubmitted with
  | refused f => cases hok
  | stopped hwrite => cases hok
  | empty hbatch => exact .inl ⟨hbatch, hbatch, rfl⟩
  | written hwrite hfits => exact .inr ⟨_, hwrite, hfits, rfl⟩

end Script.Subject

end Annals
