import Annals.Proofs.Runs

namespace Annals

open Annals.Sql Annals.Stream

namespace Identity

theorem addAlias_eq_false_iff {i : Identity} {a : Alias} :
    i.addAlias a = (false, i) ↔ ∃ m ∈ i.aliases, m.sameRecord a = true := by
  unfold addAlias
  rw [← List.any_eq_true]
  cases i.aliases.any (·.sameRecord a) <;> simp

theorem addAlias_eq_true_iff {i : Identity} {a : Alias} :
    i.addAlias a = (true, { i with aliases := i.aliases ++ [a] }) ↔
      ∀ m ∈ i.aliases, m.sameRecord a = false := by
  have hnone : (∀ m ∈ i.aliases, m.sameRecord a = false) ↔
      i.aliases.any (·.sameRecord a) = false := by simp
  rw [hnone]
  unfold addAlias
  cases i.aliases.any (·.sameRecord a) <;> simp

def rowAlias (r : Row) : Except Failure (Option Alias) := do
  match ← r.optional Row.entityId 3 with
  | none => return none
  | some id =>
    let name ← r.string 4
    let email ← r.string 5
    return some { ident := ⟨some id⟩, name, email }

def rowHead (r : Row) : Except Failure Identity := do
  let name ← r.string 1
  let primaryEmail ← r.optional Row.string 2
  let ident ← rowIdent r 0
  return { ident, name, primaryEmail }

def receive (i : Identity) : Option Alias → Identity
  | none => i
  | some a => (i.addAlias a).2

theorem mergeRow_eq (i : Identity) (r : Row) :
    mergeRow i r = i.receive <$> rowAlias r := by
  unfold mergeRow rowAlias
  cases r.optional Row.entityId 3 with
  | error f => rfl
  | ok id? =>
      cases id? with
      | none => rfl
      | some id =>
          cases r.string 4 with
          | error f => rfl
          | ok name => cases r.string 5 <;> rfl

theorem ofRow_eq (r : Row) : ofRow r = rowHead r >>= (mergeRow · r) := by
  unfold ofRow rowHead
  simp

theorem foldlM_mergeRow (rows : List Row) (i : Identity) :
    rows.foldlM mergeRow i = (·.foldl receive i) <$> rows.mapM rowAlias := by
  induction rows generalizing i with
  | nil => rfl
  | cons r rows ih =>
      rw [List.foldlM_cons, List.mapM_cons, mergeRow_eq]
      cases rowAlias r with
      | error f => rfl
      | ok found =>
          change rows.foldlM mergeRow (i.receive found) = _
          rw [ih]
          cases rows.mapM rowAlias <;> rfl

theorem makes_iff {first : Int64 × Row} {others : List (Int64 × Row)}
    {i : Identity} :
    layout.Makes (first :: others) i ↔ ∃ head found,
      rowHead first.2 = .ok head ∧
      ((first :: others).map Prod.snd).mapM rowAlias = .ok found ∧
      i = found.foldl receive head := by
  have hfold : layout.fold first.2 (others.map Prod.snd) = rowHead first.2 >>=
      fun head =>
      (·.foldl receive head) <$> ((first :: others).map Prod.snd).mapM
        rowAlias := by
    change (ofRow first.2 >>= fun a =>
      (others.map Prod.snd).foldlM mergeRow a) = _
    rw [ofRow_eq, bind_assoc]
    refine bind_congr fun head => ?_
    rw [← foldlM_mergeRow, List.map_cons, List.foldlM_cons]
  change layout.fold first.2 (others.map Prod.snd) = .ok i ↔ _
  rw [hfold, bind_eq_ok]
  refine exists_congr fun head => ?_
  cases ((first :: others).map Prod.snd).mapM rowAlias with
  | error f => simp
  | ok found => simp [eq_comm, exists_and_left]

theorem id?_of_rowAlias {r : Row} {found : Option Alias}
    (h : rowAlias r = .ok found) :
    ∃ id?, r.optional Row.entityId 3 = .ok id? ∧
      found.map Record.id? = id?.map some := by
  obtain ⟨id?, hid, h⟩ := bind_eq_ok.mp h
  refine ⟨id?, hid, ?_⟩
  cases id? with
  | none =>
      cases h
      rfl
  | some id =>
      obtain ⟨name, -, h⟩ := bind_eq_ok.mp h
      obtain ⟨email, -, h⟩ := bind_eq_ok.mp h
      cases h
      rfl

theorem ids_addAlias {i : Identity} {ids : List EntityId} {a : Alias}
    {id : EntityId} (hids : i.aliases.map Record.id? = ids.map some)
    (hid : Record.id? a = some id) :
    (i.addAlias a).2.aliases.map Record.id? =
      (if id ∈ ids then ids else ids ++ [id]).map some := by
  have hsame : i.aliases.any (·.sameRecord a) = decide (id ∈ ids) := by
    have hmem : id ∈ ids ↔ ∃ b ∈ i.aliases, Record.id? b = some id := by
      rw [← List.mem_map, hids]
      simp
    rw [Bool.eq_iff_iff, List.any_eq_true, decide_eq_true_iff, hmem]
    refine exists_congr fun b => and_congr_right fun hb => ?_
    have hbid : Record.id? b ∈ ids.map some := hids ▸ List.mem_map_of_mem hb
    obtain ⟨id', -, hid'⟩ := List.mem_map.mp hbid
    change Alias.sameRecord b a = true ↔ _
    unfold Alias.sameRecord
    rw [show b.ident.id? = some id' from hid'.symm,
      show a.ident.id? = some id from hid, ← hid']
    simp
  unfold addAlias
  rw [hsame]
  split
  · rename_i h
    rw [if_pos (of_decide_eq_true h)]
    exact hids
  · rename_i h
    rw [if_neg (fun hmem => h (decide_eq_true hmem))]
    simp [hids, hid]

theorem eraseDups_concat (ids : List EntityId) (id : EntityId) :
    (ids ++ [id]).eraseDups =
      if id ∈ ids.eraseDups then ids.eraseDups else ids.eraseDups ++ [id] := by
  rw [List.eraseDups_append]
  by_cases h : id ∈ ids <;> simp [List.removeAll, List.eraseDups_cons, h]

theorem ids_foldl_receive (ids : List EntityId) {rows : List Row}
    {found : List (Option Alias)} (h : rows.mapM rowAlias = .ok found)
    {i : Identity} (hids : i.aliases.map Record.id? = ids.eraseDups.map some) :
    ∃ foundIds, rows.mapM (·.optional Row.entityId 3) = .ok foundIds ∧
      (found.foldl receive i).aliases.map Record.id? =
        (ids ++ foundIds.reduceOption).eraseDups.map some := by
  -- every row may add an identifier at the end, so the identifiers in front are
  -- generalised
  induction rows generalizing found i ids with
  | nil =>
      cases h
      exact ⟨[], rfl, by simpa using hids⟩
  | cons r rows ih =>
      rw [List.mapM_cons] at h ⊢
      obtain ⟨a?, ha, h⟩ := bind_eq_ok.mp h
      obtain ⟨others, hothers, h⟩ := bind_eq_ok.mp h
      cases h
      obtain ⟨id?, hid?, hmap⟩ := id?_of_rowAlias ha
      rw [hid?]
      cases a? with
      | none =>
          cases id? with
          | some id => cases hmap
          | none =>
              obtain ⟨foundIds, hfound, haliases⟩ := ih ids hothers hids
              exact ⟨none :: foundIds, by rw [hfound]; rfl, haliases⟩
      | some a =>
          cases id? with
          | none => cases hmap
          | some id =>
              have hadded := ids_addAlias hids (Option.some.inj hmap)
              rw [← eraseDups_concat] at hadded
              obtain ⟨foundIds, hfound, haliases⟩ :=
                ih (ids ++ [id]) hothers hadded
              refine ⟨some id :: foundIds, by rw [hfound]; rfl, ?_⟩
              rw [List.append_assoc] at haliases
              exact haliases

/-- The aliases of an identity that a run makes are those of its rows, each
once, in the order in which they come first. -/
theorem aliases_of_makes {run : List (Int64 × Row)} {i : Identity}
    (h : layout.Makes run i) :
    ∃ foundIds, (run.map Prod.snd).mapM (·.optional Row.entityId 3) =
      .ok foundIds ∧
      i.aliases.map Record.id? = foundIds.reduceOption.eraseDups.map some := by
  cases run with
  | nil => exact h.elim
  | cons first others =>
      obtain ⟨head, found, hhead, hfound, rfl⟩ := makes_iff.mp h
      have haliases : head.aliases = [] := by
        obtain ⟨name, -, hhead⟩ := bind_eq_ok.mp hhead
        obtain ⟨primaryEmail, -, hhead⟩ := bind_eq_ok.mp hhead
        obtain ⟨ident, -, hhead⟩ := bind_eq_ok.mp hhead
        cases hhead
        rfl
      exact ids_foldl_receive [] hfound (by rw [haliases]; rfl)

end Identity

end Annals
