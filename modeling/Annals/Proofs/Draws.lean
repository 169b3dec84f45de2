import Annals.Proofs.Readings
import Annals.Proofs.Series

namespace Annals

open Annals.Sql Annals.Stream Annals.Database Annals.Database.Contents

/-- The identifiers that slots have received which were empty before. -/
def received (before after : List (Option EntityId)) : List EntityId :=
  (before.zip after).filterMap fun (old, new) =>
    if old.isNone then new else none

@[simp] theorem received_nil : received [] [] = [] := rfl

theorem received_append {is js is' js' : List (Option EntityId)}
    (h : is.length = is'.length) :
    received (is ++ js) (is' ++ js') = received is is' ++ received js js' := by
  unfold received
  rw [List.zip_append h, List.filterMap_append]

theorem received_cons (i j : Option EntityId) (is js : List (Option EntityId)) :
    received (i :: is) (j :: js) = received [i] [j] ++ received is js :=
  @received_append [i] is [j] js rfl

theorem length_received {is : List (Option EntityId)} {ids : List EntityId}
    (h : is.length = ids.length) : (received is (ids.map some)).length =
      is.countP Option.isNone := by
  induction is generalizing ids with
  | nil => rfl
  | cons i is ih =>
      cases ids with
      | nil => simp at h
      | cons id ids =>
          have hrest := ih (by simpa using h)
          rw [List.map_cons, received_cons, List.length_append, hrest,
            List.countP_cons]
          cases i
          · exact Nat.add_comm 1 _
          · exact Nat.zero_add _

theorem received_share (own k : Series) (is js : List (Option EntityId)) :
    received (own.share k is) (own.share k js) =
      own.share k (received is js) := by
  by_cases h : own = k
  · subst h
    simp only [Series.share_self]
  · simp only [Series.share_other h]
    rfl

theorem Series.length_share {α β : Type} (own k : Series) {as : List α}
    {bs : List β} (h : as.length = bs.length) : (own.share k as).length =
      (own.share k bs).length := by
  by_cases heq : own = k
  · subst heq
    rwa [share_self, share_self]
  · rw [share_other heq, share_other heq]
    rfl

namespace Script.Subject

def series : Subject → Series
  | .commit => .commits
  | .branch => .branches
  | .identity => .identities

/-- The slots of a record and of its parts that a series numbers. -/
def slots (k : Series) : (s : Subject) → s.Entity → List (Option EntityId)
  | .commit => fun (c : Commit) => Series.commits.share k [Record.id? c]
  | .branch => fun (b : Branch) => Series.branches.share k [Record.id? b]
  | .identity => fun (i : Identity) =>
    Series.identities.share k [Record.id? i] ++ Series.aliases.share k
      (i.aliases.map Record.id?)

/-- The identifiers with which the parts of a record come, which are used as
they are. -/
def supplied (k : Series) : (s : Subject) → s.Entity → List EntityId
  | .commit | .branch => fun _ => []
  | .identity =>
    fun (i : Identity) =>
      Series.aliases.share k (i.aliases.filterMap Record.id?)

/-- Records themselves are never put under identifiers with which they come. -/
theorem supplied_series (s s' : Subject) (r : s'.Entity) :
    s'.supplied s.series r = [] := by
  cases s' with
  | commit | branch => rfl
  | identity => cases s <;> rfl

/-- The identifiers that the slots of the records of a batch have received. -/
def receivedIn (k : Series) (s : Subject) (before after : List s.Entity) :
    List EntityId :=
  (before.zip after).flatMap fun (r, r') =>
    received (s.slots k r) (s.slots k r')

end Script.Subject

section Records

variable {σ ω : Type} [Backed σ] {w w' : World σ ω}

theorem Alias.moves_of_insertRow {owner id : EntityId} {a : Alias}
    (h : (insertRow owner a).exec w = (.ok id, w')) (k : Series) :
    Moves k (Series.aliases.share k (received [Record.id? a] [some id]))
      (Series.aliases.share k ([a].filterMap Record.id?)) w.contents
        w'.contents := by
  obtain ⟨v, n, ⟨hold, rfl⟩ | ⟨hnone, hid⟩, hinsert⟩ := insertRow_eq_ok h
  · have hsupplied : [a].filterMap Record.id? = [id] :=
      List.filterMap_cons_some hold
    have hreceived : received [Record.id? a] [some id] = [] := by
      rw [hold]
      rfl
    rw [hreceived, hsupplied, Series.share_nil]
    exact .of_supplied .aliases hinsert k
  · have hsupplied : [a].filterMap Record.id? = [] :=
      List.filterMap_cons_none hnone
    rw [hnone, hsupplied, Series.share_nil]
    exact .of_drawn .aliases hid hinsert k

theorem Alias.moves_of_mapM {owner : EntityId} {as : List Alias}
    {ids : List EntityId}
    (h : (as.mapM (insertRow owner)).exec w = (.ok ids, w')) (k : Series) :
    Moves k (Series.aliases.share k
      (received (as.map Record.id?) (ids.map some)))
      (Series.aliases.share k (as.filterMap Record.id?)) w.contents
        w'.contents := by
  induction as generalizing ids w with
  | nil =>
      cases h
      simpa using Moves.refl k w'.contents
  | cons a as ih =>
      obtain ⟨id, v, rest, hone, hrest, rfl⟩ := Action.exec_mapM_cons_eq_ok.mp h
      have hmoves := (moves_of_insertRow hone k).trans (ih hrest)
      have hlength : [Record.id? a].length = [some id].length := rfl
      rw [← Series.share_append, ← Series.share_append, ← List.filterMap_append,
        ← received_append hlength] at hmoves
      exact hmoves

theorem Commit.moves_of_writeOne {c : Commit} {keys : Keys}
    (h : (adapter.writeOne c).exec w = (.ok keys, w')) (k : Series) :
    Moves k (Series.commits.share k (received [Record.id? c] [some keys.id])) []
      w.contents w'.contents := by
  rcases Adapter.writeOne_eq_ok h with ⟨hnone, hinsert⟩ | ⟨id, hid, hupdate⟩
  · obtain ⟨v, values, n, hid, -, hexecute⟩ := insertRow_eq_ok hinsert
    rw [hnone]
    exact .of_drawn .commits hid hexecute k
  · obtain ⟨-, values, -, hexecute⟩ := updateRow_eq_ok hid hupdate
    rw [hid, show received [some id] [some keys.id] = [] from rfl,
      Series.share_nil]
    exact .of_update .commits hexecute k

theorem Branch.moves_of_writeOne {b : Branch} {keys : Keys}
    (h : (adapter.writeOne b).exec w = (.ok keys, w')) (k : Series) :
    Moves k (Series.branches.share k (received [Record.id? b] [some keys.id]))
      [] w.contents w'.contents := by
  rcases Adapter.writeOne_eq_ok h with ⟨hnone, hinsert⟩ | ⟨id, -, hupdate⟩
  · obtain ⟨v, created, merged, n, hid, -, -, hexecute⟩ :=
      insertRow_eq_ok hinsert
    rw [hnone]
    exact .of_drawn .branches hid hexecute k
  · cases hupdate

theorem Identity.moves_of_writeOne {i : Identity} {keys : Keys}
    (h : (adapter.writeOne i).exec w = (.ok keys, w')) (k : Series) :
    Moves k (Series.identities.share k
      (received [Record.id? i] [some keys.id]) ++
        Series.aliases.share k
          (received (i.aliases.map Record.id?) (keys.parts.map some)))
      (Series.aliases.share k (i.aliases.filterMap Record.id?)) w.contents
        w'.contents := by
  rcases Adapter.writeOne_eq_ok h with ⟨hnone, hinsert⟩ | ⟨id, hid, hupdate⟩
  · obtain ⟨u, v, n, hid, hexecute, haliases⟩ := insertRows_eq_ok hinsert
    have hhead := Moves.of_drawn .identities hid hexecute k
    rw [hnone]
    exact hhead.trans (Alias.moves_of_mapM haliases k)
  · obtain ⟨rfl, u, v, n, hexecute, hdelete, haliases⟩ :=
      updateRows_eq_ok hid hupdate
    have hhead := (Moves.of_update .identities hexecute k).trans
      (.of_delete .aliases hdelete k)
    rw [hid, show received [some keys.id] [some keys.id] = [] from rfl,
      Series.share_nil]
    exact hhead.trans (Alias.moves_of_mapM haliases k)

theorem Alias.ids_zipWith {as : List Alias} {ids : List EntityId}
    (h : List.Forall₂ Record.Fits as ids) :
    (List.zipWith Record.keyed as ids).map Record.id? = ids.map some := by
  induction h with
  | nil => rfl
  | cons _ _ ih =>
      rw [List.zipWith_cons_cons, List.map_cons, List.map_cons, ih]
      rfl

theorem moves_of_writeOne {s : Script.Subject} {r : s.Entity} {keys : Keys}
    (h : (s.adapter.writeOne r).exec w = (.ok keys, w')) (k : Series) :
    Moves k (received (s.slots k r) (s.slots k (s.keyed r keys)))
      (s.supplied k r) w.contents w'.contents := by
  cases s with
  | commit =>
      have hmoves := Commit.moves_of_writeOne h k
      rw [← received_share] at hmoves
      exact hmoves
  | branch =>
      have hmoves := Branch.moves_of_writeOne h k
      rw [← received_share] at hmoves
      exact hmoves
  | identity =>
      have hmoves := Identity.moves_of_writeOne h k
      have hfits : List.Forall₂ Record.Fits (Identity.aliases r) keys.parts :=
        (Script.Subject.fits_of_writeOne h).2
      have hlength : [Record.id? r].length = [some keys.id].length := rfl
      rw [← received_share, ← received_share,
        ← received_append (Series.length_share .identities k hlength),
        ← Alias.ids_zipWith hfits] at hmoves
      exact hmoves

theorem moves_of_mapM {s : Script.Subject} {batch : List s.Entity}
    {keys : List Keys}
    (h : (batch.mapM s.adapter.writeOne).exec w = (.ok keys, w')) (k : Series) :
    Moves k (s.receivedIn k batch (List.zipWith s.keyed batch keys))
      (batch.flatMap (s.supplied k)) w.contents w'.contents := by
  induction batch generalizing keys w with
  | nil =>
      cases h
      exact .refl k w'.contents
  | cons r batch ih =>
      obtain ⟨key, v, rest, hone, hrest, rfl⟩ :=
        Action.exec_mapM_cons_eq_ok.mp h
      exact (moves_of_writeOne hone k).trans (ih hrest)

end Records

namespace Database.Contents

theorem table?_of_createTable {c c' : Contents} {t : StoredTable}
    {text : String} {n : Nat} (h : c.createTable t text = .ok (n, c'))
    (ht : t.blank ∈ layouts) :
    c.table? t.name = none ∧ c'.table? t.name = some t ∧
      ∀ {b name}, b ∈ layouts → b.name = name → name ≠ t.name →
        c'.table? name = c.table? name := by
  obtain ⟨hnone, rfl⟩ := createTable_eq_ok h
  refine ⟨hnone, ?_, fun {b name} hb hname hne => ?_⟩
  · unfold table? at hnone ⊢
    rw [List.find?_append, hnone, Option.none_or]
    exact List.find?_cons_of_pos (beq_self_eq_true _)
  · subst hname
    unfold table?
    rw [List.find?_append]
    have hother : ¬sameName t.name b.name = true := fun hsame =>
      hne (congrArg StoredTable.name
        (eq_of_sameName b hb t.blank ht hsame)).symm
    have hlast : [t].find? (fun u => sameName u.name b.name) = none := by
      simp [hother]
    rw [hlast, Option.or_none]

theorem value?_of_seed {c c' : Contents} {sequence : String} {n : Nat}
    (ht : c.table? sequence = some (.ofSequence sequence))
    (h : c.insert sequence [.integer 0] = .ok (n, c')) : c'.value? sequence =
      some 0 := by
  obtain ⟨t, ht', h⟩ := bind_eq_ok.mp h
  cases ht.symm.trans (table_eq_ok.mp ht')
  obtain ⟨-, -, h⟩ := bind_eq_ok.mp h
  obtain ⟨_, ⟨⟩, h⟩ := bind_eq_ok.mp h
  obtain ⟨_, ⟨⟩, h⟩ := bind_eq_ok.mp h
  obtain ⟨-, -, h⟩ := bind_eq_ok.mp h
  obtain ⟨c'', hput, h⟩ := bind_eq_ok.mp h
  cases checkReferences_eq_ok hput
  cases h
  exact value?_eq_some.mpr ⟨_, 1, table?_put_self ht rfl, rfl⟩

end Database.Contents

namespace Numbered

variable {k own : Series} {supplied : List EntityId} {c c' : Contents}
    {n : Int64} {m : Nat}

theorem table?_eq_none (h : Numbered k supplied c n)
    (hnone : c.table? k.sequence = none) :
    c.table? k.table.name = none := by
  rcases htable : c.table? k.table.name with _ | t
  · rfl
  · obtain ⟨t', _, ht', -⟩ := value?_eq_some.mp (h.keys t htable).1
    cases hnone.symm.trans ht'

theorem of_other_table (h : Numbered k supplied c n) {t : StoredTable}
    {text : String} (hcreate : c.createTable t text = .ok (m, c'))
    (ht : t.blank ∈ layouts) (htable : k.table.name ≠ t.name)
    (hsequence : k.sequence ≠ t.name) :
    Numbered k supplied c' n := by
  obtain ⟨-, -, hothers⟩ := table?_of_createTable hcreate ht
  exact h.of_tables (createTable_laid hcreate ht h.laid)
    (hothers k.table_layout (ofTable_name k.table) htable)
    (hothers k.sequence_layout rfl hsequence)

theorem of_createTable (h : Numbered k supplied c n) {text : String}
    (hcreate : c.createTable (.ofTable own.table) text = .ok (m, c'))
    (hmade : (c.table? own.sequence).isSome) : Numbered k supplied c' n := by
  have hblank : (StoredTable.ofTable own.table).blank ∈ layouts := by
    rw [ofTable_blank]
    exact own.table_layout
  by_cases heq : own = k
  · subst heq
    obtain ⟨-, htable, hothers⟩ := table?_of_createTable hcreate hblank
    rw [ofTable_name] at htable hothers
    have hsequence : c'.table? own.sequence = c.table? own.sequence :=
      hothers own.sequence_layout rfl (own.table_ne_sequence own).symm
    obtain ⟨hlaid, hnonneg, hvalue, -⟩ := h
    rcases hvalue with hvalue | ⟨hnone, -⟩
    · rw [← value?_congr hsequence] at hvalue
      refine ⟨createTable_laid hcreate hblank hlaid, hnonneg, .inl hvalue,
        fun t ht => ?_⟩
      cases htable.symm.trans ht
      have hrows : (StoredTable.ofTable own.table).rows = [] :=
        (congrArg StoredTable.rows (ofTable_blank own.table)).symm
      rw [hrows]
      exact ⟨hvalue, fun r hr => absurd hr List.not_mem_nil⟩
    · rw [hnone] at hmade
      cases hmade
  · refine h.of_other_table hcreate hblank ?_ ?_
    · rw [ofTable_name]
      exact fun hname => heq (Series.table_inj.mp hname).symm
    · rw [ofTable_name]
      exact (own.table_ne_sequence k).symm

theorem of_createSequence {c₁ : Contents} (h : Numbered k supplied c n)
    {text : String} {m' : Nat}
    (hcreate : c.createTable (.ofSequence own.sequence) text = .ok (m, c₁))
    (hseed : c₁.insert own.sequence [.integer 0] = .ok (m', c')) :
    Numbered k supplied c' n := by
  by_cases heq : own = k
  · subst heq
    obtain ⟨hnone, hmade, hothers⟩ :=
      table?_of_createTable hcreate own.sequence_layout
    have hnone : c.table? own.sequence = none := hnone
    -- the sequence was not there, so the series was still at zero
    have hzero : n = 0 := by
      rcases h.value with hvalue | ⟨-, hzero⟩
      · obtain ⟨t, _, ht, -⟩ := value?_eq_some.mp hvalue
        cases hnone.symm.trans ht
      · exact hzero
    have hlaid := createTable_laid hcreate own.sequence_layout h.laid
    have hrewritten := insert_rewritten hseed
    have htable : c'.table? own.table.name = none := by
      rw [← h.table?_eq_none hnone,
        ← hothers own.table_layout (ofTable_name own.table)
          (own.table_ne_sequence own)]
      exact hrewritten.table?_other hlaid own.sequence_layout rfl
        own.table_layout (ofTable_name own.table) (own.table_ne_sequence own)
    rw [hzero]
    refine ⟨hrewritten.laid hlaid, Int64.le_refl 0,
      .inl (value?_of_seed hmade hseed), fun u hu => ?_⟩
    cases htable.symm.trans hu
  · have h₁ : Numbered k supplied c₁ n :=
      h.of_other_table hcreate own.sequence_layout (k.table_ne_sequence own)
        fun hname => heq (Series.sequence_inj.mp hname).symm
    exact h₁.of_rewritten_sequence heq (insert_rewritten hseed)

end Numbered

section Operations

variable {σ ω α β : Type} [Backed σ] {w w' : World σ ω}

theorem exec_performAll_cons_eq_ok {s : Statement} {rest : List Statement} :
    (Adapter.performAll (s :: rest)).exec w = (.ok (), w') ↔
      ∃ n v, (Store.execute s []).exec w = (.ok n, v) ∧
        (Adapter.performAll rest).exec v = (.ok (), w') := by
  refine Action.exec_bind_eq_ok.trans ?_
  constructor
  · rintro ⟨⟨⟩, v, hone, hrest⟩
    obtain ⟨n, hone⟩ := Store.exec_perform_eq_ok.mp hone
    exact ⟨n, v, hone, hrest⟩
  · rintro ⟨n, v, hone, hrest⟩
    exact ⟨(), v, Store.exec_perform_eq_ok.mpr ⟨n, hone⟩, hrest⟩

theorem exec_performAll_append_eq_ok {first rest : List Statement} :
    (Adapter.performAll (first ++ rest)).exec w = (.ok (), w') ↔
      ∃ v, (Adapter.performAll first).exec w = (.ok (), v) ∧
        (Adapter.performAll rest).exec v = (.ok (), w') := by
  induction first generalizing w with
  | nil =>
      constructor
      · intro h
        exact ⟨w, rfl, h⟩
      · rintro ⟨v, hfirst, h⟩
        cases hfirst
        exact h
  | cons s first ih =>
      rw [List.cons_append, exec_performAll_cons_eq_ok]
      constructor
      · rintro ⟨n, u, hone, h⟩
        obtain ⟨v, hfirst, hrest⟩ := ih.mp h
        exact ⟨v, exec_performAll_cons_eq_ok.mpr ⟨n, u, hone, hfirst⟩, hrest⟩
      · rintro ⟨v, hfirst, hrest⟩
        obtain ⟨n, u, hone, hfirst⟩ := exec_performAll_cons_eq_ok.mp hfirst
        exact ⟨n, u, hone, ih.mpr ⟨v, hfirst, hrest⟩⟩

def Series.opening (own : Series) : List Statement :=
  [.createSequence own.sequence, .seedSequence own.sequence]

namespace Script.Subject

def allSeries : Subject → List Series
  | .commit => [.commits]
  | .branch => [.branches]
  | .identity => [.identities, .aliases]

theorem scheme_eq (s : Subject) : s.adapter.scheme .sqlite =
    s.allSeries.flatMap Series.opening ++ s.allSeries.map fun own =>
      Statement.createTable own.table := by
  cases s <;> rfl

end Script.Subject

theorem numbered_of_sequences {js : List Series}
    (h : (Adapter.performAll (js.flatMap Series.opening)).exec w =
      (.ok (), w')) :
    (∀ k supplied n, Numbered k supplied w.contents n →
      Numbered k supplied w'.contents n) ∧
      ∀ own : Series, own ∈ js ∨ (w.contents.table? own.sequence).isSome →
        (w'.contents.table? own.sequence).isSome := by
  induction js generalizing w with
  | nil =>
      cases h
      exact ⟨fun _ _ _ h => h, fun own h => h.resolve_left List.not_mem_nil⟩
  | cons j js ih =>
      obtain ⟨m, v, hcreate, h⟩ := exec_performAll_cons_eq_ok.mp h
      obtain ⟨m', v', hseed, h⟩ := exec_performAll_cons_eq_ok.mp h
      obtain ⟨locked, hcreated⟩ := change_of_execute hcreate
      obtain ⟨locked', hseeded⟩ := change_of_execute hseed
      obtain ⟨hnumbered, hmade⟩ := ih h
      refine ⟨fun k supplied n hk =>
        hnumbered k supplied n (hk.of_createSequence hcreated hseeded),
          fun own hown => hmade own ?_⟩
      have hkept : ∀ {name}, (v.contents.table? name).isSome →
          (v'.contents.table? name).isSome :=
        fun hsome => change_isSome hseeded nofun hsome
      rcases hown with hown | hsome
      · rcases List.mem_cons.mp hown with rfl | hown
        · refine .inr (hkept ?_)
          obtain ⟨-, hown, -⟩ :=
            table?_of_createTable hcreated own.sequence_layout
          exact Option.isSome_of_mem hown
        · exact .inl hown
      · exact .inr (hkept (change_isSome hcreated nofun hsome))

theorem numbered_of_tables {js : List Series}
    (h : (Adapter.performAll (js.map fun own => .createTable own.table)).exec
      w = (.ok (), w'))
    (hmade : ∀ own ∈ js, (w.contents.table? own.sequence).isSome) :
    ∀ k supplied n, Numbered k supplied w.contents n →
      Numbered k supplied w'.contents n := by
  induction js generalizing w with
  | nil =>
      cases h
      exact fun _ _ _ h => h
  | cons j js ih =>
      obtain ⟨m, v, hcreate, h⟩ := exec_performAll_cons_eq_ok.mp h
      obtain ⟨locked, hcreated⟩ := change_of_execute hcreate
      intro k supplied n hk
      refine ih h (fun own hown => ?_) k supplied n
        (hk.of_createTable hcreated (hmade j List.mem_cons_self))
      exact change_isSome hcreated nofun
        (hmade own (List.mem_cons_of_mem j hown))

theorem Moves.of_eq {k : Series} {c c' : Contents} (h : c' = c) :
    Moves k [] [] c c' :=
  h ▸ .refl k c

theorem moves_of_write {op entity : String} {work : Action σ ω α}
    (hwork : Program (Plain AdapterStatement) work)
    (houtermost : w.store.writing = false) {k : Series}
    (hmoves : ∀ {a u v}, work.exec u = (.ok a, v) →
      Moves k [] [] u.contents v.contents) :
    Moves k [] [] w.contents
      ((Store.write op entity work).exec w).2.contents := by
  rcases hwrite : (Store.write op entity work).exec w with ⟨stop | a, w'⟩
  · exact .of_eq (contents_of_write_error (hwork.elementary fun _ h => h)
      houtermost hwrite)
  · obtain ⟨u, v, -, hu, hrun, hv⟩ := contents_of_write_ok houtermost hwrite
    have hmoved := hmoves hrun
    rw [hu, ← hv] at hmoved
    exact hmoved

theorem exec_createScheme (s : Script.Subject) (w : World σ ω) :
    s.adapter.createScheme.exec w =
      (Store.write Capability.createScheme.name s.adapter.entity
        (Adapter.performAll (s.adapter.scheme w.store.dialect))).exec w := by
  have hallowed : s.adapter.require .createScheme = .ok () := by cases s <;> rfl
  rw [Adapter.createScheme, Action.exec_require_bind hallowed,
    Action.exec_bind_ok (Store.exec_see _ w)]

theorem moves_of_createScheme (s : Script.Subject)
    (houtermost : w.store.writing = false)
    (hdialect : w.store.dialect = .sqlite) (k : Series) :
    Moves k [] [] w.contents (s.adapter.createScheme.exec w).2.contents := by
  rw [exec_createScheme, hdialect]
  refine moves_of_write (Acts.performAll fun _ =>
    s.licensed_of_scheme).adapterStatements
      houtermost fun h => .of_numbered fun supplied n hk => ?_
  -- a table of a series is made only after all sequences, and is empty
  rw [s.scheme_eq] at h
  obtain ⟨v, hsequences, htables⟩ := exec_performAll_append_eq_ok.mp h
  obtain ⟨hnumbered, hmade⟩ := numbered_of_sequences hsequences
  exact numbered_of_tables htables (fun own hown => hmade own (.inl hown)) k
    supplied n (hnumbered k supplied n hk)

theorem Numbered.of_tables_eq {k : Series} {supplied : List EntityId}
    {c c' : Contents} {n : Int64} (h : Numbered k supplied c n)
    (htables : c'.tables = c.tables) : Numbered k supplied c' n := by
  have hsame : ∀ name, c'.table? name = c.table? name := fun name => by
    unfold table?
    rw [htables]
  refine h.of_tables (fun t ht => h.laid t (htables ▸ ht)) (hsame _) (hsame _)

theorem moves_of_createIndexes (s : Script.Subject)
    (houtermost : w.store.writing = false)
    (k : Series) : Moves k [] [] w.contents
      (s.adapter.createIndexes.exec w).2.contents := by
  have hperform : ∀ {indexes : List Index} {u v : World σ ω},
      (Adapter.performAll (indexes.map Statement.createIndex)).exec u =
        (.ok (), v) →
      Moves k [] [] u.contents v.contents := by
    intro indexes
    induction indexes with
    | nil =>
        intro u v h
        cases h
        exact .refl k _
    | cons index indexes ih =>
        intro u v h
        obtain ⟨n, u', hcreate, h⟩ := exec_performAll_cons_eq_ok.mp h
        obtain ⟨locked, hcreated⟩ := change_of_execute hcreate
        exact (Moves.of_numbered fun _ _ hk =>
          hk.of_tables_eq (createIndex_tables hcreated)).trans (ih h)
  unfold Adapter.createIndexes
  cases s.adapter.require .createIndexes with
  | error f => exact .refl k w.contents
  | ok _ =>
      have hwork : Program (Acts (Licensed s))
          (Adapter.performAll (s.adapter.indexes.map Statement.createIndex) :
            Action σ ω Unit) := by
        apply Acts.performAll
        intro t ht
        obtain ⟨index, hindex, rfl⟩ := List.mem_map.mp ht
        exact .createIndex hindex
      exact moves_of_write hwork.adapterStatements houtermost hperform

theorem Moves.of_mapM {f : α → Action σ ω β} {k : Series}
    (hf : ∀ {a b u v}, (f a).exec u = (.ok b, v) →
      Moves k [] [] u.contents v.contents)
    {as : List α} {bs : List β} (h : (as.mapM f).exec w = (.ok bs, w')) :
    Moves k [] [] w.contents w'.contents := by
  induction as generalizing bs w with
  | nil =>
      cases h
      exact .refl k _
  | cons a as ih =>
      obtain ⟨b, v, rest, hone, hrest, rfl⟩ := Action.exec_mapM_cons_eq_ok.mp h
      exact (hf hone).trans (ih hrest)

theorem moves_of_delete {s : Script.Subject} {id : EntityId} {n : Nat}
    (h : (s.adapter.delete id).exec w = (.ok n, w')) (k : Series) :
    Moves k [] [] w.contents w'.contents := by
  cases s with
  | commit => exact .of_delete .commits h k
  | branch => cases h
  | identity =>
      obtain ⟨⟨⟩, v, haliases, h⟩ := Action.exec_bind_eq_ok.mp h
      obtain ⟨m, haliases⟩ := Store.exec_perform_eq_ok.mp haliases
      exact (Moves.of_delete .aliases haliases k).trans
        (.of_delete .identities h k)

theorem moves_of_deleteAll (s : Script.Subject) (batch : List s.Entity)
    (houtermost : w.store.writing = false) (k : Series) :
    Moves k [] [] w.contents
      ((s.adapter.deleteAll batch).exec w).2.contents := by
  have hremove : ∀ {id : EntityId} {n : Nat} {u v : World σ ω},
      (s.adapter.removeOne id).exec u = (.ok n, v) → Moves k []
      [] u.contents v.contents := by
    intro id n u v h
    obtain ⟨affected, u', hdelete, h⟩ := Action.exec_bind_eq_ok.mp h
    change (if affected ≤ 1 then _ else _ : Action σ ω Nat).exec u' = _ at h
    split at h
    case isTrue =>
      cases h
      exact moves_of_delete hdelete k
    case isFalse => cases h
  -- the identifiers to delete are read before the write begins
  have hread : Program (Elementary IsReading)
      (s.adapter.storedIds batch : Action σ ω (List EntityId)) :=
    (s.storedIds_program batch).elementary fun _ h => h
  have hcontents := hread.contents_of_reading w
  have hwriting := hread.writing_eq w
  unfold Adapter.deleteAll
  cases s.adapter.require .delete with
  | error f => exact .refl k w.contents
  | ok _ =>
      change Moves k [] [] _
        ((s.adapter.storedIds batch >>= _ : Action σ ω Nat).exec w).2.contents
      rcases hids : (s.adapter.storedIds batch :
        Action σ ω (List EntityId)).exec w with ⟨stop | ids, v⟩
      · rw [Action.exec_bind_error hids]
        rw [hids] at hcontents
        exact .of_eq hcontents
      · rw [Action.exec_bind_ok hids]
        rw [hids] at hcontents hwriting
        rw [← hcontents]
        split
        · exact .refl k v.contents
        · refine moves_of_write
            (((Program.mapM s.removeOne_acts ids).andThen fun _ => .done _).acts
              .edit).adapterStatements (hwriting.trans houtermost) fun h => ?_
          obtain ⟨counts, u', hcounts, h⟩ := Action.exec_bind_eq_ok.mp h
          cases h
          exact .of_mapM hremove hcounts

end Operations

end Annals
