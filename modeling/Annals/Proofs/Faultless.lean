import Annals.Proofs.Series

namespace Annals

open Annals.Log Annals.Sql Annals.Stream Annals.Database
    Annals.Database.Contents

variable {σ ω α : Type}

/-- In the states of a session that are called calm, a use does what the
corresponding use of the database does, and the session stays calm. -/
def Follows [Backed σ] (calm : σ → Prop) (access : Access σ α)
    (real : Access Database α) : Prop :=
  ∀ s, calm s → (access.run s).1 = (real.run (Backed.database s)).1 ∧
    Backed.database (access.run s).2 = (real.run (Backed.database s)).2 ∧
    calm (access.run s).2

namespace Follows

variable [Backed σ] {calm : σ → Prop} {access : Access σ α}
    {real : Access Database α} (h : Follows calm access real) {a : α}
    {db : Database}
include h

theorem run_eq_ok {s : σ} (hs : calm s)
    (hreal : real.run (Backed.database s) = (.ok a, db)) :
    ∃ s', access.run s = (.ok a, s') ∧ calm s' ∧ Backed.database s' = db := by
  obtain ⟨houtcome, hdatabase, hcalm⟩ := h s hs
  rw [hreal] at houtcome hdatabase
  exact ⟨(access.run s).2, Prod.ext houtcome rfl, hcalm, hdatabase⟩

theorem exec_use {w : World σ ω} (hw : calm w.store.session)
    (hreal : real.run w.database = (.ok a, db)) :
    ∃ w', (Store.use access : Action σ ω α).exec w = (.ok a, w') ∧
      calm w'.store.session ∧
      w'.database = db := by
  obtain ⟨s, hrun, hcalm, hdatabase⟩ := h.run_eq_ok hw hreal
  exact ⟨w.withSession s, Store.exec_use_eq_ok.mpr ⟨s, hrun, rfl⟩,
    hcalm, hdatabase⟩

end Follows

/-- No call fails in calm states unless its database makes it fail. -/
structure Faultless (σ : Type) [Backed σ] (calm : σ → Prop) : Prop where
  execute (s : Statement) (params : List Value) :
    Follows calm (Session.execute s params) (Session.execute s params)
  query (s : Statement) (params : List Value) :
    Follows calm (Session.query s params) (Session.query s params)
  beginTransaction :
    Follows calm Session.beginTransaction Session.beginTransaction
  commit : Follows calm Session.commit Session.commit

theorem faultless_database : Faultless Database fun _ => True where
  execute _ _ _ _ := ⟨rfl, rfl, trivial⟩
  query _ _ _ _ := ⟨rfl, rfl, trivial⟩
  beginTransaction _ _ := ⟨rfl, rfl, trivial⟩
  commit _ _ := ⟨rfl, rfl, trivial⟩

namespace Scripted

def Unarmed (calm : σ → Prop) (s : Scripted σ) : Prop :=
  calm s.inner ∧ s.faults = [] ∧ s.failCommit = false

theorem follows_screened [Backed σ] {calm : σ → Prop} {access : Access σ α}
    {real : Access Database α} (h : Follows calm access real) (call : Call)
    (text : String) :
    Follows (Unarmed calm) (do record call; screen text; pass access) real := by
  rintro ⟨inner, calls, faults, failCommit, failRollback⟩
    ⟨hinner, hfaults, hcommit⟩
  cases hfaults
  obtain ⟨houtcome, hdatabase, hcalm⟩ := h inner hinner
  exact ⟨houtcome, hdatabase, hcalm, rfl, hcommit⟩

theorem faultless [Backed σ] {calm : σ → Prop} (h : Faultless σ calm) :
    Faultless (Scripted σ) (Unarmed calm) where
  execute statement params s :=
    follows_screened (h.execute statement params)
      (.execute (statement.render (Session.dialect s.inner)) params)
      (statement.render (Session.dialect s.inner)) s
  query statement params s :=
    follows_screened (h.query statement params)
      (.query (statement.render (Session.dialect s.inner)) params)
      (statement.render (Session.dialect s.inner)) s
  beginTransaction := by
    rintro ⟨inner, calls, faults, failCommit, failRollback⟩
      ⟨hinner, hfaults, hcommit⟩
    obtain ⟨houtcome, hdatabase, hcalm⟩ := h.beginTransaction inner hinner
    exact ⟨houtcome, hdatabase, hcalm, hfaults, hcommit⟩
  commit := by
    rintro ⟨inner, calls, faults, failCommit, failRollback⟩
      ⟨hinner, hfaults, hcommit⟩
    cases hcommit
    obtain ⟨houtcome, hdatabase, hcalm⟩ := h.commit inner hinner
    exact ⟨houtcome, hdatabase, hcalm, hfaults, rfl⟩

end Scripted

theorem Database.Contents.advance_accepted {c : Contents} (hc : c.Laid)
    {sequence : String} (hlayout : .ofSequence sequence ∈ layouts) {n : Int64}
    (hn : c.value? sequence = some n) :
    ∃ c', c.advance sequence = .ok ([[following n]], c') := by
  obtain ⟨t, key, ht, hrows⟩ := value?_eq_some.mp hn
  have hcolumns : t.columns = [.required "value" .bigInt] :=
    StoredTable.columns_eq_of_blank (hc.blank_eq hlayout ht)
  have hvalue : following n ≠ .null := by
    by_cases hmax : n = Int64.maxValue
    · rw [hmax, following_maxValue]
      nofun
    · rw [following_of_ne hmax]
      nofun
  have hdrawn : drawn t.name t.columns [(Cell.integer n).addOne] =
      .ok [following n] := by
    rw [hcolumns]
    refine bind_eq_ok.mpr ⟨(), ?_, rfl⟩
    unfold requireValue
    rw [if_neg]
    exact fun hnull => hvalue hnull.1
  refine ⟨c.put { t with rows := [{ key, cells := [following n] }] },
    bind_eq_ok.mpr ⟨t, table_eq_ok.mpr ht,
      bind_eq_ok.mpr ⟨[{ key, cells := [following n] }], ?_, rfl⟩⟩⟩
  rw [hrows, List.mapM_cons, List.mapM_nil]
  exact bind_eq_ok.mpr ⟨_, bind_eq_ok.mpr ⟨_, hdrawn, rfl⟩, rfl⟩

namespace Faultless

variable [Backed σ] {calm : σ → Prop} (h : Faultless σ calm) {w : World σ ω}
include h

theorem exec_execute (hw : calm w.store.session) {s : Statement}
    {params : List Value} {n : Nat} {c' : Contents}
    (hchange : ∀ locked, change w.contents locked s params = .ok (n, c')) :
    ∃ w', (Store.execute s params).exec w = (.ok n, w') ∧
      calm w'.store.session ∧
      w'.contents = c' := by
  have hreal : (Session.execute s params : Access Database Nat).run w.database =
      (.ok n, { w.database with contents := c' }) := by
    have hchange' : change w.database.contents (0 < w.database.held) s params =
        .ok (n, c') :=
      hchange _
    rw [run_execute, hchange']
  obtain ⟨w', hrun, hcalm, hdatabase⟩ := (h.execute s params).exec_use hw hreal
  exact ⟨w', hrun, hcalm, congrArg Database.contents hdatabase⟩

theorem exec_nextId (hw : calm w.store.session) (hlaid : w.contents.Laid)
    {k : Series} {n : Int64} (hn : w.contents.value? k.sequence = some n)
    (hnonneg : 0 ≤ n) (hmax : n ≠ Int64.maxValue) :
    ∃ id w', (Store.nextId k.entity).exec w = (.ok id, w') ∧
      calm w'.store.session ∧
      id.value = n + 1 ∧ w'.contents.value? k.sequence = some (n + 1) := by
  obtain ⟨c', hadvance⟩ := advance_accepted hlaid k.sequence_layout hn
  have hint := Int64.toInt_add_one hmax
  have hpositive : 0 < n + 1 := by
    rw [Int64.lt_iff_toInt_lt]
    rw [Int64.le_iff_toInt_le] at hnonneg
    have hzero : (0 : Int64).toInt = 0 := rfl
    omega
  have hvalue : EntityId.ofValue (n + 1) = .ok ⟨n + 1, hpositive⟩ :=
    EntityId.ofValue_value ⟨n + 1, hpositive⟩
  have hreal : (Session.query (.nextValue k.sequence) [] :
      Access Database (List Cursor)).run
      w.database = (.ok [{ fetches := [[following n]].map fun cells =>
        ({ place := { key := 0 }, cells } : ResultRow).fetch }],
          { w.database with contents := c' }) := by
    have hadvance' : w.database.contents.advance k.sequence =
        .ok ([[following n]], c') := hadvance
    rw [run_nextValue, hadvance']
  obtain ⟨w', hquery, hcalm, hdatabase⟩ :=
    (h.query (.nextValue k.sequence) []).exec_use hw hreal
  have hcontents : w'.contents = c' := congrArg Database.contents hdatabase
  have hnumber : (Store.use (Session.queryNumber (.nextValue k.sequence) []) :
      Action σ ω (Option Int64)).exec w = (.ok (some (n + 1)), w') := by
    rw [Plain.queryNumber_eq, Store.use_bind, Action.exec_bind_ok hquery,
      Store.use_ofExcept, following_of_ne hmax]
    rfl
  refine ⟨⟨n + 1, hpositive⟩, w', ?_, hcalm, rfl, ?_⟩
  · unfold Store.nextId
    rw [show Statement.sequenceName k.entity = k.sequence from rfl,
      Action.exec_bind_ok hnumber]
    simp only [hvalue]
    rfl
  · obtain ⟨-, t, key, ht, hrows⟩ :=
      advance_value hlaid k.sequence_layout hn hadvance
    rw [following_of_ne hmax] at hrows
    rw [hcontents]
    exact value?_eq_some.mpr ⟨t, key, ht, hrows⟩

/-- A write succeeds if its work does, and if there is no transaction in the way
of an outermost one. -/
theorem exec_write {allowed : Statement → Prop} {op entity : String}
    {work : Action σ ω α} {P : α → Contents → Prop} (hw : calm w.store.session)
    (hfree : w.store.writing = false → w.database.saved = none)
    (hprogram : Program (Elementary allowed) work)
    (hwork : ∀ u : World σ ω, calm u.store.session → u.store.writing = true →
      u.contents = w.contents →
        ∃ a v, work.exec u = (.ok a, v) ∧ calm v.store.session ∧
          P a v.contents) :
    ∃ a w', (Store.write op entity work).exec w = (.ok a, w') ∧
      P a w'.contents := by
  cases hwriting : w.store.writing with
  | true =>
      obtain ⟨a, v, hrun, -, hP⟩ :=
        hwork (w.noting [Store.openingEvent op entity]) hw hwriting rfl
      refine ⟨a, v.noting
        (Store.closingEvent op entity (.ok a : Except Stop α)), ?_, hP⟩
      rw [Store.exec_write_within op entity work hwriting, hrun]
  | false =>
      have hreal : (Session.beginTransaction : Access Database Unit).run
          w.database =
          (.ok (), { w.database with saved := some w.contents }) := by
        rw [run_begin, hfree hwriting]
        rfl
      obtain ⟨s, hbegin, hcalm, hbegun⟩ := h.beginTransaction.run_eq_ok hw hreal
      have hcontents : (Store.entered op entity s w).contents = w.contents := by
        change (Backed.database s).contents = w.contents
        rw [hbegun]
        rfl
      obtain ⟨a, v, hrun, hcalm', hP⟩ :=
        hwork (Store.entered op entity s w) hcalm rfl hcontents
      -- the transaction is open still when the work is done
      have hsaved := hprogram.saved_within (Store.entered op entity s w) rfl
      rw [hrun, World.database_entered, hbegun] at hsaved
      have hreal' : (Session.commit : Access Database Unit).run v.database =
          (.ok (), { v.database with saved := none }) := by
        rw [run_commit, hsaved]
        rfl
      obtain ⟨s', hcommit, -, hended⟩ := h.commit.run_eq_ok hcalm' hreal'
      refine ⟨a, Store.left op entity (.ok a : Except Stop α)
        (v.withSession s'),
        Store.exec_write_committed hwriting hbegin hrun hcommit, ?_⟩
      change P a (Backed.database s').contents
      rw [hended]
      exact hP

end Faultless

end Annals
