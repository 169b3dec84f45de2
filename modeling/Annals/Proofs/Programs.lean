import Annals.Proofs.Writes
import Annals.Script.Basic

/-!
A program is put together from basic actions by sequencing, failing, giving up,
catching and nested writes.  What every basic action keeps, programs of any
depth keep (`Program.keeps`).  The operations of the adapters are programs of
statements and of nothing else, and the values that they give with a statement
are those of a record.
-/

namespace Annals

open Annals.Log Annals.Sql Annals.Stream

variable {σ ω α β : Type}

/-- A statement with which some adapter makes its tables, writes its records or
reads them. -/
inductive AdapterStatement : Statement → Prop where
  | createSequence (s : Script.Subject) {entity : String}
      (h : entity ∈ s.adapter.sequences) :
      AdapterStatement (.createSequence (Statement.sequenceName entity))
  | seedSequence (s : Script.Subject) {entity : String}
      (h : entity ∈ s.adapter.sequences) :
      AdapterStatement (.seedSequence (Statement.sequenceName entity))
  | nextValue (s : Script.Subject) {entity : String}
      (h : entity ∈ s.adapter.sequences) :
      AdapterStatement (.nextValue (Statement.sequenceName entity))
  | createTable (s : Script.Subject) {table : Table}
      (h : table ∈ s.adapter.tables) :
      AdapterStatement (.createTable table)
  | createIndex (index : Index) : AdapterStatement (.createIndex index)
  | insert (s : Script.Subject) {table : Table} (h : table ∈ s.adapter.tables) :
      AdapterStatement (.insert table)
  | update (s : Script.Subject) {table : Table} (h : table ∈ s.adapter.tables) :
      AdapterStatement (.update table)
  | delete (s : Script.Subject) {table : Table} (h : table ∈ s.adapter.tables)
      (column : String) :
      AdapterStatement (.delete table column)
  | select (table : Table) (scope : Scope) :
      AdapterStatement (.select table scope)
  | selectFamily (parent child : Table) (link : String) (one : Bool) :
      AdapterStatement (.selectFamily parent child link one)

/-- What is done with a store in one go, and without a transaction: a statement
that is allowed is executed or queried, the store is looked at, an event is
reported that something is skipped, or a result is noted as held open or read
on. -/
inductive Plain [Session σ] (allowed : Statement → Prop) :
    (α : Type) → Action σ ω α → Prop where
  | execute {s : Statement} (hs : allowed s) (params : List Value) :
      Plain allowed Nat (Store.execute s params)
  | query {s : Statement} (hs : allowed s) (params : List Value) :
      Plain allowed (List Cursor) (Store.use (Session.query s params))
  | see {α : Type} (f : Store σ → α) : Plain allowed α (Store.see f)
  | skip (component op entity : String) (id : Int64) (message : String) :
      Plain allowed Unit
        (Store.report (.skipped component op entity id message))
  | hold : Plain allowed Unit (Store.change fun s =>
      { s with session := Session.hold s.session })
  | release :
      Plain allowed Unit (Store.change fun s =>
        { s with session := Session.release s.session })

def Action.remember (f : ω → α × ω) : Action σ ω α :=
  ExceptT.mk fun w => (.ok (f w.memory).1, { w with memory := (f w.memory).2 })

/-- What a caller does in one go: something plain, or something with what the
caller keeps. -/
inductive Elementary [Session σ] (allowed : Statement → Prop) :
    (α : Type) → Action σ ω α → Prop where
  | plain {α : Type} {m : Action σ ω α} (h : Plain allowed α m) :
      Elementary allowed α m
  | remember {α : Type} (f : ω → α × ω) :
      Elementary allowed α (Action.remember f)

/-- The values of a record that has a row in a table, apart from its
identifier. -/
inductive Payload : Table → List Value → Prop where
  | commit {c : Commit} {values : List Value} (h : c.payload = .ok values) :
      Payload commits values
  | branch {b : Branch} {created merged : Value}
      (hcreated : Value.ofInstant b.createdAt = .ok created)
      (hmerged : Value.ofOptionalInstant b.mergedAt = .ok merged) :
      Payload branches [.text b.name, created, merged]
  | identity (i : Identity) :
      Payload identities
        [.text i.name, Value.ofOption Value.text i.primaryEmail]
  | owned (owner : EntityId) (a : Alias) :
      Payload identityAliases [Value.ofId owner, .text a.name, .text a.email]

/-- The statements that adapters execute, with the parameters that they give. -/
inductive Issued : Statement → List Value → Prop where
  | createSequence (s : Script.Subject) {entity : String}
      (h : entity ∈ s.adapter.sequences) :
      Issued (.createSequence (Statement.sequenceName entity)) []
  | seedSequence (s : Script.Subject) {entity : String}
      (h : entity ∈ s.adapter.sequences) :
      Issued (.seedSequence (Statement.sequenceName entity)) []
  | createTable (s : Script.Subject) {table : Table}
      (h : table ∈ s.adapter.tables) :
      Issued (.createTable table) []
  | createIndex (index : Index) : Issued (.createIndex index) []
  | insert {table : Table} {values : List Value} (h : Payload table values)
      (id : EntityId) :
      Issued (.insert table) (Value.ofId id :: values)
  | update {table : Table} {values : List Value} (h : Payload table values)
      (id : EntityId) :
      Issued (.update table) (values ++ [Value.ofId id])
  | delete (s : Script.Subject) {table : Table} (h : table ∈ s.adapter.tables)
      (column : String) (id : EntityId) :
      Issued (.delete table column) [Value.ofId id]

/-- The statement draws a number from a sequence of some adapter. -/
inductive Drawing : Statement → Prop where
  | nextValue (s : Script.Subject) {entity : String}
      (h : entity ∈ s.adapter.sequences) :
      Drawing (.nextValue (Statement.sequenceName entity))

/-- The statements with which one adapter changes rows: they concern its own
tables, and they update and delete only as far as the adapter allows that. -/
inductive Edits (s : Script.Subject) : Statement → List Value → Prop where
  | insert {table : Table} {values : List Value}
      (htable : table ∈ s.adapter.tables) (h : Payload table values)
      (id : EntityId) :
      Edits s (.insert table) (Value.ofId id :: values)
  | update {table : Table} {values : List Value}
      (hallowed : s.adapter.supports .update = true)
      (htable : table ∈ s.adapter.tables) (h : Payload table values)
      (id : EntityId) :
      Edits s (.update table) (values ++ [Value.ofId id])
  | delete {table : Table} (hallowed : s.adapter.supports .delete = true)
      (htable : table ∈ s.adapter.tables) (column : String) (id : EntityId) :
      Edits s (.delete table column) [Value.ofId id]

/-- The statements that one adapter executes: it also makes its tables and their
indexes. -/
inductive Licensed (s : Script.Subject) : Statement → List Value → Prop where
  | createSequence {entity : String} (h : entity ∈ s.adapter.sequences) :
      Licensed s (.createSequence (Statement.sequenceName entity)) []
  | seedSequence {entity : String} (h : entity ∈ s.adapter.sequences) :
      Licensed s (.seedSequence (Statement.sequenceName entity)) []
  | createTable {table : Table} (h : table ∈ s.adapter.tables) :
      Licensed s (.createTable table) []
  | createIndex {index : Index} (h : index ∈ s.adapter.indexes) :
      Licensed s (.createIndex index) []
  | edit {t : Statement} {params : List Value} (h : Edits s t params) :
      Licensed s t params

/-- What is done in one go by those who execute some statements and draw
identifiers. -/
inductive Acts [Session σ] (issued : Statement → List Value → Prop) :
    (α : Type) → Action σ ω α → Prop where
  | issue {t : Statement} {params : List Value} (h : issued t params) :
      Acts issued Nat (Store.execute t params)
  | plain {α : Type} {m : Action σ ω α} (h : Plain Drawing α m) :
      Acts issued α m

theorem Plain.mono [Session σ] {allowed allowed' : Statement → Prop}
    (hle : ∀ s, allowed s → allowed' s) {m : Action σ ω α}
    (h : Plain allowed α m) :
    Plain allowed' α m := by
  cases h with
  | execute hs params => exact .execute (hle _ hs) params
  | query hs params => exact .query (hle _ hs) params
  | see f => exact .see f
  | skip component op entity id message =>
      exact .skip component op entity id message
  | hold => exact .hold
  | release => exact .release

theorem Elementary.writing [Session σ] {allowed : Statement → Prop}
    {m : Action σ ω α} (h : Elementary allowed α m) (w : World σ ω) :
    (m.exec w).2.store.writing = w.store.writing := by
  cases h with
  | plain h => cases h <;> rfl
  | remember f => rfl

/-- What can be put together from basic actions. -/
inductive Program [Session σ] (basic : (α : Type) → Action σ ω α → Prop) :
    {α : Type} → Action σ ω α → Prop where
  | basic {α : Type} {m : Action σ ω α} (h : basic α m) : Program basic m
  | done {α : Type} (a : α) : Program basic (pure a)
  | andThen {α β : Type} {m : Action σ ω α} {k : α → Action σ ω β}
      (hm : Program basic m) (hk : ∀ a, Program basic (k a)) :
      Program basic (m >>= k)
  | fail {α : Type} (f : Failure) : Program basic (Action.fail f : Action σ ω α)
  | abandon {α : Type} : Program basic (throw .abandoned : Action σ ω α)
  | attempt {α : Type} {m : Action σ ω α} (hm : Program basic m) :
      Program basic (Action.observe m)
  | write {α : Type} (op entity : String) {m : Action σ ω α}
      (hm : Program basic m) :
      Program basic (Store.write op entity m)

namespace Program

variable [Session σ] {basic : (α : Type) → Action σ ω α → Prop}

/-- What basic actions and writes keep, every program keeps. -/
theorem keeps {R : World σ ω → World σ ω → Prop} (hrefl : ∀ w, R w w)
    (htrans : ∀ {u v w}, R u v → R v w → R u w)
    (hbasic : ∀ {α : Type} {m : Action σ ω α}, basic α m →
      ∀ w, R w (m.exec w).2)
    (hwrite : ∀ (op entity : String) {α : Type} {m : Action σ ω α},
      Program basic m →
      (∀ w, R w (m.exec w).2) → ∀ w, R w ((Store.write op entity m).exec w).2)
    {m : Action σ ω α} (h : Program basic m) : ∀ w, R w (m.exec w).2 := by
  induction h with
  | basic h => exact hbasic h
  | done a => exact hrefl
  | @andThen _ _ m k _ _ ihm ihk =>
      intro w
      have hm := ihm w
      rcases hrun : m.exec w with ⟨stop | a, w'⟩
      · rw [Action.exec_bind_error hrun]
        rwa [hrun] at hm
      · rw [Action.exec_bind_ok hrun]
        rw [hrun] at hm
        exact htrans hm (ihk a w')
  | fail f => exact hrefl
  | abandon => exact hrefl
  | attempt _ ih => exact ih
  | write op entity hm ih => exact hwrite op entity hm ih

/-- What basic actions keep while a transaction is under way, every program
keeps then, and it leaves the transaction under way. -/
theorem keeps_within {R : World σ ω → World σ ω → Prop} (hrefl : ∀ w, R w w)
    (htrans : ∀ {u v w}, R u v → R v w → R u w)
    (hnoting : ∀ w es, R w (w.noting es))
    (hbasic : ∀ {α : Type} {m : Action σ ω α}, basic α m →
      ∀ w, w.store.writing = true →
      (m.exec w).2.store.writing = true ∧ R w (m.exec w).2)
    {m : Action σ ω α} (h : Program basic m) (w : World σ ω)
    (hwithin : w.store.writing = true) :
    (m.exec w).2.store.writing = true ∧ R w (m.exec w).2 := by
  refine h.keeps (R := fun u v => u.store.writing = true →
    v.store.writing = true ∧ R u v)
    (fun u hu => ⟨hu, hrefl u⟩) ?_ ?_ ?_ w hwithin
  · intro u v x huv hvx hu
    obtain ⟨hv, hRuv⟩ := huv hu
    obtain ⟨hx, hRvx⟩ := hvx hv
    exact ⟨hx, htrans hRuv hRvx⟩
  · intro _ m hm u hu
    exact hbasic hm u hu
  · intro op entity _ m _ ih u hu
    rw [Store.exec_write_within op entity m hu]
    obtain ⟨hwriting, hR⟩ := ih (u.noting [Store.openingEvent op entity]) hu
    exact ⟨hwriting, htrans (htrans (hnoting u _) hR) (hnoting _ _)⟩

/-- What basic actions keep, and also the calls that begin and end transactions,
every program keeps. -/
theorem keeps_throughout {R : World σ ω → World σ ω → Prop} (hrefl : ∀ w, R w w)
    (htrans : ∀ {u v w}, R u v → R v w → R u w)
    (hnoting : ∀ w es, R w (w.noting es))
    (hwriting : ∀ w b, R w (w.withWriting b))
    (hbegin :
      ∀ w, R w (w.withSession (Session.beginTransaction.run w.store.session).2))
    (hcommit : ∀ w, R w (w.withSession (Session.commit.run w.store.session).2))
    (hrollback :
      ∀ w, R w (w.withSession (Session.rollback.run w.store.session).2))
    (hbasic : ∀ {α : Type} {m : Action σ ω α}, basic α m →
      ∀ w, R w (m.exec w).2)
    {m : Action σ ω α} (h : Program basic m) : ∀ w, R w (m.exec w).2 := by
  refine h.keeps hrefl htrans hbasic ?_
  intro op entity β m _ ih w
  cases hw : w.store.writing with
  | true =>
      rw [Store.exec_write_within op entity m hw]
      exact htrans (htrans (hnoting w _) (ih _)) (hnoting _ _)
  | false =>
      -- one fact for each stretch of an outermost write; each of its four ends
      -- puts some of them together
      have hentered : ∀ {outcome s},
          Session.beginTransaction.run w.store.session = (outcome, s) →
          R w (Store.entered op entity s w) := by
        intro outcome s hrun
        have hbegun := hbegin (Store.opened op entity w)
        rw [Store.opened_session, hrun] at hbegun
        exact htrans (htrans (hnoting w _) (hwriting _ true)) hbegun
      have hran : ∀ {outcome s result v},
          Session.beginTransaction.run w.store.session = (outcome, s) →
          m.exec (Store.entered op entity s w) = (result, v) → R w v := by
        intro outcome s result v hrun hwork
        have hafter := ih (Store.entered op entity s w)
        rw [hwork] at hafter
        exact htrans (hentered hrun) hafter
      have hcommitted : ∀ {v : World σ ω} {outcome s},
          Session.commit.run v.store.session = (outcome, s) →
          R v (v.withSession s) := by
        intro v outcome s hrun
        have hafter := hcommit v
        rwa [hrun] at hafter
      have hundone : ∀ (v : World σ ω) stop, R v (Store.undone op stop v) :=
        fun v stop => htrans (hrollback v) (hnoting _ _)
      have hleft : ∀ (v : World σ ω) (outcome : Except Stop β),
          R v (Store.left op entity outcome v) :=
        fun v outcome => htrans (hwriting v false) (hnoting _ _)
      have houtermost := Store.write_outermost op entity m hw
      generalize (Store.write op entity m).exec w = after at houtermost
      cases houtermost with
      | refused hrun => exact htrans (hentered hrun) (hleft _ _)
      | stopped hrun hwork =>
          exact htrans (htrans (hran hrun hwork) (hundone _ _)) (hleft _ _)
      | uncommitted hrun hwork hend =>
          exact htrans (htrans (htrans (hran hrun hwork) (hcommitted hend))
            (hundone _ _)) (hleft _ _)
      | committed hrun hwork hend =>
          exact htrans (htrans (hran hrun hwork) (hcommitted hend)) (hleft _ _)

theorem memory_eq {allowed : Statement → Prop} {m : Action σ ω α}
    (h : Program (Plain allowed) m) (w : World σ ω) : (m.exec w).2.memory =
      w.memory :=
  h.keeps_throughout (R := fun u v : World σ ω => v.memory = u.memory)
    (fun _ => rfl)
    (fun huv hvx => hvx.trans huv) (fun _ _ => rfl) (fun _ _ => rfl)
    (fun _ => rfl) (fun _ => rfl) (fun _ => rfl)
    (fun hm u => by cases hm <;> rfl) w

theorem settings_eq {allowed : Statement → Prop} {m : Action σ ω α}
    (h : Program (Elementary allowed) m) (w : World σ ω) :
    (m.exec w).2.store.options = w.store.options ∧
      (m.exec w).2.store.dialect = w.store.dialect := by
  refine h.keeps_throughout (R := fun u v : World σ ω =>
    v.store.options = u.store.options ∧ v.store.dialect = u.store.dialect)
    (fun _ => ⟨rfl, rfl⟩) ?_ (fun _ _ => ⟨rfl, rfl⟩) (fun _ _ => ⟨rfl, rfl⟩)
    (fun _ => ⟨rfl, rfl⟩) (fun _ => ⟨rfl, rfl⟩) (fun _ => ⟨rfl, rfl⟩) ?_ w
  · intro u v x huv hvx
    exact ⟨hvx.1.trans huv.1, hvx.2.trans huv.2⟩
  · intro _ m hm u
    cases hm with
    | plain hm => cases hm <;> exact ⟨rfl, rfl⟩
    | remember f => exact ⟨rfl, rfl⟩

theorem writing_eq {allowed : Statement → Prop} {m : Action σ ω α}
    (h : Program (Elementary allowed) m) (w : World σ ω) :
    (m.exec w).2.store.writing = w.store.writing := by
  refine h.keeps (R := fun u v : World σ ω => v.store.writing = u.store.writing)
    (fun _ => rfl)
    (fun huv hvx => hvx.trans huv) (fun hm u => hm.writing u) ?_ w
  intro op entity _ m _ ih u
  cases hu : u.store.writing with
  | true =>
      rw [Store.exec_write_within op entity m hu]
      exact (ih _).trans hu
  | false =>
      have houtermost := Store.write_outermost op entity m hu
      generalize (Store.write op entity m).exec u = after at houtermost
      cases houtermost <;> rfl

theorem flatten {other : (α : Type) → Action σ ω α → Prop}
    (hbasic : ∀ {α : Type} {m : Action σ ω α}, basic α m → Program other m)
    {m : Action σ ω α} (h : Program basic m) : Program other m := by
  induction h with
  | basic h => exact hbasic h
  | done a => exact .done a
  | andThen _ _ ihm ihk => exact .andThen ihm ihk
  | fail f => exact .fail f
  | abandon => exact .abandon
  | attempt _ ih => exact .attempt ih
  | write op entity _ ih => exact .write op entity ih

theorem elementary {allowed allowed' : Statement → Prop}
    (hle : ∀ s, allowed s → allowed' s) {m : Action σ ω α}
    (h : Program (Plain allowed) m) : Program (Elementary allowed') m :=
  h.flatten fun hm => .basic (.plain (hm.mono hle))

theorem map {m : Action σ ω α} (f : α → β) (hm : Program basic m) :
    Program basic (f <$> m) := by
  rw [map_eq_pure_bind]
  exact hm.andThen fun a => .done (f a)

theorem ofExcept (e : Except Failure α) :
    Program basic (Action.ofExcept e : Action σ ω α) := by
  cases e with
  | ok a => exact .done a
  | error f => exact .fail f

theorem ofExcept_bind {e : Except Failure α} {k : α → Action σ ω β}
    (hk : ∀ a, e = .ok a → Program basic (k a)) :
    Program basic (Action.ofExcept e >>= k) := by
  cases e with
  | ok a => exact hk a rfl
  | error f => exact .fail f

theorem ofOutcome (e : Except Stop α) :
    Program basic (Action.ofOutcome e : Action σ ω α) := by
  cases e with
  | ok a => exact .done a
  | error stop =>
      cases stop with
      | failed f => exact .fail f
      | abandoned => exact .abandon

theorem mapM {f : α → Action σ ω β} (hf : ∀ a, Program basic (f a))
    (as : List α) :
    Program basic (as.mapM f) := by
  induction as with
  | nil => exact .done []
  | cons a as ih =>
      rw [List.mapM_cons]
      exact (hf a).andThen fun b => ih.andThen fun bs => .done (b :: bs)

theorem forM {f : α → Action σ ω PUnit} {as : List α}
    (hf : ∀ a ∈ as, Program basic (f a)) :
    Program basic (as.forM f) := by
  induction as with
  | nil => exact .done PUnit.unit
  | cons a as ih =>
      exact (hf a List.mem_cons_self).andThen fun _ =>
        ih fun b hb => hf b (List.mem_cons_of_mem a hb)

end Program

theorem Alias.table_mem :
    identityAliases ∈ Script.Subject.identity.adapter.tables :=
  List.mem_cons_of_mem _ (List.mem_singleton.mpr rfl)

theorem Alias.sequence_mem :
    Alias.entityName ∈ Script.Subject.identity.adapter.sequences :=
  List.mem_cons_of_mem _ (List.mem_singleton.mpr rfl)

section Adapters

variable [Session σ]

namespace Plain

variable {allowed : Statement → Prop}

/-- The number that the last of several openings of a result holds. -/
def lastNumber (openings : List Cursor) : Except Failure (Option Int64) :=
  openings.foldlM (fun found cursor => do
    match Session.number? cursor with
    | .ok (some n) => return some n
    | .ok none => return found
    | .error f => throw f) none

theorem queryNumber_eq (s : Statement) (params : List Value) :
    (Session.queryNumber s params : Access σ (Option Int64)) =
      Session.query s params >>= fun openings =>
        Access.ofExcept (lastNumber openings) := by
  unfold Session.queryNumber lastNumber
  congr 1
  funext openings
  generalize (none : Option Int64) = found
  induction openings generalizing found with
  | nil => rfl
  | cons cursor rest ih =>
      rw [List.foldlM_cons, List.foldlM_cons]
      rcases Session.number? cursor with f | (_ | n)
      · rfl
      · exact ih found
      · exact ih (some n)

theorem queryNumber {s : Statement} (hs : allowed s) (params : List Value) :
    Program (Plain allowed)
      (Store.use (Session.queryNumber s params) :
        Action σ ω (Option Int64)) := by
  rw [queryNumber_eq, Store.use_bind]
  refine (Program.basic (.query hs params)).andThen fun openings => ?_
  rw [Store.use_ofExcept]
  exact Program.ofExcept _

theorem nextId {entity : String}
    (hs : allowed (.nextValue (Statement.sequenceName entity))) :
    Program (Plain allowed) (Store.nextId entity : Action σ ω EntityId) := by
  refine (queryNumber hs []).andThen fun found => ?_
  cases found with
  | none => exact .fail _
  | some n =>
      cases hvalue : EntityId.ofValue n with
      | ok id =>
          simp only [hvalue]
          exact .done id
      | error e =>
          simp only [hvalue]
          exact .fail _

end Plain

theorem Payload.mem {table : Table} {values : List Value}
    (h : Payload table values) :
    table ∈ storeTables := by
  cases h <;> decide

theorem Payload.exists_subject {table : Table} {values : List Value}
    (h : Payload table values) :
    ∃ s : Script.Subject, table ∈ s.adapter.tables := by
  cases h with
  | commit => exact ⟨.commit, List.mem_singleton.mpr rfl⟩
  | branch => exact ⟨.branch, List.mem_singleton.mpr rfl⟩
  | identity => exact ⟨.identity, List.mem_cons_self⟩
  | owned => exact ⟨.identity, Alias.table_mem⟩

theorem Script.Subject.licensed_of_scheme (s : Subject) {d : Dialect}
    {t : Statement} (ht : t ∈ s.adapter.scheme d) : Licensed s t [] := by
  rcases List.mem_append.mp ht with ht | ht
  · obtain ⟨entity, hentity, ht⟩ := List.mem_flatMap.mp ht
    cases d with
    | sqlite =>
        rcases List.mem_cons.mp ht with rfl | ht
        · exact .createSequence hentity
        · cases List.mem_singleton.mp ht
          exact .seedSequence hentity
    | derby | hsqldb | postgres =>
        cases List.mem_singleton.mp ht
        exact .createSequence hentity
  · obtain ⟨table, htable, rfl⟩ := List.mem_map.mp ht
    exact .createTable htable

theorem Licensed.issued {s : Script.Subject} {t : Statement}
    {params : List Value} (h : Licensed s t params) : Issued t params := by
  cases h with
  | createSequence h => exact .createSequence s h
  | seedSequence h => exact .seedSequence s h
  | createTable h => exact .createTable s h
  | createIndex h => exact .createIndex _
  | edit h =>
      cases h with
      | insert htable h id => exact .insert h id
      | update hallowed htable h id => exact .update h id
      | delete hallowed htable column id => exact .delete s htable column id

theorem Issued.adapterStatement {s : Statement} {params : List Value}
    (h : Issued s params) :
    AdapterStatement s := by
  cases h with
  | createSequence s hs => exact .createSequence s hs
  | seedSequence s hs => exact .seedSequence s hs
  | createTable s hs => exact .createTable s hs
  | createIndex index => exact .createIndex index
  | insert h id =>
      obtain ⟨s, hs⟩ := h.exists_subject
      exact .insert s hs
  | update h id =>
      obtain ⟨s, hs⟩ := h.exists_subject
      exact .update s hs
  | delete s hs column id => exact .delete s hs column

theorem Drawing.adapterStatement {s : Statement} (h : Drawing s) :
    AdapterStatement s := by
  cases h with
  | nextValue s hentity => exact .nextValue s hentity

section Acts

variable {licensed licensed' : Statement → List Value → Prop}

theorem Program.acts (hle :
    ∀ {t params}, licensed t params → licensed' t params)
    {m : Action σ ω α} (h : Program (Acts licensed) m) :
    Program (Acts licensed') m := by
  apply h.flatten
  intro _ m hm
  cases hm with
  | issue h => exact .basic (.issue (hle h))
  | plain h => exact .basic (.plain h)

theorem Program.plain {allowed : Statement → Prop}
    (hle : ∀ {t params}, licensed t params → allowed t)
    (hdraw : ∀ {t}, Drawing t → allowed t) {m : Action σ ω α}
    (h : Program (Acts licensed) m) : Program (Plain allowed) m := by
  apply h.flatten
  intro _ m hm
  cases hm with
  | issue h => exact .basic (.execute (hle h) _)
  | plain h => exact .basic (h.mono fun _ => hdraw)

theorem Program.issued {s : Script.Subject} {m : Action σ ω α}
    (h : Program (Acts (Licensed s)) m) :
    Program (Acts Issued) m := h.acts Licensed.issued

theorem Program.adapterStatements {s : Script.Subject} {m : Action σ ω α}
    (h : Program (Acts (Licensed s)) m) : Program (Plain AdapterStatement) m :=
  h.plain (fun ht => ht.issued.adapterStatement) Drawing.adapterStatement

end Acts

namespace Acts

variable {issued : Statement → List Value → Prop}

theorem perform {t : Statement} {params : List Value} (h : issued t params) :
    Program (Acts issued) (Store.perform t params : Action σ ω Unit) :=
  (Program.basic (.issue h)).map _

theorem nextId (s : Script.Subject) {entity : String}
    (h : entity ∈ s.adapter.sequences) :
    Program (Acts issued) (Store.nextId entity : Action σ ω EntityId) :=
  (Plain.nextId (.nextValue s h)).flatten fun hm => .basic (.plain hm)

theorem performAll {statements : List Statement}
    (h : ∀ t ∈ statements, issued t []) :
    Program (Acts issued) (Adapter.performAll statements : Action σ ω Unit) :=
  Program.forM fun t ht => perform (h t ht)

end Acts

namespace Commit

theorem insertRow_acts (c : Commit) :
    Program (Acts (Edits .commit)) (insertRow c : Action σ ω Keys) := by
  refine (Acts.nextId .commit (List.mem_singleton.mpr rfl)).andThen fun id => ?_
  refine Program.ofExcept_bind fun values hvalues => ?_
  exact (Acts.perform
    (.insert (List.mem_singleton.mpr rfl) (.commit hvalues) id)).andThen
    fun _ => .done _

theorem updateRow_acts (c : Commit) :
    Program (Acts (Edits .commit)) (updateRow c : Action σ ω (Nat × Keys)) := by
  unfold updateRow
  cases Record.id? c with
  | none => exact c.insertRow_acts.andThen fun keys => .done (1, keys)
  | some id =>
      refine Program.ofExcept_bind fun values hvalues => ?_
      refine (Program.basic (.issue ?_)).andThen fun n => .done (n, _)
      exact .update rfl (List.mem_singleton.mpr rfl) (.commit hvalues) id

end Commit

namespace Branch

theorem insertRow_acts (b : Branch) :
    Program (Acts (Edits .branch)) (insertRow b : Action σ ω Keys) := by
  refine (Acts.nextId .branch (List.mem_singleton.mpr rfl)).andThen fun id => ?_
  refine Program.ofExcept_bind fun createdAt hcreated => ?_
  refine Program.ofExcept_bind fun mergedAt hmerged => ?_
  refine (Acts.perform ?_).andThen fun _ => .done _
  exact .insert (List.mem_singleton.mpr rfl) (.branch hcreated hmerged) id

end Branch

namespace Alias

theorem insertRow_acts (owner : EntityId) (a : Alias) :
    Program (Acts (Edits .identity))
      (insertRow owner a : Action σ ω EntityId) := by
  have hperform : ∀ id : EntityId, Program (Acts (Edits .identity)) (do
      Store.perform (.insert identityAliases)
        [Value.ofId id, Value.ofId owner, .text a.name, .text a.email]
      return id : Action σ ω EntityId) :=
    fun id => (Acts.perform (.insert table_mem (.owned owner a) id)).andThen
      fun _ => .done id
  unfold insertRow
  cases a.ident.id? with
  | none => exact (Acts.nextId .identity sequence_mem).andThen hperform
  | some id => exact hperform id

end Alias

namespace Identity

theorem insertRows_acts (i : Identity) :
    Program (Acts (Edits .identity)) (insertRows i : Action σ ω Keys) := by
  refine (Acts.nextId .identity List.mem_cons_self).andThen fun id => ?_
  refine (Acts.perform (.insert List.mem_cons_self (.identity i) id)).andThen
    fun _ => ?_
  exact (Program.mapM (Alias.insertRow_acts id) i.aliases).andThen
    fun parts => .done _

theorem updateRows_acts (i : Identity) :
    Program (Acts (Edits .identity))
      (updateRows i : Action σ ω (Nat × Keys)) := by
  unfold updateRows
  cases Record.id? i with
  | none => exact i.insertRows_acts.andThen fun keys => .done (1, keys)
  | some id =>
      refine Program.andThen
        (.basic (.issue (.update rfl List.mem_cons_self (.identity i) id)))
        fun affected => ?_
      split
      · exact .done _
      · refine (Acts.perform (.delete rfl Alias.table_mem _ id)).andThen
          fun _ => ?_
        exact (Program.mapM (Alias.insertRow_acts id) i.aliases).andThen
          fun parts => .done _

theorem deleteRows_acts (id : EntityId) :
    Program (Acts (Edits .identity)) (deleteRows id : Action σ ω Nat) := by
  refine (Acts.perform (.delete rfl Alias.table_mem _ id)).andThen fun _ => ?_
  exact .basic (.issue (.delete rfl List.mem_cons_self _ id))

end Identity

namespace Script.Subject

theorem createScheme_acts (s : Subject) :
    Program (Acts (Licensed s)) (s.adapter.createScheme : Action σ ω Unit) :=
  (Program.ofExcept _).andThen fun _ =>
    (Program.basic (.plain (.see _))).andThen fun _ =>
      .write _ _ (Acts.performAll fun _ ht => s.licensed_of_scheme ht)

theorem createIndexes_acts (s : Subject)
    {issued : Statement → List Value → Prop}
    (h : ∀ {index}, index ∈ s.adapter.indexes →
      issued (.createIndex index) []) :
    Program (Acts issued) (s.adapter.createIndexes : Action σ ω Unit) := by
  refine (Program.ofExcept _).andThen fun _ =>
    .write _ _ (Acts.performAll fun t ht => ?_)
  obtain ⟨index, hindex, rfl⟩ := List.mem_map.mp ht
  exact h hindex

theorem insert_acts (s : Subject) (r : s.Entity) :
    Program (Acts (Edits s)) (s.adapter.insert r : Action σ ω Keys) := by
  cases s with
  | commit => exact Commit.insertRow_acts r
  | branch => exact Branch.insertRow_acts r
  | identity => exact Identity.insertRows_acts r

theorem update_acts (s : Subject) (r : s.Entity) :
    Program (Acts (Edits s))
      (s.adapter.update r : Action σ ω (Nat × Keys)) := by
  cases s with
  | commit => exact Commit.updateRow_acts r
  | branch => exact .fail _
  | identity => exact Identity.updateRows_acts r

theorem delete_acts (s : Subject) (id : EntityId) :
    Program (Acts (Edits s)) (s.adapter.delete id : Action σ ω Nat) := by
  cases s with
  | commit =>
      exact .basic (.issue (.delete rfl (List.mem_singleton.mpr rfl) _ id))
  | branch => exact .fail _
  | identity => exact Identity.deleteRows_acts id

theorem writeOne_acts (s : Subject) (r : s.Entity) :
    Program (Acts (Edits s)) (s.adapter.writeOne r : Action σ ω Keys) := by
  unfold Adapter.writeOne
  cases Record.id? r with
  | none => exact insert_acts s r
  | some id =>
      refine (update_acts s r).andThen fun (affected, keys) => ?_
      change Program _ (if affected = 1 then _ else _)
      split
      · exact .done keys
      · exact .fail _

theorem writeBatch_acts (s : Subject) (op : String) (batch : List s.Entity) :
    Program (Acts (Edits s))
      (s.adapter.writeBatch op batch : Action σ ω (Written s.Entity)) := by
  unfold Adapter.writeBatch
  split
  · exact .done _
  · refine Program.andThen
      (.attempt (.write op _ (Program.mapM (writeOne_acts s) batch))) ?_
    rintro (stop | keys)
    · exact .done _
    · exact .done _

theorem submit_acts (s : Subject) (needed : List Capability) (op : String)
    (batch : List s.Entity) :
    Program (Acts (Edits s))
      (s.adapter.submit needed op batch : Action σ ω (Written s.Entity)) := by
  unfold Adapter.submit
  split
  · exact writeBatch_acts s op batch
  · exact .done _

theorem storedIds_program {allowed : Statement → Prop} (s : Subject)
    (batch : List s.Entity) :
    Program (Plain allowed)
      (s.adapter.storedIds batch : Action σ ω (List EntityId)) := by
  refine Program.andThen (.basic (.see _)) fun policy => ?_
  refine Program.andThen (Program.mapM (fun r => ?_) batch) fun ids => .done _
  split
  · exact .done _
  · exact Program.andThen (.basic (.skip _ _ _ _ _)) fun _ => .done none
  · exact .fail _

theorem removeOne_acts (s : Subject) (id : EntityId) :
    Program (Acts (Edits s)) (s.adapter.removeOne id : Action σ ω Nat) := by
  refine (delete_acts s id).andThen fun affected => ?_
  split
  · exact .done affected
  · exact .fail _

theorem deleteAll_acts (s : Subject) (batch : List s.Entity) :
    Program (Acts (Edits s)) (s.adapter.deleteAll batch : Action σ ω Nat) := by
  refine (Program.ofExcept _).andThen fun _ => ?_
  refine ((storedIds_program s batch).flatten fun hm =>
    .basic (.plain hm)).andThen fun ids => ?_
  split
  · exact .done 0
  · exact .write _ _
      ((Program.mapM s.removeOne_acts ids).andThen fun counts => .done _)

theorem createScheme_program (s : Subject) :
    Program (Plain AdapterStatement)
      (s.adapter.createScheme : Action σ ω Unit) :=
  s.createScheme_acts.adapterStatements

theorem createIndexes_program (s : Subject) :
    Program (Plain AdapterStatement)
      (s.adapter.createIndexes : Action σ ω Unit) :=
  (s.createIndexes_acts Licensed.createIndex).adapterStatements

theorem writeOne_program (s : Subject) (r : s.Entity) :
    Program (Plain AdapterStatement) (s.adapter.writeOne r : Action σ ω Keys) :=
  ((s.writeOne_acts r).acts .edit).adapterStatements

theorem submit_program (s : Subject) (needed : List Capability) (op : String)
    (batch : List s.Entity) :
    Program (Plain AdapterStatement)
      (s.adapter.submit needed op batch : Action σ ω (Written s.Entity)) :=
  ((s.submit_acts needed op batch).acts .edit).adapterStatements

theorem deleteAll_program (s : Subject) (batch : List s.Entity) :
    Program (Plain AdapterStatement)
      (s.adapter.deleteAll batch : Action σ ω Nat) :=
  ((s.deleteAll_acts batch).acts .edit).adapterStatements

end Script.Subject

end Adapters

end Annals
