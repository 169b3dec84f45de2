import Annals.Database.Connection
import Annals.Proofs.Reachable

/-!
A session keeps a journal of the changes that have led to the contents of its
database.  A rollback takes back the whole of what a transaction has changed,
and nothing takes back less: what a batch has changed within a write before it
failed stays, unless the write itself fails.
-/

namespace Annals

open Annals.Log Annals.Sql Annals.Stream Annals.Database

variable {σ ω α β : Type}

structure Alteration where
  statement : Statement
  params : List Value
  before : Contents
  after : Contents
  differs : before ≠ after
  deriving DecidableEq

def Alteration.between (statement : Statement) (params : List Value)
    (before after : Contents) :
    List Alteration :=
  if h : before = after then [] else [⟨statement, params, before, after, h⟩]

/-- Alterations lead from some contents to others, each of them going on where
the one before it ended. -/
inductive Leads : Contents → List Alteration → Contents → Prop where
  | nil (c : Contents) : Leads c [] c
  | cons (e : Alteration) {es : List Alteration} {c : Contents}
      (h : Leads e.after es c) :
      Leads e.before (e :: es) c

theorem Leads.of_eq {c c' : Contents} (h : c = c') : Leads c [] c' := h ▸ .nil c

theorem Leads.append {c c' c'' : Contents} {es es' : List Alteration}
    (h : Leads c es c') (h' : Leads c' es' c'') : Leads c (es ++ es') c'' := by
  induction h with
  | nil c => exact h'
  | cons e _ ih => exact .cons e (ih h')

theorem Leads.between (statement : Statement) (params : List Value)
    (before after : Contents) :
    Leads before (Alteration.between statement params before after) after := by
  unfold Alteration.between
  split
  case isTrue h =>
    subst h
    exact .nil before
  case isFalse h =>
    exact .cons ⟨statement, params, before, after, h⟩ (.nil after)

/-- A session with the alterations that have led to the contents of its
database.  An open transaction keeps those that there were when it began. -/
structure Journaled (σ : Type) where
  inner : σ
  lineage : List Alteration := []
  kept : Option (List Alteration) := none

namespace Journaled

def pass (access : Access σ α) : Access (Journaled σ) α :=
  ExceptT.mk fun j =>
    let (outcome, inner) := access.run j.inner
    (outcome, { j with inner })

variable [Backed σ]

/-- Passes a statement on and writes down what it has changed. -/
def passNoting (statement : Statement) (params : List Value)
    (access : Access σ α) :
    Access (Journaled σ) α :=
  ExceptT.mk fun j =>
    let (outcome, inner) := access.run j.inner
    let altered :=
      Alteration.between statement params (Backed.database j.inner).contents
        (Backed.database inner).contents
    (outcome, { j with inner, lineage := j.lineage ++ altered })

def beginTransaction : Access (Journaled σ) Unit :=
  ExceptT.mk fun j =>
    let (outcome, inner) := Session.beginTransaction.run j.inner
    (outcome, { j with inner, kept := if outcome.isOk then some j.lineage
      else j.kept })

def commit : Access (Journaled σ) Unit :=
  ExceptT.mk fun j =>
    let (outcome, inner) := Session.commit.run j.inner
    (outcome, { j with inner, kept := if outcome.isOk then none else j.kept })

def rollback : Access (Journaled σ) Unit :=
  ExceptT.mk fun j =>
    let (outcome, inner) := Session.rollback.run j.inner
    (outcome, { inner, lineage := j.kept.getD j.lineage })

instance : Session (Journaled σ) where
  dialect j := Session.dialect j.inner
  execute statement params :=
    passNoting statement params (Session.execute statement params)
  query statement params :=
    passNoting statement params (Session.query statement params)
  beginTransaction := beginTransaction
  commit := commit
  rollback := rollback
  close := pass Session.close
  hold j := { j with inner := Session.hold j.inner }
  release j := { j with inner := Session.release j.inner }
  resume statement params trail now rest :=
    Session.resume statement params (trail.map fun (j, count) =>
      (j.inner, count)) now.inner rest

instance : Backed (Journaled σ) where
  database j := Backed.database j.inner
  execute_mirrors statement params j :=
    Backed.execute_mirrors statement params j.inner
  query_mirrors statement params j :=
    Backed.query_mirrors statement params j.inner
  begin_mirrors j := Backed.begin_mirrors j.inner
  commit_mirrors j := Backed.commit_mirrors j.inner
  rollback_undoes j := Backed.rollback_undoes j.inner
  database_hold j := Backed.database_hold j.inner
  database_release j := Backed.database_release j.inner

theorem run_begin (j : Journaled σ) :
    (Session.beginTransaction : Access (Journaled σ) Unit).run j =
      ((Session.beginTransaction.run j.inner).1,
        { j with
          inner := (Session.beginTransaction.run j.inner).2
          kept :=
            if (Session.beginTransaction.run j.inner).1.isOk then some j.lineage
              else j.kept }) := rfl

theorem run_commit (j : Journaled σ) :
    (Session.commit : Access (Journaled σ) Unit).run j =
      ((Session.commit.run j.inner).1,
        { j with
          inner := (Session.commit.run j.inner).2
          kept := if (Session.commit.run j.inner).1.isOk then none
            else j.kept }) := rfl

theorem kept_begin {j j' : Journaled σ}
    (h : Session.beginTransaction.run j = (.ok (), j')) :
    j'.kept = some j.lineage := by
  rw [run_begin] at h
  obtain ⟨houtcome, rfl⟩ := Prod.mk.inj h
  rw [houtcome]
  rfl

theorem kept_commit {j j' : Journaled σ} {f : Failure}
    (h : Session.commit.run j = (.error f, j')) : j'.kept = j.kept := by
  rw [run_commit] at h
  obtain ⟨houtcome, rfl⟩ := Prod.mk.inj h
  rw [houtcome]
  rfl

theorem lineage_begin {j j' : Journaled σ} {outcome : Except Failure Unit}
    (h : Session.beginTransaction.run j = (outcome, j')) :
    j'.lineage = j.lineage := by
  obtain ⟨-, rfl⟩ := Prod.mk.inj h
  rfl

theorem lineage_commit {j j' : Journaled σ} {outcome : Except Failure Unit}
    (h : Session.commit.run j = (outcome, j')) : j'.lineage = j.lineage := by
  obtain ⟨-, rfl⟩ := Prod.mk.inj h
  rfl

end Journaled

section Programs

variable [Backed σ]

def World.lineage (w : World (Journaled σ) ω) : List Alteration :=
  w.store.session.lineage

/-- Without the end of a transaction the lineage only grows, as the contents
change. -/
structure World.Grows (u v : World (Journaled σ) ω)
    (gained : List Alteration) : Prop where
  saved : v.database.saved = u.database.saved
  kept : v.store.session.kept = u.store.session.kept
  lineage : v.lineage = u.lineage ++ gained
  leads : Leads u.contents gained v.contents

namespace World.Grows

variable {u v w : World (Journaled σ) ω} {gained gained' : List Alteration}

theorem of_eq (hdatabase : v.database = u.database)
    (hkept : v.store.session.kept = u.store.session.kept)
    (hlineage : v.lineage = u.lineage) :
    u.Grows v [] where
  saved := congrArg Database.saved hdatabase
  kept := hkept
  lineage := hlineage.trans (List.append_nil _).symm
  leads := .of_eq (congrArg Database.contents hdatabase).symm

theorem refl (u : World (Journaled σ) ω) : u.Grows u [] := .of_eq rfl rfl rfl

theorem trans (h : u.Grows v gained) (h' : v.Grows w gained') :
    u.Grows w (gained ++ gained') where
  saved := h'.saved.trans h.saved
  kept := h'.kept.trans h.kept
  lineage := by rw [h'.lineage, h.lineage, List.append_assoc]
  leads := h.leads.append h'.leads

end World.Grows

theorem grows_of_plain {m : Action (Journaled σ) ω α}
    {allowed : Statement → Prop} (h : Plain allowed α m)
    (w : World (Journaled σ) ω) :
    ∃ gained, w.Grows (m.exec w).2 gained := by
  have hsaved := (h.touched w).saved_eq
  cases h with
  | execute | query => exact ⟨_, hsaved, rfl, rfl, Leads.between _ _ _ _⟩
  | see | skip => exact ⟨[], .of_eq rfl rfl rfl⟩
  | hold =>
      have hcontents := Backed.contents_hold w.store.session
      exact ⟨[], hsaved, rfl, (List.append_nil _).symm, .of_eq hcontents.symm⟩
  | release =>
      have hcontents := Backed.contents_release w.store.session
      exact ⟨[], hsaved, rfl, (List.append_nil _).symm, .of_eq hcontents.symm⟩

theorem Program.grows_within {m : Action (Journaled σ) ω α}
    {allowed : Statement → Prop} (h : Program (Plain allowed) m)
    (w : World (Journaled σ) ω) (hwithin : w.store.writing = true) :
    (m.exec w).2.store.writing = true ∧ ∃ gained,
      w.Grows (m.exec w).2 gained := by
  refine h.keeps_within (R := fun u v : World (Journaled σ) ω =>
    ∃ gained, u.Grows v gained)
      (fun u => ⟨[], .refl u⟩) ?_ (fun u _ => ⟨[], .of_eq rfl rfl rfl⟩) ?_
        w hwithin
  · rintro u v x ⟨gained, huv⟩ ⟨gained', hvx⟩
    exact ⟨gained ++ gained', huv.trans hvx⟩
  · intro _ m hm u hu
    exact ⟨by cases hm <;> exact hu, grows_of_plain hm u⟩

/-- What a caller keeps: the alterations of each call that has failed, and
anything else. -/
structure Notes (ω : Type) where
  failures : List (List Alteration) := []
  own : ω

/-- Makes a call and notes, if it fails, what it has changed. -/
def noting (ok : β → Bool) (call : Action (Journaled σ) (Notes ω) β) :
    Action (Journaled σ) (Notes ω) β := do
  let before ← Store.see (·.session.lineage)
  let b ← call
  let after ← Store.see (·.session.lineage)
  if ok b then return b
  else
    Action.remember fun notes => ((), { notes with
      failures := notes.failures ++ [after.drop before.length] })
    return b

/-- What a caller does in one go: something plain, something with what else it
keeps, or a call that saves, updates or deletes a batch. -/
inductive Callwork : (α : Type) → Action (Journaled σ) (Notes ω) α → Prop where
  | plain {α : Type} {m : Action (Journaled σ) (Notes ω) α}
      (h : Plain (fun _ => True) α m) :
      Callwork α m
  | own {α : Type} (f : Notes ω → α × ω) :
      Callwork α (Action.remember fun notes =>
        ((f notes).1, { notes with own := (f notes).2 }))
  | save (s : Script.Subject) (batch : List s.Entity) :
      Callwork (Written s.Entity)
        (noting (·.outcome.isOk) (s.adapter.save batch))
  | update (s : Script.Subject) (batch : List s.Entity) :
      Callwork (Written s.Entity)
        (noting (·.outcome.isOk) (s.adapter.updateAll batch))
  | deleteAll (s : Script.Subject) (batch : List s.Entity) :
      Callwork (Except Stop Nat)
        (noting Except.isOk (Action.observe (s.adapter.deleteAll batch)))

/-- Within a write the lineage grows, and what failed calls have changed is part
of what it gains. -/
def Retains (u v : World (Journaled σ) (Notes ω)) : Prop :=
  ∃ gained failures, u.Grows v gained ∧
    v.memory.failures = u.memory.failures ++ failures ∧
    ∀ made ∈ failures, made <:+: gained

theorem Retains.refl (u : World (Journaled σ) (Notes ω)) : Retains u u :=
  ⟨[], [], .refl u, (List.append_nil _).symm, fun made hmade => by cases hmade⟩

theorem Retains.trans {u v w : World (Journaled σ) (Notes ω)} (h : Retains u v)
    (h' : Retains v w) : Retains u w := by
  obtain ⟨gained, failures, hgrows, hfailures, hmade⟩ := h
  obtain ⟨gained', failures', hgrows', hfailures', hmade'⟩ := h'
  refine ⟨gained ++ gained', failures ++ failures', hgrows.trans hgrows',
    by rw [hfailures', hfailures, List.append_assoc], ?_⟩
  intro made hmem
  rcases List.mem_append.mp hmem with hmem | hmem
  · exact (hmade made hmem).trans (List.infix_append' [] gained gained')
  · exact (hmade' made hmem).trans (List.suffix_append gained gained').isInfix

theorem Retains.of_grows {u v : World (Journaled σ) (Notes ω)}
    {gained : List Alteration} (h : u.Grows v gained)
    (hmemory : v.memory = u.memory) : Retains u v :=
  ⟨gained, [], h, by rw [hmemory, List.append_nil],
    fun made hmade => by cases hmade⟩

theorem retains_of_noting {ok : β → Bool}
    {call : Action (Journaled σ) (Notes ω) β}
    {allowed : Statement → Prop} (hcall : Program (Plain allowed) call)
    (w : World (Journaled σ) (Notes ω)) (hwithin : w.store.writing = true) :
    ((noting ok call).exec w).2.store.writing = true ∧
    Retains w ((noting ok call).exec w).2 := by
  obtain ⟨hwriting, gained, hgrows⟩ := hcall.grows_within w hwithin
  have hmemory := hcall.memory_eq w
  unfold noting
  rw [Action.exec_bind_ok (Store.exec_see _ _)]
  rcases hrun : call.exec w with ⟨stop | b, v⟩
  · rw [hrun] at hwriting hgrows hmemory
    rw [Action.exec_bind_error hrun]
    exact ⟨hwriting, .of_grows hgrows hmemory⟩
  · rw [hrun] at hwriting hgrows hmemory
    rw [Action.exec_bind_ok hrun, Action.exec_bind_ok (Store.exec_see _ _)]
    have hmade : v.store.session.lineage.drop w.store.session.lineage.length =
        gained := by
      have hlineage : v.store.session.lineage = w.store.session.lineage ++
          gained :=
        hgrows.lineage
      rw [hlineage, List.drop_left]
    rw [hmade]
    split
    case isTrue => exact ⟨hwriting, .of_grows hgrows hmemory⟩
    case isFalse =>
      have hfailures : v.memory.failures ++ [gained] = w.memory.failures ++
          [gained] :=
        congrArg (·.failures ++ [gained]) hmemory
      refine ⟨hwriting, gained, [gained], ?_, hfailures, ?_⟩
      · exact ⟨hgrows.saved, hgrows.kept, hgrows.lineage, hgrows.leads⟩
      intro made hmem
      cases List.mem_singleton.mp hmem
      exact List.infix_rfl

theorem Callwork.retains {m : Action (Journaled σ) (Notes ω) α}
    (h : Callwork α m) (w : World (Journaled σ) (Notes ω))
    (hwithin : w.store.writing = true) :
    (m.exec w).2.store.writing = true ∧ Retains w (m.exec w).2 := by
  cases h with
  | plain h =>
      have hm : Program (Plain fun _ => True) m := .basic h
      obtain ⟨hwriting, gained, hgrows⟩ := hm.grows_within w hwithin
      exact ⟨hwriting, .of_grows hgrows (hm.memory_eq w)⟩
  | own f =>
      refine ⟨hwithin, [], [], .of_eq rfl rfl rfl, (List.append_nil _).symm, ?_⟩
      intro made hmem
      cases hmem
  | save s batch =>
      exact retains_of_noting (s.submit_program _ _ batch) w hwithin
  | update s batch =>
      exact retains_of_noting (s.submit_program _ _ batch) w hwithin
  | deleteAll s batch =>
      exact retains_of_noting (Program.attempt (s.deleteAll_program batch))
        w hwithin

/-- Within a write nothing takes back what failed calls have changed. -/
theorem Program.retains {m : Action (Journaled σ) (Notes ω) α}
    (h : Program Callwork m) (w : World (Journaled σ) (Notes ω))
    (hwithin : w.store.writing = true) :
    Retains w (m.exec w).2 :=
  (h.keeps_within (fun u => .refl u) (fun huv hvx => huv.trans hvx)
    (fun _ _ => .of_grows (.of_eq rfl rfl rfl) rfl)
    (fun hm u hu => hm.retains u hu) w hwithin).2

namespace World.Grows

variable {op entity : String} {s s' : Journaled σ}
    {u v w : World (Journaled σ) ω} {gained : List Alteration}

/-- A rollback finds what was kept when the transaction began, whatever has been
done since. -/
theorem undone (h : (Store.entered op entity s w).Grows v gained)
    (hbegin : Session.beginTransaction.run w.store.session = (.ok (), s))
    (hkept : u.store.session.kept = v.store.session.kept)
    (hdatabase : u.database = v.database) (cause : Stop) :
    (Store.undone op cause u).lineage = w.lineage ∧
      (Store.undone op cause u).contents = w.contents := by
  constructor
  · have hkept' : u.store.session.kept = some w.store.session.lineage := by
      rw [hkept, h.kept]
      exact Journaled.kept_begin hbegin
    change u.store.session.kept.getD u.store.session.lineage =
      w.store.session.lineage
    rw [hkept']
    rfl
  · have hsaved : u.database.saved = some w.contents := by
      rw [hdatabase, h.saved, World.database_entered, Backed.begin_eq_ok hbegin]
      rfl
    unfold World.contents
    rw [World.database_undone,
      (Database.contents_rollback u.database).1, hsaved]
    rfl

theorem committed (h : (Store.entered op entity s w).Grows v gained)
    (hbegin : Session.beginTransaction.run w.store.session = (.ok (), s))
    (hcommit : Session.commit.run v.store.session = (.ok (), s')) :
    s'.lineage = w.lineage ++ gained ∧
      Leads w.contents gained (Backed.database s').contents := by
  constructor
  · rw [Journaled.lineage_commit hcommit]
    refine h.lineage.trans ?_
    exact congrArg (· ++ gained) (Journaled.lineage_begin hbegin)
  · have hentered : (Store.entered op entity s w).contents = w.contents := by
      unfold World.contents
      rw [World.database_entered, Backed.begin_eq_ok hbegin]
      rfl
    rw [Backed.commit_eq_ok hcommit, ← hentered]
    exact h.leads

end World.Grows

/-- What an outermost write changes is what the lineage has gained.  The
alterations of a call within it that has failed are not among that exactly if
the write ends without a result, or if the call had changed nothing. -/
theorem lineage_after_write {work : Action (Journaled σ) (Notes ω) α}
    (hwork : Program Callwork work) (op entity : String)
    {w : World (Journaled σ) (Notes ω)} (houtermost : w.store.writing = false) :
    ∃ gained failures,
      ((Store.write op entity work).exec w).2.lineage = w.lineage ++ gained ∧
      Leads w.contents gained ((Store.write op entity work).exec w).2.contents ∧
      ((Store.write op entity work).exec w).2.memory.failures =
        w.memory.failures ++ failures ∧
      ∀ made ∈ failures, (∀ e ∈ made, e ∉ gained) ↔
        ((Store.write op entity work).exec w).1.isOk = false ∨ made = [] := by
  have hran : ∀ {s : Journaled σ} {outcome v},
      work.exec (Store.entered op entity s w) = (outcome, v) →
        Retains (Store.entered op entity s w) v := by
    intro s outcome v hrun
    have hretains := hwork.retains (Store.entered op entity s w) rfl
    rwa [hrun] at hretains
  -- without a result nothing is gained, and both sides hold
  have hnone : ∀ {stop : Stop} {made : List Alteration},
      (∀ e ∈ made, e ∉ ([] : List Alteration)) ↔
        (Except.error stop : Except Stop α).isOk = false ∨ made = [] :=
    ⟨fun _ => .inl rfl, fun _ e _ => List.not_mem_nil⟩
  have h := Store.write_outermost op entity work houtermost
  generalize (Store.write op entity work).exec w = after at h
  cases h with
  | @refused f s hbegin =>
      refine ⟨[], [], ?_, .of_eq ?_, (List.append_nil _).symm,
        fun made hmade => by cases hmade⟩
      · exact (Journaled.lineage_begin hbegin).trans (List.append_nil _).symm
      · exact (congrArg Database.contents (Backed.begin_eq_error hbegin)).symm
  | @stopped s stop v hbegin hrun =>
      obtain ⟨gained, failures, hgrows, hfailures, -⟩ := hran hrun
      obtain ⟨hlineage, hcontents⟩ := hgrows.undone hbegin rfl rfl stop
      exact ⟨[], failures, hlineage.trans (List.append_nil _).symm,
        .of_eq hcontents.symm, hfailures, fun made _ => hnone⟩
  | @uncommitted s s' a f v hbegin hrun hcommit =>
      obtain ⟨gained, failures, hgrows, hfailures, -⟩ := hran hrun
      obtain ⟨hlineage, hcontents⟩ :=
        hgrows.undone (u := v.withSession s') hbegin
          (Journaled.kept_commit hcommit) (Backed.commit_eq_error hcommit)
          (.failed f)
      exact ⟨[], failures, hlineage.trans (List.append_nil _).symm,
        .of_eq hcontents.symm, hfailures, fun made _ => hnone⟩
  | @committed s s' a v hbegin hrun hcommit =>
      obtain ⟨gained, failures, hgrows, hfailures, hmade⟩ := hran hrun
      obtain ⟨hlineage, hleads⟩ := hgrows.committed hbegin hcommit
      refine ⟨gained, failures, hlineage, hleads, hfailures,
        fun made hmem => ⟨?_, ?_⟩⟩
      · intro hapart
        right
        exact List.eq_nil_iff_forall_not_mem.mpr fun e he =>
          hapart e he ((hmade made hmem).subset he)
      · rintro (hok | rfl)
        · cases hok
        · exact fun e he => by cases he

end Programs

def journalWithTables : World (Journaled Database) (Notes Unit) :=
  (Identity.adapter.createScheme.exec
    { store := Store.ofSession { inner := {} } {}
      memory := { own := () } }).2

/-- The work of a write that saves a new identity and one whose row is missing,
and goes on when that fails. -/
def saveAndGoOn : Action (Journaled Database) (Notes Unit) Unit := do
  let _ ← noting (·.outcome.isOk) (Script.Subject.identity.adapter.save
    [{ name := "ada" }, { ident := ⟨some ⟨999, by decide⟩⟩, name := "grace" }])
  return ()

theorem saveAndGoOn_program : Program Callwork saveAndGoOn :=
  .andThen (.basic (.save .identity _)) fun _ => .done ()

theorem lineage_after_saveAndGoOn :
    journalWithTables.store.writing = false ∧
      ∃ gained failures,
        ((Store.write "save_all" "identity" saveAndGoOn).exec
          journalWithTables).2.lineage = journalWithTables.lineage ++ gained ∧
        Leads journalWithTables.contents gained
          ((Store.write "save_all" "identity" saveAndGoOn).exec
            journalWithTables).2.contents ∧
        ((Store.write "save_all" "identity" saveAndGoOn).exec
          journalWithTables).2.memory.failures =
          journalWithTables.memory.failures ++ failures ∧
        ∀ made ∈ failures, (∀ e ∈ made, e ∉ gained) ↔
          ((Store.write "save_all" "identity" saveAndGoOn).exec
            journalWithTables).1.isOk = false ∨ made = [] := by
  have houtermost : journalWithTables.store.writing = false := by decide +kernel
  exact ⟨houtermost, lineage_after_write saveAndGoOn_program "save_all"
    "identity" houtermost⟩

/-- It is not so that an outermost write takes back what a failed batch within
it has changed: here a number was drawn from the sequence and a row inserted
before the batch failed, and both are committed. -/
theorem alterations_of_failed_batch :
    ¬ ∀ (work : Action (Journaled Database) (Notes Unit) Unit),
      Program Callwork work →
      ∀ (op entity : String) (w : World (Journaled Database) (Notes Unit)),
        w.store.writing = false →
        ∀ (gained : List Alteration) (failures : List (List Alteration)),
          ((Store.write op entity work).exec w).2.lineage =
            w.lineage ++ gained →
          ((Store.write op entity work).exec w).2.memory.failures =
            w.memory.failures ++ failures →
          ∀ made ∈ failures, ∀ e ∈ made, e ∉ gained := by
  intro hclaim
  have houtermost : journalWithTables.store.writing = false := by decide +kernel
  have hclaim := hclaim saveAndGoOn saveAndGoOn_program "save_all" "identity"
    journalWithTables houtermost
  have hfailures : journalWithTables.memory.failures = [] := by decide +kernel
  have hlineage : ((Store.write "save_all" "identity"
      saveAndGoOn).exec journalWithTables).2.lineage =
        journalWithTables.lineage ++ ((Store.write "save_all" "identity"
          saveAndGoOn).exec journalWithTables).2.lineage.drop
            journalWithTables.lineage.length := by
    decide +kernel
  have hthere : ∃ made ∈ ((Store.write "save_all" "identity"
      saveAndGoOn).exec journalWithTables).2.memory.failures,
        ∃ e ∈ made, e ∈ ((Store.write "save_all" "identity"
          saveAndGoOn).exec journalWithTables).2.lineage.drop
            journalWithTables.lineage.length := by
    decide +kernel
  generalize (Store.write "save_all" "identity" saveAndGoOn).exec
    journalWithTables = after at *
  rw [hfailures] at hclaim
  obtain ⟨made, hmade, e, he, hgained⟩ := hthere
  exact hclaim _ _ hlineage rfl made hmade e he hgained

example : journalWithTables.contents.cells? "identities" 1 = none ∧
    (((Store.write "save_all" "identity" saveAndGoOn).exec
      journalWithTables).2.contents.cells? "identities" 1).isSome = true := by
  decide +kernel

end Annals
