import Annals.Proofs.Programs
import Annals.Session.Canned

namespace Annals

open Annals.Log Annals.Sql Annals.Stream

variable {σ ω α : Type}

inductive Control where
  | began (ok : Bool)
  | committed (ok : Bool)
  | undone (ok : Bool)
  deriving DecidableEq, Repr

namespace Control

/-- Whether a transaction is open after some calls, given whether one was open
before them.  It is over once it was to be undone, even if that failed.  There
is no answer if a transaction was to begin while another one was open. -/
def openAfter : Bool → List Control → Option Bool
  | isOpen, [] => some isOpen
  | true, began _ :: _ => none
  | false, began ok :: rest => openAfter ok rest
  | isOpen, committed ok :: rest => openAfter (isOpen && !ok) rest
  | _, undone _ :: rest => openAfter false rest

theorem openAfter_append (isOpen : Bool) (cs ds : List Control) :
    openAfter isOpen (cs ++ ds) = (openAfter isOpen cs).bind fun b =>
      openAfter b ds := by
  fun_induction openAfter isOpen cs with
  | case1 isOpen => rfl
  | case2 ok rest => rfl
  | case3 ok rest ih => exact ih
  | case4 isOpen ok rest ih => simpa [openAfter] using ih
  | case5 isOpen ok rest ih => simpa [openAfter] using ih

end Control

/-- The calls that one outermost write makes. -/
inductive Bracket : List Control → Prop where
  | refused : Bracket [.began false]
  | stopped (ok : Bool) : Bracket [.began true, .undone ok]
  | uncommitted (ok : Bool) :
      Bracket [.began true, .committed false, .undone ok]
  | committed : Bracket [.began true, .committed true]

theorem Bracket.openAfter_eq {b : List Control} (h : Bracket b) :
    Control.openAfter false b = some false := by
  cases h <;> rfl

theorem Bracket.openAfter_flatten {bs : List (List Control)}
    (h : ∀ b ∈ bs, Bracket b) :
    Control.openAfter false bs.flatten = some false := by
  induction bs with
  | nil => rfl
  | cons b bs ih =>
      rw [List.flatten_cons, Control.openAfter_append,
        (h b List.mem_cons_self).openAfter_eq]
      exact ih fun c hc => h c (List.mem_cons_of_mem b hc)

/-- A session with the calls so far that begin or end transactions. -/
structure Watched (σ : Type) where
  inner : σ
  controls : List Control := []

namespace Watched

def pass (access : Access σ α) : Access (Watched σ) α :=
  ExceptT.mk fun s =>
    let (outcome, inner) := access.run s.inner
    (outcome, { s with inner })

def passNoting (control : Bool → Control) (access : Access σ α) :
    Access (Watched σ) α :=
  ExceptT.mk fun s =>
    let (outcome, inner) := access.run s.inner
    (outcome, { inner, controls := s.controls ++ [control outcome.toBool] })

instance [Session σ] : Session (Watched σ) where
  dialect s := Session.dialect s.inner
  execute statement params := pass (Session.execute statement params)
  query statement params := pass (Session.query statement params)
  beginTransaction := passNoting .began Session.beginTransaction
  commit := passNoting .committed Session.commit
  rollback := passNoting .undone Session.rollback
  close := pass Session.close
  hold s := { s with inner := Session.hold s.inner }
  release s := { s with inner := Session.release s.inner }
  resume statement params trail now rest :=
    Session.resume statement params (trail.map fun (s, count) =>
      (s.inner, count)) now.inner rest

theorem run_passNoting {control : Bool → Control} {access : Access σ α}
    {s s' : Watched σ} {outcome : Except Failure α}
    (h : (passNoting control access).run s = (outcome, s')) :
    ∃ inner, access.run s.inner = (outcome, inner) ∧
      s' = { inner, controls := s.controls ++ [control outcome.toBool] } := by
  cases h
  exact ⟨_, rfl, rfl⟩

theorem controls_rollback [Session σ] (s : Watched σ) :
    ∃ ok, ((Session.rollback.run s).2 : Watched σ).controls = s.controls ++
      [.undone ok] :=
  ⟨_, rfl⟩

end Watched

/-- How an outermost write with some work may end, given the world before it:
with which calls that begin and end transactions, and with which outcome.  The
outcome does not depend on whether the transaction could be undone. -/
inductive Disciplined [Session σ] (op entity : String)
    (work : Action (Watched σ) ω α) (w : World (Watched σ) ω) :
    Except Stop α × World (Watched σ) ω → Prop where
  /-- No transaction could be begun.  The work has not been done. -/
  | refused {f : Failure} {s : σ} {v : World (Watched σ) ω}
      (hbegin : Session.beginTransaction.run w.store.session.inner =
        (.error f, s)) (hmemory : v.memory = w.memory)
      (hsession : v.store.session =
        { inner := s, controls := w.store.session.controls ++
          [.began false] }) :
      Disciplined op entity work w (.error (.failed f), v)
  /-- The work has failed or was given up. -/
  | stopped {s : σ} {stop : Stop} {v w' : World (Watched σ) ω} (ok : Bool)
      (hbegin : Session.beginTransaction.run w.store.session.inner =
        (.ok (), s)) (hwork : work.exec (Store.entered op entity
        { inner := s, controls := w.store.session.controls ++
          [.began true] } w) = (.error stop, w'))
      (hcontrols : v.store.session.controls =
        w.store.session.controls ++ [.began true, .undone ok]) :
      Disciplined op entity work w (.error stop, v)
  /-- The transaction could not be committed. -/
  | uncommitted {s s' : σ} {a : α} {f : Failure} {v w' : World (Watched σ) ω}
      (ok : Bool) (hbegin : Session.beginTransaction.run w.store.session.inner =
        (.ok (), s)) (hwork : work.exec (Store.entered op entity
        { inner := s, controls := w.store.session.controls ++ [.began true] }
          w) = (.ok a, w'))
      (hcommit : Session.commit.run w'.store.session.inner = (.error f, s'))
      (hcontrols : v.store.session.controls =
        w.store.session.controls ++
          [.began true, .committed false, .undone ok]) :
      Disciplined op entity work w (.error (.failed f), v)
  /-- The transaction has been committed. -/
  | committed {s s' : σ} {a : α} {v w' : World (Watched σ) ω}
      (hbegin : Session.beginTransaction.run w.store.session.inner =
        (.ok (), s)) (hwork : work.exec (Store.entered op entity
        { inner := s, controls := w.store.session.controls ++ [.began true] }
          w) = (.ok a, w'))
      (hcommit : Session.commit.run w'.store.session.inner = (.ok (), s'))
      (hcontrols : v.store.session.controls =
        w.store.session.controls ++ [.began true, .committed true]) :
      Disciplined op entity work w (.ok a, v)

theorem Disciplined.bracket [Session σ] {op entity : String}
    {work : Action (Watched σ) ω α} {w : World (Watched σ) ω}
    {after : Except Stop α × World (Watched σ) ω}
    (h : Disciplined op entity work w after) :
    ∃ b, Bracket b ∧
      after.2.store.session.controls = w.store.session.controls ++ b := by
  cases h with
  | refused _ _ hsession => exact ⟨_, .refused, by rw [hsession]⟩
  | stopped ok _ _ hcontrols => exact ⟨_, .stopped ok, hcontrols⟩
  | uncommitted ok _ _ _ hcontrols => exact ⟨_, .uncommitted ok, hcontrols⟩
  | committed _ _ _ hcontrols => exact ⟨_, .committed, hcontrols⟩

namespace Program

variable [Session σ] {allowed : Statement → Prop}

theorem elementary_controls {m : Action (Watched σ) ω α}
    (h : Elementary allowed α m) (w : World (Watched σ) ω) :
    (m.exec w).2.store.session.controls = w.store.session.controls := by
  cases h with
  | plain h => cases h <;> rfl
  | remember f => rfl

/-- Within a write a program makes no call that begins or ends a transaction. -/
theorem controls_within {m : Action (Watched σ) ω α}
    (h : Program (Elementary allowed) m) (w : World (Watched σ) ω)
    (hwithin : w.store.writing = true) :
    (m.exec w).2.store.writing = true ∧
      (m.exec w).2.store.session.controls = w.store.session.controls :=
  h.keeps_within
    (R := fun u v : World (Watched σ) ω => v.store.session.controls =
      u.store.session.controls)
    (fun _ => rfl) (fun huv hvx => hvx.trans huv) (fun _ _ => rfl)
    (fun hm u hu => ⟨(hm.writing u).trans hu, elementary_controls hm u⟩)
      w hwithin

theorem write_disciplined (op entity : String) {work : Action (Watched σ) ω α}
    (hwork : Program (Elementary allowed) work) {w : World (Watched σ) ω}
    (houtermost : w.store.writing = false) :
    ((Store.write op entity work).exec w).2.store.writing = false ∧
      Disciplined op entity work w ((Store.write op entity work).exec w) := by
  have h := Store.write_outermost op entity work houtermost
  generalize (Store.write op entity work).exec w = after at h
  -- the work itself makes no call that begins or ends a transaction
  have hkept :
      ∀ (begun : Watched σ) {outcome : Except Stop α}
        {w' : World (Watched σ) ω},
      work.exec (Store.entered op entity begun w) = (outcome, w') →
        w'.store.session.controls = begun.controls := by
    intro begun outcome w' hrun
    have hcontrols :=
      (hwork.controls_within (Store.entered op entity begun w) rfl).2
    rwa [hrun] at hcontrols
  cases h with
  | refused hbegin =>
      obtain ⟨s, hinner, rfl⟩ := Watched.run_passNoting hbegin
      exact ⟨rfl, .refused hinner rfl rfl⟩
  | @stopped _ stop w' hbegin hrun =>
      obtain ⟨s, hinner, rfl⟩ := Watched.run_passNoting hbegin
      obtain ⟨ok, hundone⟩ := Watched.controls_rollback w'.store.session
      refine ⟨rfl, .stopped ok hinner hrun ?_⟩
      rw [Store.left_session, Store.undone_session, hundone, hkept _ hrun,
        List.append_assoc]
      rfl
  | @uncommitted _ _ _ f w' hbegin hrun hcommit =>
      obtain ⟨s, hinner, rfl⟩ := Watched.run_passNoting hbegin
      obtain ⟨s', hended, rfl⟩ := Watched.run_passNoting hcommit
      obtain ⟨ok, hundone⟩ := Watched.controls_rollback
        { inner := s', controls := w'.store.session.controls ++
          [.committed false] }
      refine ⟨rfl, .uncommitted ok hinner hrun hended ?_⟩
      refine hundone.trans ?_
      rw [hkept _ hrun, List.append_assoc, List.append_assoc]
      rfl
  | @committed _ _ _ w' hbegin hrun hcommit =>
      obtain ⟨s, hinner, rfl⟩ := Watched.run_passNoting hbegin
      obtain ⟨s', hended, rfl⟩ := Watched.run_passNoting hcommit
      refine ⟨rfl, .committed hinner hrun hended ?_⟩
      change w'.store.session.controls ++ _ = _
      rw [hkept _ hrun, List.append_assoc]
      rfl

/-- Outside of writes a program makes one bracket of calls after the other, and
leaves no transaction under way. -/
theorem brackets_outside {m : Action (Watched σ) ω α}
    (h : Program (Elementary allowed) m) (w : World (Watched σ) ω)
    (houtside : w.store.writing = false) :
    (m.exec w).2.store.writing = false ∧
      ∃ bs : List (List Control), (∀ b ∈ bs, Bracket b) ∧
        (m.exec w).2.store.session.controls = w.store.session.controls ++
          bs.flatten := by
  refine h.keeps (R := fun u v : World (Watched σ) ω =>
    u.store.writing = false →
      v.store.writing = false ∧ ∃ bs : List (List Control),
        (∀ b ∈ bs, Bracket b) ∧
        v.store.session.controls = u.store.session.controls ++ bs.flatten) ?_ ?_
          ?_ ?_ w houtside
  · intro u hu
    exact ⟨hu, [], by simp, by simp⟩
  · intro u v x huv hvx hu
    obtain ⟨hv, bs, hbs, hcontrols⟩ := huv hu
    obtain ⟨hx, cs, hcs, hcontrols'⟩ := hvx hv
    refine ⟨hx, bs ++ cs, ?_, ?_⟩
    · intro b hb
      exact (List.mem_append.mp hb).elim (hbs b) (hcs b)
    · rw [hcontrols', hcontrols, List.flatten_append, List.append_assoc]
  · intro _ m hm u hu
    exact ⟨(hm.writing u).trans hu,
      [], by simp, by simpa using elementary_controls hm u⟩
  · intro op entity _ m hm _ u hu
    obtain ⟨hwriting, hdisciplined⟩ := write_disciplined op entity hm hu
    obtain ⟨b, hb, hcontrols⟩ := hdisciplined.bracket
    exact ⟨hwriting, [b], by simpa using hb, by simpa using hcontrols⟩

end Program

/-- Transactions of programs of any depth, on any session.  An outermost write
of a program is disciplined, a write within a write makes no call that begins or
ends a transaction and has the outcome of its work, and a whole program makes
one bracket after the other.  However it ends, no transaction is under way then,
and none has begun while another one was open. -/
theorem Program.transactions [Session σ] {allowed : Statement → Prop}
    {work : Action (Watched σ) ω α}
    (hwork : Program (Elementary allowed) work) :
    (∀ (op entity : String) (w : World (Watched σ) ω), w.store.writing = false →
      ((Store.write op entity work).exec w).2.store.writing = false ∧
        Disciplined op entity work w ((Store.write op entity work).exec w)) ∧
    (∀ (op entity : String) (w : World (Watched σ) ω), w.store.writing = true →
      ((Store.write op entity work).exec w).1 =
          (work.exec (w.noting [Store.openingEvent op entity])).1 ∧
        ((Store.write op entity work).exec w).2.store.writing = true ∧
        ((Store.write op entity work).exec w).2.store.session.controls =
          w.store.session.controls) ∧
    ∀ w : World (Watched σ) ω, w.store.writing = false →
      (work.exec w).2.store.writing = false ∧
        ∃ bs : List (List Control), (∀ b ∈ bs, Bracket b) ∧
          (work.exec w).2.store.session.controls = w.store.session.controls ++
            bs.flatten ∧
          Control.openAfter false bs.flatten = some false := by
  refine ⟨?_, ?_, ?_⟩
  · intro op entity w houtermost
    exact write_disciplined op entity hwork houtermost
  · intro op entity w hwithin
    obtain ⟨hwriting, hcontrols⟩ :=
      (Program.write op entity hwork).controls_within w hwithin
    refine ⟨?_, hwriting, hcontrols⟩
    rw [Store.exec_write_within op entity work hwithin]
  · intro w houtside
    obtain ⟨hwriting, bs, hbs, hcontrols⟩ := hwork.brackets_outside w houtside
    exact ⟨hwriting, bs, hbs, hcontrols, Bracket.openAfter_flatten hbs⟩

/-- A write whose work swallows the failure of a write within it, and is given
up in the end. -/
def swallowing : Action (Watched Canned) Nat Unit := do
  let _ ← Action.observe (Store.write "update" "commit" (do
    let _ ← Store.execute (.update commits) []
    Action.fail (Failure.backend "refused") : Action (Watched Canned) Nat Unit))
  Action.remember fun n => ((), n + 1)
  throw .abandoned

theorem swallowing_program : Program (Elementary AdapterStatement) swallowing :=
  have hupdate : AdapterStatement (.update commits) :=
    .update .commit (List.mem_singleton.mpr rfl)
  .andThen
    (.attempt
      (.write _ _ (.andThen (.basic (.plain (.execute hupdate _)))
        fun _ => .fail _)))
    fun _ => .andThen (.basic (.remember _)) fun _ => .abandon

def unprepared : World (Watched Canned) Nat :=
  { store := Store.ofSession { inner := { dialect := .sqlite } } {},
    memory := 0 }

theorem transactions_swallowing :
    unprepared.store.writing = false ∧
      ((Store.write "save" "commit" swallowing).exec
        unprepared).2.store.writing = false ∧
      Disciplined "save" "commit" swallowing unprepared
        ((Store.write "save" "commit" swallowing).exec unprepared) :=
  ⟨rfl, (Program.transactions swallowing_program).1 "save" "commit"
    unprepared rfl⟩

example : ((Store.write "save" "commit" swallowing).exec
    unprepared).2.store.session.controls = [.began true, .undone true] := rfl

end Annals
