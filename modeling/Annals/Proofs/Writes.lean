import Annals.Proofs.Execution

namespace Annals.Store

open Annals.Log

variable {σ ω α : Type}

def openingEvent (op entity : String) : Event :=
  .started writeComponent op [(Detail.entity.name, entity)]

/-- The event with which a write ends; there is none if its work is given up. -/
def closingEvent (op entity : String) : Except Stop α → List Event
  | .ok _ => [.finished writeComponent op [(Detail.entity.name, entity)]]
  | .error (.failed f) =>
    [.failed writeComponent op f [(Detail.entity.name, entity)]]
  | .error .abandoned => []

/-- The world in which an outermost write begins its transaction. -/
def opened (op entity : String) (w : World σ ω) : World σ ω :=
  (w.noting [openingEvent op entity]).withWriting true

/-- The world in which the work of an outermost write is done, given what the
session has become by beginning the transaction. -/
def entered (op entity : String) (s : σ) (w : World σ ω) : World σ ω :=
  (opened op entity w).withSession s

def left (op entity : String) (outcome : Except Stop α)
    (w : World σ ω) : World σ ω :=
  (w.withWriting false).noting (closingEvent op entity outcome)

@[simp] theorem opened_session (op entity : String) (w : World σ ω) :
    (opened op entity w).store.session = w.store.session := rfl

@[simp] theorem left_session (op entity : String) (outcome : Except Stop α)
    (w : World σ ω) :
    (left op entity outcome w).store.session = w.store.session := rfl

/-- The failure for whose sake a transaction is undone. -/
def causeOf (op : String) : Stop → Failure
  | .failed f => f
  | .abandoned => givenUp op

def undoingEvents (op : String) (cause : Failure) :
    Except Failure Unit → List Event
  | .ok () => []
  | .error f => [.rollbackFailed transactionComponent op f cause]

variable [Session σ]

def undone (op : String) (stop : Stop) (w : World σ ω) : World σ ω :=
  (w.withSession (Session.rollback.run w.store.session).2).noting
    (undoingEvents op (causeOf op stop)
      (Session.rollback.run w.store.session).1)

@[simp] theorem undone_session (op : String) (stop : Stop) (w : World σ ω) :
    (undone op stop w).store.session =
      (Session.rollback.run w.store.session).2 := rfl

theorem exec_undo (op : String) (stop : Stop) (w : World σ ω) :
    (undo op (causeOf op stop) : Action σ ω Unit).exec w =
      (.ok (), undone op stop w) := by
  unfold undo undone
  rw [Action.exec_bind_ok (Action.exec_observe _ _), exec_use]
  rcases (Session.rollback.run w.store.session : Except Failure Unit × σ)
    with ⟨f | _, s⟩
  · rfl
  · rw [undoingEvents, World.noting_nil]
    rfl

theorem exec_write (op entity : String) (work : Action σ ω α) (w : World σ ω) :
    (write op entity work).exec w =
      (((joinOrTransact op work).exec (w.noting [openingEvent op entity])).1,
        ((joinOrTransact op work).exec
          (w.noting [openingEvent op entity])).2.noting (closingEvent op entity
            ((joinOrTransact op work).exec
              (w.noting [openingEvent op entity])).1)) := by
  unfold write
  rw [Action.exec_bind_ok (exec_report _ _),
    Action.exec_bind_ok (Action.exec_observe _ _),
    show Event.started writeComponent op [(Detail.entity.name, entity)] =
      openingEvent op entity from rfl]
  rcases (joinOrTransact op work).exec (w.noting [openingEvent op entity])
    with ⟨(f | _) | a, w'⟩
  · rfl
  · simp [closingEvent, World.noting_nil]
  · rfl

theorem exec_write_within (op entity : String) (work : Action σ ω α)
    {w : World σ ω} (hwithin : w.store.writing = true) :
    (write op entity work).exec w =
      ((work.exec (w.noting [openingEvent op entity])).1,
        (work.exec (w.noting [openingEvent op entity])).2.noting
          (closingEvent op entity
            (work.exec (w.noting [openingEvent op entity])).1)) := by
  have hjoin : (joinOrTransact op work).exec
      (w.noting [openingEvent op entity]) =
      work.exec (w.noting [openingEvent op entity]) := by
    unfold joinOrTransact
    rw [Action.exec_bind_ok (exec_see _ _), World.noting_writing, hwithin]
    rfl
  rw [exec_write, hjoin]

/-- What an outermost write with some work leads to from a world. -/
inductive Outermost (op entity : String) (work : Action σ ω α) (w : World σ ω) :
    Except Stop α × World σ ω → Prop where
  | refused {f : Failure} {s : σ}
      (hbegin : Session.beginTransaction.run w.store.session = (.error f, s)) :
      Outermost op entity work w
        (.error (.failed f), left op entity (.error (.failed f) : Except Stop α)
          (entered op entity s w))
  | stopped {s : σ} {stop : Stop} {w' : World σ ω}
      (hbegin : Session.beginTransaction.run w.store.session = (.ok (), s))
      (hwork : work.exec (entered op entity s w) = (.error stop, w')) :
      Outermost op entity work w
        (.error stop, left op entity (.error stop : Except Stop α)
          (undone op stop w'))
  | uncommitted {s s' : σ} {a : α} {f : Failure} {w' : World σ ω}
      (hbegin : Session.beginTransaction.run w.store.session = (.ok (), s))
      (hwork : work.exec (entered op entity s w) = (.ok a, w'))
      (hcommit : Session.commit.run w'.store.session = (.error f, s')) :
      Outermost op entity work w
        (.error (.failed f), left op entity (.error (.failed f) : Except Stop α)
          (undone op (.failed f) (w'.withSession s')))
  | committed {s s' : σ} {a : α} {w' : World σ ω}
      (hbegin : Session.beginTransaction.run w.store.session = (.ok (), s))
      (hwork : work.exec (entered op entity s w) = (.ok a, w'))
      (hcommit : Session.commit.run w'.store.session = (.ok (), s')) :
      Outermost op entity work w
        (.ok a, left op entity (.ok a) (w'.withSession s'))

theorem exec_transact_refused (op : String) (work : Action σ ω α)
    {w : World σ ω} {f : Failure} {s : σ}
    (hbegin : Session.beginTransaction.run w.store.session = (.error f, s)) :
    (transact op work).exec w = (.error (.failed f), w.withSession s) := by
  unfold transact
  apply Action.exec_bind_error
  rw [exec_use, hbegin]
  rfl

theorem exec_transact_begun (op : String) (work : Action σ ω α)
    {w : World σ ω} {s : σ}
    (hbegin : Session.beginTransaction.run w.store.session = (.ok (), s)) :
    (transact op work).exec w =
      match (do let a ← work; use Session.commit; return a : Action σ ω α).exec
        (w.withSession s) with
      | (.ok a, w') => (.ok a, w')
      | (.error stop, w') => (.error stop, undone op stop w') := by
  have huse : (use Session.beginTransaction : Action σ ω Unit).exec w =
      (.ok (), w.withSession s) := by
    rw [exec_use, hbegin]
    rfl
  unfold transact
  rw [Action.exec_bind_ok huse, Action.exec_bind_ok (Action.exec_observe _ _)]
  rcases (do let a ← work; use Session.commit; return a : Action σ ω α).exec
    (w.withSession s) with ⟨(f | _) | a, w'⟩
  · exact Action.exec_bind_ok (exec_undo op (.failed f) w') _
  · exact Action.exec_bind_ok (exec_undo op .abandoned w') _
  · rfl

theorem exec_transact_stopped {op : String} {work : Action σ ω α}
    {w w' : World σ ω} {s : σ} {stop : Stop}
    (hbegin : Session.beginTransaction.run w.store.session = (.ok (), s))
    (hwork : work.exec (w.withSession s) = (.error stop, w')) :
    (transact op work).exec w = (.error stop, undone op stop w') := by
  rw [exec_transact_begun op work hbegin, Action.exec_bind_error hwork]

theorem exec_transact_uncommitted {op : String} {work : Action σ ω α}
    {w w' : World σ ω} {s s' : σ} {a : α} {f : Failure}
    (hbegin : Session.beginTransaction.run w.store.session = (.ok (), s))
    (hwork : work.exec (w.withSession s) = (.ok a, w'))
    (hcommit : Session.commit.run w'.store.session = (.error f, s')) :
    (transact op work).exec w =
      (.error (.failed f), undone op (.failed f) (w'.withSession s')) := by
  have huse : (use Session.commit : Action σ ω Unit).exec w' =
      (.error (.failed f), w'.withSession s') := by
    rw [exec_use, hcommit]
    rfl
  rw [exec_transact_begun op work hbegin, Action.exec_bind_ok hwork,
    Action.exec_bind_error huse]

theorem exec_transact_committed {op : String} {work : Action σ ω α}
    {w w' : World σ ω} {s s' : σ} {a : α}
    (hbegin : Session.beginTransaction.run w.store.session = (.ok (), s))
    (hwork : work.exec (w.withSession s) = (.ok a, w'))
    (hcommit : Session.commit.run w'.store.session = (.ok (), s')) :
    (transact op work).exec w = (.ok a, w'.withSession s') := by
  have huse : (use Session.commit : Action σ ω Unit).exec w' =
      (.ok (), w'.withSession s') := by
    rw [exec_use, hcommit]
    rfl
  rw [exec_transact_begun op work hbegin, Action.exec_bind_ok hwork,
    Action.exec_bind_ok huse]
  rfl

theorem exec_write_outermost (op entity : String) (work : Action σ ω α)
    {w : World σ ω} (houtermost : w.store.writing = false) :
    (write op entity work).exec w =
      (((transact op work).exec (opened op entity w)).1,
        left op entity ((transact op work).exec (opened op entity w)).1
          ((transact op work).exec (opened op entity w)).2) := by
  have hjoin : (joinOrTransact op work).exec
      (w.noting [openingEvent op entity]) =
      (((transact op work).exec (opened op entity w)).1,
        ((transact op work).exec (opened op entity w)).2.withWriting
          false) := by
    unfold joinOrTransact
    rw [Action.exec_bind_ok (exec_see _ _), World.noting_writing, houtermost]
    exact (Action.exec_bind_ok (exec_change _ _) _).trans
      ((Action.exec_bind_ok (Action.exec_observe _ _) _).trans
        ((Action.exec_bind_ok (exec_change _ _) _).trans
          (Action.exec_ofOutcome _ _)))
  rw [exec_write, hjoin]
  rfl

theorem exec_write_stopped {op entity : String} {work : Action σ ω α}
    {w w' : World σ ω} {s : σ} {stop : Stop}
    (houtermost : w.store.writing = false)
    (hbegin : Session.beginTransaction.run w.store.session = (.ok (), s))
    (hwork : work.exec (entered op entity s w) = (.error stop, w')) :
    (write op entity work).exec w =
      (.error stop, left op entity (.error stop : Except Stop α)
        (undone op stop w')) := by
  have hstopped : (transact op work).exec (opened op entity w) =
      (.error stop, undone op stop w') :=
    exec_transact_stopped hbegin hwork
  rw [exec_write_outermost op entity work houtermost, hstopped]

theorem exec_write_committed {op entity : String} {work : Action σ ω α}
    {w w' : World σ ω} {s s' : σ} {a : α} (houtermost : w.store.writing = false)
    (hbegin : Session.beginTransaction.run w.store.session = (.ok (), s))
    (hwork : work.exec (entered op entity s w) = (.ok a, w'))
    (hcommit : Session.commit.run w'.store.session = (.ok (), s')) :
    (write op entity work).exec w =
      (.ok a, left op entity (.ok a : Except Stop α) (w'.withSession s')) := by
  have hcommitted : (transact op work).exec (opened op entity w) =
      (.ok a, w'.withSession s') :=
    exec_transact_committed hbegin hwork hcommit
  rw [exec_write_outermost op entity work houtermost, hcommitted]

theorem exec_write_refused {op entity : String} (work : Action σ ω α)
    {w : World σ ω} {s : σ} {f : Failure} (houtermost : w.store.writing = false)
    (hbegin : Session.beginTransaction.run w.store.session = (.error f, s)) :
    (write op entity work).exec w =
      (.error (.failed f),
        left op entity (.error (.failed f) : Except Stop α)
          (entered op entity s w)) := by
  have hrefused : (transact op work).exec (opened op entity w) =
      (.error (.failed f), entered op entity s w) :=
    exec_transact_refused op work hbegin
  rw [exec_write_outermost op entity work houtermost, hrefused]

theorem exec_write_uncommitted {op entity : String} {work : Action σ ω α}
    {w w' : World σ ω} {s s' : σ} {a : α} {f : Failure}
    (houtermost : w.store.writing = false)
    (hbegin : Session.beginTransaction.run w.store.session = (.ok (), s))
    (hwork : work.exec (entered op entity s w) = (.ok a, w'))
    (hcommit : Session.commit.run w'.store.session = (.error f, s')) :
    (write op entity work).exec w =
      (.error (.failed f), left op entity (.error (.failed f) : Except Stop α)
        (undone op (.failed f) (w'.withSession s'))) := by
  have huncommitted : (transact op work).exec (opened op entity w) =
      (.error (.failed f), undone op (.failed f) (w'.withSession s')) :=
    exec_transact_uncommitted hbegin hwork hcommit
  rw [exec_write_outermost op entity work houtermost, huncommitted]

/-- Every outermost write ends in one of four ways. -/
theorem write_outermost (op entity : String) (work : Action σ ω α)
    {w : World σ ω} (houtermost : w.store.writing = false) :
    Outermost op entity work w ((write op entity work).exec w) := by
  rw [exec_write_outermost op entity work houtermost]
  rcases hbegin :
    (Session.beginTransaction.run (opened op entity w).store.session :
    Except Failure Unit × σ) with ⟨f | _, s⟩
  · rw [exec_transact_refused op work hbegin]
    exact .refused hbegin
  rcases hwork : work.exec ((opened op entity w).withSession s)
    with ⟨stop | a, w'⟩
  · rw [exec_transact_stopped hbegin hwork]
    exact .stopped hbegin hwork
  rcases hcommit : (Session.commit.run w'.store.session :
    Except Failure Unit × σ) with ⟨f | _, s'⟩
  · rw [exec_transact_uncommitted hbegin hwork hcommit]
    exact .uncommitted hbegin hwork hcommit
  · rw [exec_transact_committed hbegin hwork hcommit]
    exact .committed hbegin hwork hcommit

theorem work_of_write_ok {op entity : String} {work : Action σ ω α}
    {w w' : World σ ω} {a : α}
    (h : (write op entity work).exec w = (.ok a, w')) : ∃ u v,
      work.exec u = (.ok a, v) := by
  cases hwriting : w.store.writing with
  | true =>
      rw [exec_write_within op entity work hwriting] at h
      exact ⟨_, _, Prod.ext (Prod.mk.inj h).1 rfl⟩
  | false =>
      have houtermost := write_outermost op entity work hwriting
      rw [h] at houtermost
      cases houtermost with
      | committed _ hwork _ => exact ⟨_, _, hwork⟩

end Annals.Store
