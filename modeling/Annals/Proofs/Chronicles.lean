import Annals.Proofs.Transactions

/-!
The chronicle of a program is the tree of its writes, each with how it went.
The events of a program are those of its chronicle: a write opens, the events of
its work come, and it is closed with its outcome.
-/

namespace Annals

open Annals.Log Annals.Sql

variable {σ ω α β : Type}

theorem World.noting_events (w : World σ ω) (es : List Event) :
    (w.noting es).store.events = w.store.events ++ es := rfl

theorem World.withSession_events (w : World σ ω) (s : σ) :
    (w.withSession s).store.events = w.store.events := rfl

namespace Store

theorem left_events (op entity : String) (outcome : Except Stop α)
    (w : World σ ω) :
    (left op entity outcome w).store.events = w.store.events ++ closingEvent op
      entity outcome := rfl

theorem entered_events (op entity : String) (s : σ) (w : World σ ω) :
    (entered op entity s w).store.events = w.store.events ++
      [openingEvent op entity] := rfl

theorem undone_events [Session σ] (op : String) (stop : Stop) (w : World σ ω) :
    (undone op stop w).store.events = w.store.events ++
      undoingEvents op (causeOf op stop)
        (Session.rollback.run w.store.session).1 := rfl

theorem closingEvent_discard (op entity : String) (outcome : Except Stop α) :
    closingEvent op entity (outcome.map fun _ => ()) = closingEvent op entity
      outcome := by
  rcases outcome with (f | _) | a <;> rfl

end Store

theorem Elementary.outcome_ne [Session σ] {allowed : Statement → Prop}
    {m : Action σ ω α} (h : Elementary allowed α m) (w : World σ ω) :
    (m.exec w).1 ≠ .error .abandoned := by
  have huse {β : Type} (access : Access σ β) :
      ((Store.use access : Action σ ω β).exec w).1 ≠ .error .abandoned := by
    rw [Store.exec_use]
    rcases (access.run w.store.session).1 with f | b <;> exact fun hstop => by
      cases hstop
  cases h with
  | plain h =>
      cases h with
      | execute _ params => exact huse _
      | query _ params => exact huse _
      | see f => exact fun hstop => by cases hstop
      | skip _ _ _ _ _ => exact fun hstop => by cases hstop
      | hold => exact fun hstop => by cases hstop
      | release => exact fun hstop => by cases hstop
  | remember f => exact fun hstop => by cases hstop

namespace Log

def Event.subject (e : Event) : String × Option String :=
  (e.operation, e.details.lookup Detail.entity.name)

/-- The next event tells that the operation has failed, with the failure that is
given as the cause. -/
def Event.causedBy (e : Event) : List Event → Bool
  | [] => false
  | next :: _ => next.stage == .failed && next.operation == e.operation &&
      next.details.lookup messageName == e.details.lookup "cause"

/-- The operations that are under way after some events, the innermost first,
given those that were under way before.  There is no answer if an event closes
another operation than the innermost, or none, or if a transaction could not be
undone and the outermost operation is not about to be closed for that. -/
def underWay : List (String × Option String) → List Event →
    Option (List (String × Option String))
  | stack, [] => some stack
  | stack, e :: rest =>
    match e.stage, stack with
    | .start, _ => underWay (e.subject :: stack) rest
    | .skipped, _ => underWay stack rest
    | .done, innermost :: outer | .failed, innermost :: outer =>
      if innermost = e.subject then underWay outer rest else none
    | .rollbackFailed, [_] =>
      if e.causedBy rest then underWay stack rest else none
    | _, _ => none

end Log

/-- How a write went: with which outcome, and with which answer when its
transaction was to be undone. -/
structure Course where
  op : String
  entity : String
  outcome : Except Stop Unit
  undoing : Option (Except Failure Unit) := none

namespace Course

def opening (c : Course) : Event := Store.openingEvent c.op c.entity

/-- The event of a transaction that could not be undone.  It keeps the failure
of the write. -/
def undoingEvents (c : Course) : List Event :=
  match c.undoing, c.outcome with
  | some answer, .error stop =>
    Store.undoingEvents c.op (Store.causeOf c.op stop) answer
  | _, _ => []

def closing (c : Course) : List Event :=
  Store.closingEvent c.op c.entity c.outcome

def endings (c : Course) : List Event := c.undoingEvents ++ c.closing

end Course

/-- What happens in a program, as far as its log shows it: something is skipped,
or there is a write with what happens in it.  Where something is given up there
is no event, but it has its place. -/
inductive Chronicle where
  | nil
  | skip (component op entity : String) (id : Int64) (message : String)
      (rest : Chronicle)
  | givenUp (rest : Chronicle)
  | write (course : Course) (work rest : Chronicle)

namespace Chronicle

def append : Chronicle → Chronicle → Chronicle
  | nil, d => d
  | skip component op entity id message rest, d =>
    skip component op entity id message (rest.append d)
  | givenUp rest, d => givenUp (rest.append d)
  | write course work rest, d => write course work (rest.append d)

def events : Chronicle → List Event
  | nil => []
  | skip component op entity id message rest =>
    .skipped component op entity id message :: rest.events
  | givenUp rest => rest.events
  | write course work rest =>
    course.opening :: (work.events ++ course.endings) ++ rest.events

def surrenders : Chronicle → Nat
  | nil => 0
  | skip _ _ _ _ _ rest => rest.surrenders
  | givenUp rest => rest.surrenders + 1
  | write _ work rest => work.surrenders + rest.surrenders

/-- How many writes were given up, at whatever depth. -/
def unwound : Chronicle → Nat
  | nil => 0
  | skip _ _ _ _ _ rest => rest.unwound
  | givenUp rest => rest.unwound
  | write course work rest =>
    (match course.outcome with | .error .abandoned => 1 | _ => 0) +
      work.unwound + rest.unwound

/-- A write of the chronicle, at whatever depth, with what happens in it. -/
inductive Has (course : Course) (work : Chronicle) : Chronicle → Prop
  | here (rest : Chronicle) : Has course work (write course work rest)
  | within {outer : Course} {body rest : Chronicle} (h : Has course work body) :
      Has course work (write outer body rest)
  | behind {other : Course} {body rest : Chronicle} (h : Has course work rest) :
      Has course work (write other body rest)
  | behindSkip {component op entity : String} {id : Int64} {message : String}
      {rest : Chronicle} (h : Has course work rest) :
      Has course work (skip component op entity id message rest)
  | behindGivenUp {rest : Chronicle} (h : Has course work rest) :
      Has course work (givenUp rest)

/-- The run of a program has a chronicle. -/
inductive Of [Session σ] (allowed : Statement → Prop) :
    {α : Type} → Action σ ω α → World σ ω → Except Stop α × World σ ω →
    Chronicle → Prop where
  | silent {α : Type} {m : Action σ ω α} {w : World σ ω}
      (h : Elementary allowed α m)
      (hevents : (m.exec w).2.store.events = w.store.events) :
      Of allowed m w (m.exec w) nil
  | skip (component op entity : String) (id : Int64) (message : String)
      (w : World σ ω) :
      Of allowed (Store.report (.skipped component op entity id message)) w
        (.ok (), w.noting [.skipped component op entity id message])
        (skip component op entity id message nil)
  | done {α : Type} (a : α) (w : World σ ω) :
      Of allowed (pure a) w (.ok a, w) nil
  | andThen {α β : Type} {m : Action σ ω α} {k : α → Action σ ω β}
      {w w' : World σ ω} {a : α} {after : Except Stop β × World σ ω}
      {c d : Chronicle} (hm : Of allowed m w (.ok a, w') c)
      (hk : Of allowed (k a) w' after d) :
      Of allowed (m >>= k) w after (c.append d)
  | stopped {α β : Type} {m : Action σ ω α} {w w' : World σ ω} {stop : Stop}
      {c : Chronicle} (hm : Of allowed m w (.error stop, w') c)
      (k : α → Action σ ω β) :
      Of allowed (m >>= k) w (.error stop, w') c
  | fail {α : Type} (f : Failure) (w : World σ ω) :
      Of allowed (Action.fail f : Action σ ω α) w (.error (.failed f), w) nil
  | abandon {α : Type} (w : World σ ω) :
      Of allowed (throw .abandoned : Action σ ω α) w (.error .abandoned, w)
        (givenUp nil)
  | attempt {α : Type} {m : Action σ ω α} {w w' : World σ ω}
      {outcome : Except Stop α} {c : Chronicle}
      (hm : Of allowed m w (outcome, w') c) :
      Of allowed (Action.observe m) w (.ok outcome, w') c
  /-- A write within a write has the outcome of its work. -/
  | joined {α : Type} {op entity : String} {m : Action σ ω α} {w w' : World σ ω}
      {outcome : Except Stop α} {c : Chronicle}
      (hwithin : w.store.writing = true)
      (hm : Of allowed m (w.noting [Store.openingEvent op entity])
        (outcome, w') c) :
      Of allowed (Store.write op entity m) w
        (outcome, w'.noting (Store.closingEvent op entity outcome))
        (write { op, entity, outcome := outcome.map fun _ => () } c nil)
  /-- The transaction of an outermost write could not be begun. -/
  | refused {α : Type} {op entity : String} (m : Action σ ω α) {w : World σ ω}
      {f : Failure} {s : σ} (houtermost : w.store.writing = false)
      (hbegin : Session.beginTransaction.run w.store.session = (.error f, s)) :
      Of allowed (Store.write op entity m) w
        (.error (.failed f),
          Store.left op entity (.error (.failed f) : Except Stop α)
            (Store.entered op entity s w))
        (write { op, entity, outcome := .error (.failed f) } nil nil)
  /-- The work of an outermost write has stopped, and its transaction was to be
  undone. -/
  | broken {α : Type} {op entity : String} {m : Action σ ω α} {w w' : World σ ω}
      {s : σ} {stop : Stop} {c : Chronicle}
      (houtermost : w.store.writing = false)
      (hbegin : Session.beginTransaction.run w.store.session = (.ok (), s))
      (hm : Of allowed m (Store.entered op entity s w) (.error stop, w') c) :
      Of allowed (Store.write op entity m) w
        (.error stop, Store.left op entity (.error stop : Except Stop α)
          (Store.undone op stop w'))
        (write
          { op, entity, outcome := .error stop,
            undoing := some (Session.rollback.run w'.store.session).1 } c nil)
  /-- The transaction of an outermost write could not be committed, and was to
  be undone. -/
  | uncommitted {α : Type} {op entity : String} {m : Action σ ω α}
      {w w' : World σ ω} {s s' : σ} {a : α} {f : Failure} {c : Chronicle}
      (houtermost : w.store.writing = false)
      (hbegin : Session.beginTransaction.run w.store.session = (.ok (), s))
      (hm : Of allowed m (Store.entered op entity s w) (.ok a, w') c)
      (hcommit : Session.commit.run w'.store.session = (.error f, s')) :
      Of allowed (Store.write op entity m) w
        (.error (.failed f),
          Store.left op entity (.error (.failed f) : Except Stop α)
          (Store.undone op (.failed f) (w'.withSession s')))
        (write { op, entity, outcome := .error (.failed f),
                 undoing := some (Session.rollback.run s').1 } c nil)
  | committed {α : Type} {op entity : String} {m : Action σ ω α}
      {w w' : World σ ω} {s s' : σ} {a : α} {c : Chronicle}
      (houtermost : w.store.writing = false)
      (hbegin : Session.beginTransaction.run w.store.session = (.ok (), s))
      (hm : Of allowed m (Store.entered op entity s w) (.ok a, w') c)
      (hcommit : Session.commit.run w'.store.session = (.ok (), s')) :
      Of allowed (Store.write op entity m) w
        (.ok a, Store.left op entity (.ok a : Except Stop α)
          (w'.withSession s')) (write { op, entity, outcome := .ok () } c nil)

@[simp] theorem append_nil (c : Chronicle) : c.append nil = c := by
  induction c with
  | nil => rfl
  | skip _ _ _ _ _ rest ih => exact congrArg _ ih
  | givenUp rest ih => exact congrArg _ ih
  | write course work rest _ ih => exact congrArg _ ih

@[simp] theorem events_append (c d : Chronicle) :
    (c.append d).events = c.events ++ d.events := by
  induction c with
  | nil => rfl
  | skip _ _ _ _ _ rest ih => simp only [append, events, ih, List.cons_append]
  | givenUp rest ih => simp only [append, events, ih]
  | write course work rest _ ih =>
      simp only [append, events, ih, List.append_assoc]

theorem events_write {course : Course} {work : Chronicle}
    {before after : List Event}
    (h : after = before ++ [course.opening] ++ work.events ++
      course.undoingEvents ++ course.closing) :
    after = before ++ (write course work nil).events := by
  simp [h, events, Course.endings]

@[simp] theorem surrenders_append (c d : Chronicle) :
    (c.append d).surrenders = c.surrenders + d.surrenders := by
  induction c with
  | nil => exact (Nat.zero_add _).symm
  | skip _ _ _ _ _ rest ih => exact ih
  | givenUp rest ih =>
      simp only [append, surrenders, ih]
      omega
  | write course work rest _ ih =>
      simp only [append, surrenders, ih]
      omega

variable {course : Course} {work c d : Chronicle}

theorem Has.of_append (h : Has course work (c.append d)) :
    Has course work c ∨ Has course work d := by
  induction c with
  | nil => exact .inr h
  | skip _ _ _ _ _ rest ih =>
      cases h with
      | behindSkip h => exact (ih h).imp_left .behindSkip
  | givenUp rest ih =>
      cases h with
      | behindGivenUp h => exact (ih h).imp_left .behindGivenUp
  | write other body rest _ ih =>
      cases h with
      | here => exact .inl (.here rest)
      | within h => exact .inl (.within h)
      | behind h => exact (ih h).imp_left .behind

theorem Has.exists_events (h : Has course work c) :
    ∃ before after,
      c.events = before ++
        (course.opening :: (work.events ++ course.endings)) ++ after := by
  induction h with
  | here rest => exact ⟨[], rest.events, rfl⟩
  | @within outer body rest h ih =>
      obtain ⟨before, after, hbody⟩ := ih
      exact ⟨outer.opening :: before, after ++ outer.endings ++ rest.events, by
        simp [events, hbody]⟩
  | @behind other body rest h ih =>
      obtain ⟨before, after, hrest⟩ := ih
      exact ⟨other.opening :: (body.events ++ other.endings) ++ before,
        after, by simp [events, hrest]⟩
  | @behindSkip component op entity id message rest h ih =>
      obtain ⟨before, after, hrest⟩ := ih
      exact ⟨.skipped component op entity id message :: before,
        after, by simp [events, hrest]⟩
  | behindGivenUp h ih => exact ih

theorem countP_endings (course : Course) :
    course.endings.countP (·.stage == .start) = 0 ∧
      course.endings.countP (fun e => e.stage == .done || e.stage == .failed) +
        (match course.outcome with | .error .abandoned => 1 | _ => 0) = 1 := by
  obtain ⟨op, entity, (f | _) | _, _ | (g | _)⟩ := course <;> exact ⟨rfl, rfl⟩

/-- Of the events that open writes, those of the writes that were given up have
no other that closes them. -/
theorem countP_events (c : Chronicle) :
    c.events.countP (·.stage == .start) =
      c.events.countP (fun e => e.stage == .done || e.stage == .failed) +
        c.unwound := by
  induction c with
  | nil => rfl
  | skip component op entity id message rest ih => exact ih
  | givenUp rest ih => exact ih
  | write course work rest ihwork ihrest =>
      obtain ⟨hstart, hclosed⟩ := countP_endings course
      have hopening : course.opening.stage = .start := rfl
      simp only [events, unwound, List.countP_cons, List.countP_append,
        List.cons_append, hstart, hopening, ihwork, ihrest]
      simp only [beq_self_eq_true, if_true,
        show (Stage.start == .done || Stage.start == .failed) = false
        from rfl, Bool.false_eq_true, if_false]
      omega

/-- Nothing is given up, only the transaction of an outermost write is undone,
and only for a failure. -/
def Orderly : Bool → Chronicle → Prop
  | _, nil => True
  | isWithin, skip _ _ _ _ _ rest => rest.Orderly isWithin
  | _, givenUp _ => False
  | isWithin, write course work rest =>
    course.outcome ≠ .error .abandoned ∧
      (course.undoing ≠ none → isWithin = false ∧
        ∃ f, course.outcome = .error (.failed f)) ∧
      work.Orderly true ∧ rest.Orderly isWithin

theorem Orderly.append {isWithin : Bool} (hc : c.Orderly isWithin)
    (hd : d.Orderly isWithin) :
    (c.append d).Orderly isWithin := by
  induction c with
  | nil => exact hd
  | skip _ _ _ _ _ rest ih => exact ih hc
  | givenUp rest ih => exact hc.elim
  | write course work rest _ ih =>
      obtain ⟨houtcome, hundoing, hwork, hrest⟩ := hc
      exact ⟨houtcome, hundoing, hwork, ih hrest⟩

theorem underWay_closing (op entity : String) {outcome : Except Stop α}
    (h : outcome ≠ .error .abandoned) (outer : List (String × Option String))
    (rest : List Event) :
    underWay ((op, some entity) :: outer)
      (Store.closingEvent op entity outcome ++ rest) = underWay outer rest := by
  rcases outcome with (f | _) | a
  · exact if_pos rfl
  · exact absurd rfl h
  · exact if_pos rfl

theorem underWay_undoing (op entity : String) (f : Failure)
    (answer : Except Failure Unit) (rest : List Event) :
    underWay [(op, some entity)] (Store.undoingEvents op f answer ++
        (Store.closingEvent op entity (.error (.failed f) : Except Stop Unit) ++
          rest)) =
      underWay [(op, some entity)]
        (Store.closingEvent op entity (.error (.failed f) : Except Stop Unit) ++
          rest) := by
  cases answer with
  | ok => rfl
  | error g =>
      have hcause : (Event.rollbackFailed Store.transactionComponent op g
          f).details.lookup "cause" =
          (Event.failed Store.writeComponent op f
            [(Detail.entity.name, entity)]).details.lookup messageName := rfl
      refine if_pos ?_
      simp only [Event.causedBy, Store.closingEvent, List.cons_append, hcause]
      simp [Event.failed, Event.rollbackFailed]

theorem underWay_endings {course : Course} {isWithin : Bool}
    (houtcome : course.outcome ≠ .error .abandoned)
    (hundoing : course.undoing ≠ none → isWithin = false ∧
      ∃ f, course.outcome = .error (.failed f))
    {outer : List (String × Option String)}
    (houter : isWithin = false → outer = []) (rest : List Event) :
    underWay (course.opening.subject :: outer) (course.endings ++ rest) =
      underWay outer rest := by
  have hclosing := underWay_closing course.op course.entity houtcome outer rest
  rw [Course.endings, List.append_assoc]
  obtain ⟨op, entity, outcome, _ | answer⟩ := course
  · exact hclosing
  · obtain ⟨hisWithin, f, rfl⟩ := hundoing (Option.some_ne_none answer)
    cases houter hisWithin
    exact (underWay_undoing op entity f answer rest).trans hclosing

theorem Orderly.underWay_events {isWithin : Bool} (h : c.Orderly isWithin)
    {outer : List (String × Option String)}
    (houter : isWithin = false → outer = [])
    (rest : List Event) : underWay outer (c.events ++ rest) =
      underWay outer rest := by
  induction c generalizing isWithin outer rest with
  | nil => rfl
  | skip component op entity id message later ih =>
      exact ih h houter rest
  | givenUp later ih => exact h.elim
  | write course work later ihwork ihlater =>
      obtain ⟨houtcome, hundoing, hwork, hlater⟩ := h
      calc underWay outer ((write course work later).events ++ rest)
        _ = underWay (course.opening.subject :: outer)
            (work.events ++ (course.endings ++ (later.events ++ rest))) := by
          simp only [events, List.cons_append, List.append_assoc]
          rfl
        _ = underWay (course.opening.subject :: outer)
          (course.endings ++ (later.events ++ rest)) :=
          ihwork hwork (fun h => by cases h) _
        _ = underWay outer (later.events ++ rest) :=
          underWay_endings houtcome hundoing houter _
        _ = underWay outer rest := ihlater hlater houter rest

namespace Of

variable [Session σ] {allowed : Statement → Prop} {m : Action σ ω α}
    {w : World σ ω} {after : Except Stop α × World σ ω}

theorem exec_eq (h : c.Of allowed m w after) : m.exec w = after := by
  induction h with
  | silent h hevents => rfl
  | skip component op entity id message w => rfl
  | done a w => rfl
  | andThen _ _ ihm ihk => rw [Action.exec_bind_ok ihm, ihk]
  | stopped _ k ihm => exact Action.exec_bind_error ihm k
  | fail f w => rfl
  | abandon w => rfl
  | attempt _ ihm => rw [Action.exec_observe, ihm]
  | joined hwithin _ ihm => rw [Store.exec_write_within _ _ _ hwithin, ihm]
  | refused m houtermost hbegin =>
      exact Store.exec_write_refused m houtermost hbegin
  | broken houtermost hbegin _ ihm =>
      exact Store.exec_write_stopped houtermost hbegin ihm
  | uncommitted houtermost hbegin _ hcommit ihm =>
      exact Store.exec_write_uncommitted houtermost hbegin ihm hcommit
  | committed houtermost hbegin _ hcommit ihm =>
      exact Store.exec_write_committed houtermost hbegin ihm hcommit

theorem writing_eq (h : c.Of allowed m w after) :
    after.2.store.writing = w.store.writing := by
  induction h with
  | silent h _ => exact h.writing _
  | skip component op entity id message w => rfl
  | done a w => rfl
  | andThen _ _ ihm ihk => exact ihk.trans ihm
  | stopped _ k ihm => exact ihm
  | fail f w => rfl
  | abandon w => rfl
  | attempt _ ihm => exact ihm
  | joined hwithin _ ihm => exact ihm
  | refused m houtermost _ => exact houtermost.symm
  | broken houtermost _ _ _ => exact houtermost.symm
  | uncommitted houtermost _ _ _ _ => exact houtermost.symm
  | committed houtermost _ _ _ _ => exact houtermost.symm

theorem orderly (h : c.Of allowed m w after) (hc : c.surrenders = 0) :
    after.1 ≠ .error .abandoned ∧ c.Orderly w.store.writing := by
  induction h with
  | silent h _ => exact ⟨h.outcome_ne _, trivial⟩
  | skip component op entity id message w => exact ⟨by simp, trivial⟩
  | done a w => exact ⟨by simp, trivial⟩
  | @andThen _ _ _ _ w w' a after c d hm _ ihm ihk =>
      rw [surrenders_append] at hc
      obtain ⟨-, hfirst⟩ := ihm (by omega)
      obtain ⟨houtcome, hsecond⟩ := ihk (by omega)
      rw [show w'.store.writing = w.store.writing from hm.writing_eq] at hsecond
      exact ⟨houtcome, hfirst.append hsecond⟩
  | stopped _ k ihm =>
      obtain ⟨houtcome, hordered⟩ := ihm hc
      refine ⟨fun hstop => houtcome ?_, hordered⟩
      cases hstop
      rfl
  | fail f w => exact ⟨by simp, trivial⟩
  | abandon w => cases hc
  | attempt _ ihm => exact ⟨by simp, (ihm hc).2⟩
  | @joined _ _ _ _ _ _ outcome _ hwithin _ ihm =>
      obtain ⟨houtcome, hwork⟩ := ihm hc
      rw [World.noting_writing, hwithin] at hwork
      have hdiscarded : (outcome.map fun _ => ()) ≠ .error .abandoned := by
        rcases outcome with (f | _) | a
        · exact fun hstop => by cases hstop
        · exact absurd rfl houtcome
        · exact fun hstop => by cases hstop
      exact ⟨houtcome, hdiscarded, by simp, hwork, trivial⟩
  | refused m houtermost _ =>
      exact ⟨by simp, by simp, by simp, trivial, trivial⟩
  | @broken _ _ _ _ _ _ _ stop _ houtermost _ _ ihm =>
      obtain ⟨houtcome, hwork⟩ := ihm hc
      cases stop with
      | failed f =>
          exact ⟨by simp, by simp, fun _ => ⟨houtermost, f, rfl⟩,
            hwork, trivial⟩
      | abandoned => exact absurd rfl houtcome
  | uncommitted houtermost _ _ _ ihm =>
      refine ⟨by simp, by simp, fun _ => ⟨houtermost, _, rfl⟩,
        (ihm hc).2, trivial⟩
  | committed houtermost _ _ _ ihm =>
      refine ⟨by simp, by simp, by simp, (ihm hc).2, trivial⟩

theorem events_eq (h : c.Of allowed m w after) :
    after.2.store.events = w.store.events ++ c.events := by
  induction h with
  | silent h hevents => rw [hevents]; exact (List.append_nil _).symm
  | skip component op entity id message w => rfl
  | done a w => exact (List.append_nil _).symm
  | andThen _ _ ihm ihk => rw [ihk, ihm, events_append, List.append_assoc]
  | stopped _ k ihm => exact ihm
  | fail f w => exact (List.append_nil _).symm
  | abandon w => exact (List.append_nil _).symm
  | attempt _ ihm => exact ihm
  | joined hwithin _ ihm =>
      refine events_write ?_
      rw [World.noting_events, ihm, World.noting_events, Course.closing,
        Store.closingEvent_discard]
      exact congrArg (· ++ _) (List.append_nil _).symm
  | refused m houtermost hbegin =>
      refine events_write ?_
      rw [Store.left_events, Store.entered_events, events, List.append_nil]
      exact congrArg (· ++ _) (List.append_nil _).symm
  | broken houtermost hbegin _ ihm =>
      refine events_write ?_
      rw [Store.left_events, Store.undone_events, ihm, Store.entered_events]
      exact congrArg (_ ++ ·) (Store.closingEvent_discard _ _ _).symm
  | uncommitted houtermost hbegin _ hcommit ihm =>
      refine events_write ?_
      rw [Store.left_events, Store.undone_events, World.withSession_events, ihm,
        Store.entered_events]
      rfl
  | committed houtermost hbegin _ hcommit ihm =>
      refine events_write ?_
      rw [Store.left_events, World.withSession_events, ihm,
        Store.entered_events]
      exact congrArg (· ++ _) (List.append_nil _).symm

/-- Every write of a chronicle has run, and the chronicle tells how it went. -/
theorem exists_run_of_has (h : c.Of allowed m w after)
    (hwrite : Has course work c) :
    ∃ (β : Type) (body : Action σ ω β) (v : World σ ω)
      (result : Except Stop β × World σ ω),
      (write course work nil).Of allowed
        (Store.write course.op course.entity body) v result ∧
        course.outcome = result.1.map fun _ => () := by
  induction h with
  | silent h _ => cases hwrite
  | skip _ _ _ _ _ w =>
      cases hwrite with
      | behindSkip h => cases h
  | done a w => cases hwrite
  | andThen _ _ ihm ihk => exact hwrite.of_append.elim ihm ihk
  | stopped _ k ihm => exact ihm hwrite
  | fail f w => cases hwrite
  | abandon w =>
      cases hwrite with
      | behindGivenUp h => cases h
  | attempt _ ihm => exact ihm hwrite
  | joined hwithin hm ihm =>
      cases hwrite with
      | here => exact ⟨_, _, _, _, .joined hwithin hm, rfl⟩
      | within h => exact ihm h
      | behind h => cases h
  | refused m houtermost hbegin =>
      cases hwrite with
      | here => exact ⟨_, m, _, _, .refused m houtermost hbegin, rfl⟩
      | within h => cases h
      | behind h => cases h
  | broken houtermost hbegin hm ihm =>
      cases hwrite with
      | here => exact ⟨_, _, _, _, .broken houtermost hbegin hm, rfl⟩
      | within h => exact ihm h
      | behind h => cases h
  | uncommitted houtermost hbegin hm hcommit ihm =>
      cases hwrite with
      | here =>
          exact ⟨_, _, _, _, .uncommitted houtermost hbegin hm hcommit, rfl⟩
      | within h => exact ihm h
      | behind h => cases h
  | committed houtermost hbegin hm hcommit ihm =>
      cases hwrite with
      | here => exact ⟨_, _, _, _, .committed houtermost hbegin hm hcommit, rfl⟩
      | within h => exact ihm h
      | behind h => cases h

end Of

end Chronicle

/-- Every run of a program has a chronicle. -/
theorem Program.exists_chronicle [Session σ] {allowed : Statement → Prop}
    {m : Action σ ω α} (hm : Program (Elementary allowed) m) (w : World σ ω) :
    ∃ c : Chronicle, c.Of allowed m w (m.exec w) := by
  induction hm generalizing w with
  | basic h =>
      cases h with
      | plain h =>
          cases h with
          | skip component op entity id message =>
              exact ⟨_, .skip component op entity id message w⟩
          | execute hs params =>
              exact ⟨_, .silent (.plain (.execute hs params)) rfl⟩
          | query hs params =>
              exact ⟨_, .silent (.plain (.query hs params)) rfl⟩
          | see f => exact ⟨_, .silent (.plain (.see f)) rfl⟩
          | hold => exact ⟨_, .silent (.plain .hold) rfl⟩
          | release => exact ⟨_, .silent (.plain .release) rfl⟩
      | remember f => exact ⟨_, .silent (.remember f) rfl⟩
  | done a => exact ⟨_, .done a w⟩
  | @andThen _ _ m k _ _ ihm ihk =>
      obtain ⟨c, hc⟩ := ihm w
      rcases hrun : m.exec w with ⟨stop | a, w'⟩
      · rw [hrun] at hc
        rw [Action.exec_bind_error hrun]
        exact ⟨c, .stopped hc k⟩
      · rw [hrun] at hc
        rw [Action.exec_bind_ok hrun]
        obtain ⟨d, hd⟩ := ihk a w'
        exact ⟨_, .andThen hc hd⟩
  | fail f => exact ⟨_, .fail f w⟩
  | abandon => exact ⟨_, .abandon w⟩
  | attempt _ ih =>
      obtain ⟨c, hc⟩ := ih w
      exact ⟨c, .attempt hc⟩
  | @write _ op entity m _ ih =>
      cases hw : w.store.writing with
      | true =>
          obtain ⟨c, hc⟩ := ih (w.noting [Store.openingEvent op entity])
          rw [Store.exec_write_within op entity m hw]
          exact ⟨_, .joined hw hc⟩
      | false =>
          -- the work has a chronicle in the world that its transaction has been
          -- begun in
          have hwork : ∀ {s outcome w'},
              m.exec (Store.entered op entity s w) = (outcome, w') →
              ∃ c : Chronicle, c.Of allowed m (Store.entered op entity s w)
                (outcome, w') :=
            fun hrun => hrun ▸ ih _
          have houtermost := Store.write_outermost op entity m hw
          generalize (Store.write op entity m).exec w = after at houtermost
          cases houtermost with
          | refused hbegin => exact ⟨_, .refused m hw hbegin⟩
          | stopped hbegin hrun =>
              obtain ⟨c, hc⟩ := hwork hrun
              exact ⟨_, .broken hw hbegin hc⟩
          | uncommitted hbegin hrun hcommit =>
              obtain ⟨c, hc⟩ := hwork hrun
              exact ⟨_, .uncommitted hw hbegin hc hcommit⟩
          | committed hbegin hrun hcommit =>
              obtain ⟨c, hc⟩ := hwork hrun
              exact ⟨_, .committed hw hbegin hc hcommit⟩

/-- The log mirrors the writes of a program.  Every run of a program has a
chronicle, which tells how each of its writes went, and the events of the run
are those of the chronicle: a write opens, the events of its work come, and it
ends with an event for its outcome, in front of which there is one if its
transaction was to be undone and could not be.  So the log closes in turn what
it opens, unless something is given up, and then just the writes that were given
up are not closed. -/
theorem Program.log_mirrors_writes [Session σ] {allowed : Statement → Prop}
    {m : Action σ ω α} (hm : Program (Elementary allowed) m) (w : World σ ω) :
    (∃ c : Chronicle, c.Of allowed m w (m.exec w)) ∧
    ∀ (c : Chronicle) (after : Except Stop α × World σ ω),
      c.Of allowed m w after →
      m.exec w = after ∧ after.2.store.events = w.store.events ++ c.events ∧
      (w.store.writing = false → c.surrenders = 0 →
        underWay [] c.events = some []) ∧
      c.events.countP (·.stage == .start) =
        c.events.countP (fun e => e.stage == .done || e.stage == .failed) +
          c.unwound ∧
      ∀ (course : Course) (work : Chronicle), Chronicle.Has course work c →
        (∃ before behind,
          c.events = before ++
            (course.opening :: (work.events ++ course.endings)) ++ behind) ∧
        (course.closing = [] ↔ course.outcome = .error .abandoned) ∧
        ∃ (β : Type) (body : Action σ ω β) (v : World σ ω)
          (result : Except Stop β × World σ ω),
          (Chronicle.write course work .nil).Of allowed
            (Store.write course.op course.entity body) v result ∧
          (Store.write course.op course.entity body).exec v = result ∧
          course.outcome = result.1.map fun _ => () := by
  refine ⟨hm.exists_chronicle w, fun c after hc =>
    ⟨hc.exec_eq, hc.events_eq, ?_, c.countP_events, ?_⟩⟩
  · intro houtermost hsurrenders
    have horderly := (hc.orderly hsurrenders).2
    rw [houtermost] at horderly
    have hread := horderly.underWay_events (fun _ => rfl) []
    rwa [List.append_nil] at hread
  · intro course work hwrite
    obtain ⟨β, body, v, result, hrun, houtcome⟩ := hc.exists_run_of_has hwrite
    refine ⟨hwrite.exists_events, ?_, β, body, v, result, hrun,
      hrun.exec_eq, houtcome⟩
    obtain ⟨op, entity, (f | _) | _, undoing⟩ :=
      course <;> simp [Course.closing, Store.closingEvent]

def patching : Action Canned Unit Unit := do
  let _ ← Action.observe (Store.write "update" "commit"
    (Action.fail (Failure.backend "no such row") : Action Canned Unit Unit))
  return

theorem patching_program : Program (Elementary AdapterStatement) patching :=
  .andThen (.attempt (.write _ _ (.fail _))) fun _ => .done _

def unsettled : World Canned Unit :=
  { store := Store.ofSession
      { dialect := .sqlite,
        commits := [.error (Failure.backend "disk full")],
        rollbacks := [.error (Failure.backend "connection lost")] } {},
    memory := () }

theorem log_of_patching :
    Program (Elementary AdapterStatement)
      (Store.write "save" "commit" patching) ∧
      ∃ c : Chronicle,
        c.Of AdapterStatement (Store.write "save" "commit" patching) unsettled
          ((Store.write "save" "commit" patching).exec unsettled) ∧
        c.surrenders = 0 ∧ underWay [] c.events = some [] ∧
        c.events = [Store.openingEvent "save" "commit",
          Store.openingEvent "update" "commit",
          .failed Store.writeComponent "update" (Failure.backend "no such row")
            [("entity", "commit")],
          .rollbackFailed Store.transactionComponent "save"
            (Failure.backend "connection lost") (Failure.backend "disk full"),
          .failed Store.writeComponent "save" (Failure.backend "disk full")
            [("entity", "commit")]] := by
  have hprogram : Program (Elementary AdapterStatement)
      (Store.write "save" "commit" patching) :=
    .write _ _ patching_program
  obtain ⟨-, hmirrors⟩ := hprogram.log_mirrors_writes unsettled
  have hwork : ∃ w' : World Canned Unit, Chronicle.Of AdapterStatement patching
        (Store.entered "save" "commit" unsettled.store.session unsettled)
        (.ok (), w')
        (.write
          { op := "update", entity := "commit",
            outcome := .error (.failed (Failure.backend "no such row")) }
          .nil .nil) ∧
      w'.store.session = unsettled.store.session :=
    ⟨_, .andThen (.attempt (.joined rfl (.fail _ _))) (.done _ _), rfl⟩
  obtain ⟨w', hwork, hsession⟩ := hwork
  have hc := Chronicle.Of.uncommitted (w := unsettled) rfl rfl hwork
    (show Session.commit.run w'.store.session = _ by rw [hsession]; rfl)
  obtain ⟨hexec, -, hread, -⟩ := hmirrors _ _ hc
  exact ⟨hprogram, _, hexec ▸ hc, rfl, hread rfl rfl, rfl⟩

end Annals
