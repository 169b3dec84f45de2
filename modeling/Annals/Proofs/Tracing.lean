import Annals.Proofs.Programs
import Mathlib.Data.List.Forall2

namespace Annals

open Annals.Log Annals.Sql Annals.Stream

variable {σ ω α β : Type}

/-- A call to a session with the answer to it. -/
inductive Exchange where
  | began (answer : Except Failure Unit)
  | executed (statement : Statement) (params : List Value)
      (answer : Except Failure Nat)
  | queried (statement : Statement) (params : List Value)
      (answer : Except Failure (List Cursor))
  | committed (answer : Except Failure Unit)
  | undone (answer : Except Failure Unit)
  | closed (answer : Except Failure Unit)

def Exchange.statement? : Exchange → Option Statement
  | executed statement _ _ => some statement
  | queried statement _ _ => some statement
  | _ => none

/-- A session with the calls that it has received so far and the answers it has
given. -/
structure Traced (σ : Type) where
  inner : σ
  exchanges : List Exchange := []

namespace Traced

def noting (note : Except Failure α → Exchange) (access : Access σ α) :
    Access (Traced σ) α :=
  ExceptT.mk fun s =>
    let (outcome, inner) := access.run s.inner
    (outcome, { inner, exchanges := s.exchanges ++ [note outcome] })

instance [Session σ] : Session (Traced σ) where
  dialect s := Session.dialect s.inner
  execute statement params := noting (.executed statement params)
    (Session.execute statement params)
  query statement params := noting (.queried statement params)
    (Session.query statement params)
  beginTransaction := noting .began Session.beginTransaction
  commit := noting .committed Session.commit
  rollback := noting .undone Session.rollback
  close := noting .closed Session.close
  hold s := { s with inner := Session.hold s.inner }
  release s := { s with inner := Session.release s.inner }
  resume statement params trail now rest :=
    Session.resume statement params (trail.map fun (s, count) =>
      (s.inner, count)) now.inner rest

theorem exchanges_noting {note : Except Failure α → Exchange}
    {access : Access σ α} {s s' : Traced σ} {outcome : Except Failure α}
    (h : (noting note access).run s = (outcome, s')) :
    s'.exchanges = s.exchanges ++ [note outcome] := by
  cases h
  rfl

end Traced

/-- What a traced store has received so far. -/
abbrev World.exchanges (w : World (Traced σ) ω) : List Exchange :=
  w.store.session.exchanges

/-- One step of a plan. -/
inductive PlanStep where
  /-- The query for the next identifier, and the identifier that it is to
  give. -/
  | draw (entity : String) (id : EntityId)
  /-- The execution of a statement.  Its parameters have to be encoded before,
  and the number of rows that it affects has to be accepted after. -/
  | execute (statement : Statement) (params : Except Failure (List Value))
      (accept : Nat → Except Failure Unit)

def drawnId (entity : String) (openings : List Cursor) :
    Except Failure EntityId :=
  let refuse (reason : String) :=
    .error (Failure.consistencyViolation "next_id" entity
      ("sequence " ++ Statement.sequenceName entity ++ " returned " ++ reason))
  match Plain.lastNumber openings with
  | .error f => .error f
  | .ok none => refuse "no value"
  | .ok (some n) =>
    match EntityId.ofValue n with
    | .ok id => .ok id
    | .error _ => refuse ("non-positive value " ++ toString n)

namespace PlanStep

def statement : PlanStep → Statement
  | draw entity _ => .nextValue (Statement.sequenceName entity)
  | execute statement _ _ => statement

/-- A step makes a call, and nothing stands in the way of the next step. -/
inductive Passes : PlanStep → Exchange → Prop where
  | draw {entity : String} {id : EntityId} {openings : List Cursor}
      (hdrawn : drawnId entity openings = .ok id) :
      Passes (.draw entity id)
        (.queried (.nextValue (Statement.sequenceName entity)) []
          (.ok openings))
  | execute {statement : Statement} {params : List Value}
      {accept : Nat → Except Failure Unit} {n : Nat}
      (haccept : accept n = .ok ()) :
      Passes (.execute statement (.ok params) accept)
        (.executed statement params (.ok n))

/-- A step fails, after one call or without any. -/
inductive Fails : PlanStep → List Exchange → Failure → Prop where
  | unanswered {entity : String} {id : EntityId} {f : Failure} :
      Fails (.draw entity id)
        [.queried (.nextValue (Statement.sequenceName entity)) [] (.error f)] f
  | undrawn {entity : String} {id : EntityId} {openings : List Cursor}
      {f : Failure} (hdrawn : drawnId entity openings = .error f) :
      Fails (.draw entity id)
        [.queried (.nextValue (Statement.sequenceName entity)) []
          (.ok openings)] f
  | unencodable {statement : Statement} {accept : Nat → Except Failure Unit}
      {f : Failure} :
      Fails (.execute statement (.error f) accept) [] f
  | unexecuted {statement : Statement} {params : List Value}
      {accept : Nat → Except Failure Unit} {f : Failure} :
      Fails (.execute statement (.ok params) accept)
        [.executed statement params (.error f)] f
  | unaccepted {statement : Statement} {params : List Value}
      {accept : Nat → Except Failure Unit} {n : Nat} {f : Failure}
      (haccept : accept n = .error f) :
      Fails (.execute statement (.ok params) accept)
        [.executed statement params (.ok n)] f

theorem Passes.statement?_eq {step : PlanStep} {call : Exchange}
    (h : step.Passes call) :
    call.statement? = some step.statement := by
  cases h <;> rfl

theorem Fails.sent {step : PlanStep} {calls : List Exchange} {f : Failure}
    (h : step.Fails calls f) :
    calls.filterMap Exchange.statement? <+: [step.statement] := by
  cases h with
  | unencodable => exact List.nil_prefix
  | unanswered | undrawn | unexecuted | unaccepted => exact List.prefix_refl _

end PlanStep

/-- The calls of a plan of which every step passes. -/
def Completes (steps : List PlanStep) (calls : List Exchange) : Prop :=
  List.Forall₂ PlanStep.Passes steps calls

/-- The calls of a plan of which one step fails: those of the steps in front of
it and its own. -/
inductive Breaks : List PlanStep → List Exchange → Failure → Prop where
  | after {front back : List PlanStep} {step : PlanStep}
      {before last : List Exchange} {f : Failure}
      (hfront : Completes front before) (hstep : step.Fails last f) :
      Breaks (front ++ step :: back) (before ++ last) f

theorem PlanStep.Fails.breaks {step : PlanStep} {calls : List Exchange}
    {f : Failure} (h : step.Fails calls f) (back : List PlanStep) :
    Breaks (step :: back) calls f :=
  .after (List.Forall₂.nil : Completes [] []) h

theorem Completes.append {steps steps' : List PlanStep}
    {calls calls' : List Exchange} (h : Completes steps calls)
    (h' : Completes steps' calls') :
    Completes (steps ++ steps') (calls ++ calls') := List.rel_append h h'

theorem Completes.breaks {steps steps' : List PlanStep}
    {calls calls' : List Exchange} {f : Failure}
    (h : Completes steps calls) (h' : Breaks steps' calls' f) :
    Breaks (steps ++ steps') (calls ++ calls') f := by
  obtain ⟨hfront, hstep⟩ := h'
  rw [← List.append_assoc, ← List.append_assoc]
  exact .after (h.append hfront) hstep

theorem Breaks.append {steps : List PlanStep} {calls : List Exchange}
    {f : Failure} (h : Breaks steps calls f) (more : List PlanStep) :
    Breaks (steps ++ more) calls f := by
  obtain ⟨hfront, hstep⟩ := h
  rw [List.append_assoc]
  exact .after hfront hstep

theorem Completes.sent {steps : List PlanStep} {calls : List Exchange}
    (h : Completes steps calls) :
    calls.filterMap Exchange.statement? = steps.map PlanStep.statement := by
  induction h with
  | nil => rfl
  | cons hstep _ ih =>
      rw [List.filterMap_cons_some hstep.statement?_eq, ih, List.map_cons]

theorem Breaks.sent {steps : List PlanStep} {calls : List Exchange}
    {f : Failure} (h : Breaks steps calls f) :
    calls.filterMap Exchange.statement? <+: steps.map PlanStep.statement := by
  obtain ⟨hfront, hstep⟩ := h
  rw [List.filterMap_append, List.map_append, hfront.sent, List.map_cons,
    List.prefix_append_right_inj]
  exact hstep.sent.trans (List.prefix_append [_] _)

/-- The calls that an action has made, given how it has ended.  The plan depends
on what the action is to result in, of which it is known beforehand only that it
is `valid`. -/
inductive Went (valid : α → Prop) (plan : α → List PlanStep)
    (calls : List Exchange) :
    Except Stop α → Prop where
  | completed {a : α} (hvalid : valid a) (hcalls : Completes (plan a) calls) :
      Went valid plan calls (.ok a)
  | broken {a : α} {f : Failure} (hvalid : valid a)
      (hcalls : Breaks (plan a) calls f) :
      Went valid plan calls (.error (.failed f))

/-- An action makes the calls of a plan in every world, up to the first step
that fails. -/
structure KeepsTo (m : Action (Traced σ) ω α) (valid : α → Prop)
    (plan : α → List PlanStep) :
    Prop where
  possible : ∃ a, valid a
  went : ∀ w, ∃ calls, (m.exec w).2.exchanges = w.exchanges ++ calls ∧
    Went valid plan calls (m.exec w).1

namespace KeepsTo

variable {valid : α → Prop} {plan : α → List PlanStep}

theorem pure (a : α) :
    KeepsTo (Pure.pure a : Action (Traced σ) ω α) (· = a) fun _ => [] :=
  ⟨⟨a, rfl⟩, fun _ => ⟨[], (List.append_nil _).symm, .completed rfl .nil⟩⟩

theorem bind {m : Action (Traced σ) ω α} {k : α → Action (Traced σ) ω β}
    {valid' : α → β → Prop} {plan' : α → β → List PlanStep} {whole : β → Prop}
    {steps : β → List PlanStep} (hm : KeepsTo m valid plan)
    (hk : ∀ a, valid a → KeepsTo (k a) (valid' a) (plan' a))
    (hwhole : ∀ a b, valid a → valid' a b → whole b ∧
      steps b = plan a ++ plan' a b) :
    KeepsTo (m >>= k) whole steps := by
  refine ⟨?_, fun w => ?_⟩
  · obtain ⟨a, ha⟩ := hm.possible
    obtain ⟨b, hb⟩ := (hk a ha).possible
    exact ⟨b, (hwhole a b ha hb).1⟩
  obtain ⟨calls, hcalls, hwent⟩ := hm.went w
  rw [Action.exec_bind]
  generalize m.exec w = after at hcalls hwent ⊢
  obtain ⟨outcome, v⟩ := after
  cases hwent with
  | @broken a f ha hbreaks =>
      obtain ⟨b, hb⟩ := (hk a ha).possible
      obtain ⟨hvalid, hsteps⟩ := hwhole a b ha hb
      refine ⟨calls, hcalls, .broken hvalid ?_⟩
      rw [hsteps]
      exact hbreaks.append _
  | @completed a ha hcompletes =>
      obtain ⟨calls', hcalls', hwent'⟩ := (hk a ha).went v
      refine ⟨calls ++ calls', ?_, ?_⟩
      · rw [← List.append_assoc, ← hcalls]
        exact hcalls'
      · dsimp only
        generalize (k a).exec v = after at hwent' ⊢
        obtain ⟨outcome', v'⟩ := after
        cases hwent' with
        | completed hb hcompletes' =>
            obtain ⟨hvalid, hsteps⟩ := hwhole a _ ha hb
            refine .completed hvalid ?_
            rw [hsteps]
            exact hcompletes.append hcompletes'
        | broken hb hbreaks =>
            obtain ⟨hvalid, hsteps⟩ := hwhole a _ ha hb
            refine .broken hvalid ?_
            rw [hsteps]
            exact hcompletes.breaks hbreaks

theorem bind_pure {m : Action (Traced σ) ω α} (hm : KeepsTo m valid plan)
    (g : α → β) {whole : β → Prop} {steps : β → List PlanStep}
    (hwhole : ∀ a, valid a → whole (g a) ∧ steps (g a) = plan a) :
    KeepsTo (m >>= fun a => Pure.pure (g a)) whole steps := by
  refine bind hm (fun a _ => pure (g a)) ?_
  rintro a _ ha rfl
  rw [List.append_nil]
  exact hwhole a ha

theorem mapM {f : α → Action (Traced σ) ω β} {valid : α → β → Prop}
    {plan : α → β → List PlanStep} {as : List α}
    (hf : ∀ a ∈ as, KeepsTo (f a) (valid a) (plan a)) :
    KeepsTo (as.mapM f) (List.Forall₂ valid as) fun bs =>
      (List.zipWith plan as bs).flatten := by
  induction as with
  | nil =>
      refine ⟨⟨[], .nil⟩, fun w => ⟨[], (List.append_nil _).symm, ?_⟩⟩
      exact .completed (a := []) .nil .nil
  | cons a as ih =>
      have hrest : ∀ b,
          KeepsTo (do return b :: (← as.mapM f) : Action (Traced σ) ω (List β))
          (fun bs => ∃ rest, List.Forall₂ valid as rest ∧ bs = b :: rest)
          (fun bs => (List.zipWith plan as bs.tail).flatten) := by
        intro b
        refine bind_pure (ih fun x hx => hf x (List.mem_cons_of_mem a hx))
          (b :: ·) ?_
        intro bs hbs
        exact ⟨⟨bs, hbs, rfl⟩, rfl⟩
      rw [List.mapM_cons]
      refine bind (hf a List.mem_cons_self) (fun b _ => hrest b) ?_
      rintro b _ hb ⟨rest, hvalid, rfl⟩
      exact ⟨.cons hb hvalid, rfl⟩

theorem answered {access : Access σ α} {note : Except Failure α → Exchange}
    {result : α → Except Failure β} {step : β → PlanStep} (b : β)
    (hpasses : ∀ a b, result a = .ok b → (step b).Passes (note (.ok a)))
    (hrefused : ∀ a f, result a = .error f → (step b).Fails [note (.ok a)] f)
    (hfailed : ∀ f, (step b).Fails [note (.error f)] f) :
    KeepsTo (Store.use (Traced.noting note access) >>= fun a =>
      Action.ofExcept (result a) :
        Action (Traced σ) ω β) (fun _ => True) fun b => [step b] := by
  refine ⟨⟨b, trivial⟩, fun w => ?_⟩
  rw [Action.exec_bind, Store.exec_use]
  rcases hrun : (Traced.noting note access).run w.store.session with ⟨f | a, s⟩
  · exact ⟨_, Traced.exchanges_noting hrun,
      .broken (a := b) trivial ((hfailed f).breaks [])⟩
  · simp only [Except.mapError, Action.exec_ofExcept]
    refine ⟨_, Traced.exchanges_noting hrun, ?_⟩
    cases hresult : result a with
    | error f =>
        exact .broken (a := b) trivial ((hrefused a f hresult).breaks [])
    | ok b' => exact .completed trivial (.cons (hpasses a b' hresult) .nil)

variable [Session σ]

theorem nextId (entity : String) :
    KeepsTo (Store.nextId entity : Action (Traced σ) ω EntityId)
      (fun _ => True) fun id =>
      [.draw entity id] := by
  have hdraw : (Store.nextId entity : Action (Traced σ) ω EntityId) =
      Store.use (Traced.noting
        (.queried (.nextValue (Statement.sequenceName entity)) [])
        (Session.query (.nextValue (Statement.sequenceName entity)) [])) >>=
          fun openings =>
          Action.ofExcept (drawnId entity openings) := by
    unfold Store.nextId
    dsimp only
    rw [Plain.queryNumber_eq, Store.use_bind, bind_assoc]
    congr 1
    funext openings
    rw [Store.use_ofExcept]
    unfold drawnId
    rcases Plain.lastNumber openings with f | (_ | n)
    · rfl
    · rfl
    · simp only [Action.ofExcept, pure_bind]
      rcases EntityId.ofValue n with e | id
      · rfl
      · rfl
  rw [hdraw]
  exact answered ⟨1, by decide⟩ (fun _ _ h => .draw h) (fun _ _ h => .undrawn h)
    fun _ => .unanswered

end KeepsTo

/-- Executes a statement once its parameters are encoded, and checks the number
of affected rows. -/
def Store.send [Session σ] (statement : Statement)
    (params : Except Failure (List Value))
    (accept : Nat → Except Failure Unit) : Action σ ω Unit := do
  let values ← Action.ofExcept params
  let n ← Store.execute statement values
  Action.ofExcept (accept n)

theorem KeepsTo.send [Session σ] (statement : Statement)
    (params : Except Failure (List Value))
    (accept : Nat → Except Failure Unit) :
    KeepsTo (Store.send statement params accept : Action (Traced σ) ω Unit)
      (fun _ => True) fun _ =>
      [.execute statement params accept] := by
  cases params with
  | error f =>
      refine ⟨⟨(), trivial⟩, fun w => ⟨[], (List.append_nil _).symm, ?_⟩⟩
      exact .broken (a := ()) trivial (PlanStep.Fails.unencodable.breaks [])
  | ok values =>
      exact answered () (fun _ _ h => .execute h) (fun _ _ h => .unaccepted h)
        fun _ => .unexecuted

/-- The calls of an outermost write whose work keeps to a plan, and its
outcome. -/
inductive FailsFast (steps : List PlanStep) : List Exchange → Except Stop Unit →
    Prop where
  /-- No transaction could be begun, and no step is made. -/
  | refused {f : Failure} :
      FailsFast steps [.began (.error f)] (.error (.failed f))
  /-- A step has failed.  No further step is made. -/
  | broken {calls : List Exchange} {f : Failure} {answer : Except Failure Unit}
      (hcalls : Breaks steps calls f) :
      FailsFast steps ([.began (.ok ())] ++ calls ++ [.undone answer])
        (.error (.failed f))
  /-- All steps have been made, but the transaction could not be committed. -/
  | uncommitted {calls : List Exchange} {f : Failure}
      {answer : Except Failure Unit} (hcalls : Completes steps calls) :
      FailsFast steps ([.began (.ok ())] ++ calls ++
        [.committed (.error f), .undone answer]) (.error (.failed f))
  /-- All steps have been made, and the transaction has been committed. -/
  | committed {calls : List Exchange} (hcalls : Completes steps calls) :
      FailsFast steps ([.began (.ok ())] ++ calls ++ [.committed (.ok ())])
        (.ok ())

theorem FailsFast.sent {steps : List PlanStep} {calls : List Exchange}
    {outcome : Except Stop Unit} (h : FailsFast steps calls outcome) :
    calls.filterMap Exchange.statement? <+: steps.map PlanStep.statement := by
  cases h with
  | refused => exact List.nil_prefix
  | broken hcalls =>
      simpa [List.filterMap_cons, Exchange.statement?] using hcalls.sent
  | uncommitted hcalls =>
      simp [List.filterMap_cons, Exchange.statement?, hcalls.sent]
  | committed hcalls =>
      simp [List.filterMap_cons, Exchange.statement?, hcalls.sent]

theorem Traced.exchanges_rollback [Session σ] (s : Traced σ) :
    ∃ answer, ((Session.rollback.run s).2 : Traced σ).exchanges = s.exchanges ++
      [.undone answer] :=
  ⟨_, rfl⟩

/-- A write of its own whose work keeps to a plan fails fast. -/
theorem KeepsTo.write [Session σ] {work : Action (Traced σ) ω α}
    {valid : α → Prop} {plan : α → List PlanStep}
    (hwork : KeepsTo work valid plan) (op entity : String)
    {w : World (Traced σ) ω} (houtermost : w.store.writing = false) :
    ∃ a calls, valid a ∧
      ((Store.write op entity work).exec w).2.exchanges = w.exchanges ++ calls ∧
      FailsFast (plan a) calls
        (((Store.write op entity work).exec w).1.map fun _ => ()) := by
  have h := Store.write_outermost op entity work houtermost
  generalize (Store.write op entity work).exec w = after at h
  cases h with
  | refused hbegin =>
      obtain ⟨a, ha⟩ := hwork.possible
      exact ⟨a, _, ha, Traced.exchanges_noting hbegin, .refused⟩
  | @stopped s stop v hbegin hrun =>
      obtain ⟨calls, hcalls, hwent⟩ := hwork.went (Store.entered op entity s w)
      rw [hrun] at hcalls hwent
      obtain ⟨answer, hundone⟩ := Traced.exchanges_rollback v.store.session
      cases hwent with
      | broken ha hbreaks =>
          refine ⟨_, [.began (.ok ())] ++ calls ++ [.undone answer], ha, ?_,
            .broken hbreaks⟩
          calc
            _ = v.exchanges ++ [.undone answer] := hundone
            _ = s.exchanges ++ calls ++ [.undone answer] :=
              congrArg (· ++ _) hcalls
            _ = _ := by rw [Traced.exchanges_noting hbegin]; simp
  | @uncommitted s s' _ f v hbegin hrun hcommit =>
      obtain ⟨calls, hcalls, hwent⟩ := hwork.went (Store.entered op entity s w)
      rw [hrun] at hcalls hwent
      obtain ⟨answer, hundone⟩ := Traced.exchanges_rollback s'
      cases hwent with
      | completed ha hcompletes =>
          refine ⟨_, [.began (.ok ())] ++ calls ++
            [.committed (.error f), .undone answer], ha, ?_,
            .uncommitted hcompletes⟩
          calc
            _ = s'.exchanges ++ [.undone answer] := hundone
            _ = v.exchanges ++ [.committed (.error f)] ++ [.undone answer] :=
              congrArg (· ++ _) (Traced.exchanges_noting hcommit)
            _ = s.exchanges ++ calls ++ [.committed (.error f)] ++
              [.undone answer] :=
              congrArg (· ++ _ ++ _) hcalls
            _ = _ := by rw [Traced.exchanges_noting hbegin]; simp
  | @committed s s' _ v hbegin hrun hcommit =>
      obtain ⟨calls, hcalls, hwent⟩ := hwork.went (Store.entered op entity s w)
      rw [hrun] at hcalls hwent
      cases hwent with
      | completed ha hcompletes =>
          refine ⟨_, [.began (.ok ())] ++ calls ++
            [.committed (.ok ())], ha, ?_, .committed hcompletes⟩
          calc
            _ = v.exchanges ++ [.committed (.ok ())] :=
              Traced.exchanges_noting hcommit
            _ = s.exchanges ++ calls ++ [.committed (.ok ())] :=
              congrArg (· ++ _) hcalls
            _ = _ := by rw [Traced.exchanges_noting hbegin]; simp

end Annals
