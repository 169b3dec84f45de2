import Annals.Proofs.Backing
import Annals.Session.Canned

/-!
A scripted session is looked at with the history of the faults that have been
armed and the statements that have been sent.  What a fault does to a statement
can be told from the history alone.
-/

namespace Annals

open Annals.Sql Annals.Stream

variable {σ : Type}

/-- What happens to a scripted session that matters to faults. -/
inductive Incident where
  | armed (fault : Fault)
  | sent (text : String)
  deriving DecidableEq, Repr

namespace Incident

def fault? : Incident → Option Fault
  | armed fault => some fault
  | sent _ => none

def text? : Incident → Option String
  | armed _ => none
  | sent text => some text

end Incident

def armedIn (history : List Incident) : List Fault :=
  history.filterMap Incident.fault?

def sentIn (history : List Incident) : List String :=
  history.filterMap Incident.text?

def Call.text? : Call → Option String
  | execute text _ => some text
  | query text _ => some text
  | _ => none

namespace Scripted

def statements (s : Scripted σ) : List String := s.calls.filterMap Call.text?

def failureOf (fault : Fault) : Failure :=
  injected "execute" ("statement matching '" ++ fault.fragment ++ "'")

/-- A session has come about in a history, from one without faults and calls. -/
inductive After [Session σ] : List Incident → Scripted σ → Prop where
  | new (inner : σ) : After [] { inner }
  | arm {history : List Incident} {s : Scripted σ} (h : After history s)
      (fault : Fault) :
      After (history ++ [.armed fault]) (s.arm fault)
  | execute {history : List Incident} {s : Scripted σ} (h : After history s)
      (statement : Statement) (params : List Value) :
      After (history ++ [.sent (statement.render (Session.dialect s.inner))])
        ((Session.execute statement params).run s).2
  | query {history : List Incident} {s : Scripted σ} (h : After history s)
      (statement : Statement) (params : List Value) :
      After (history ++ [.sent (statement.render (Session.dialect s.inner))])
        ((Session.query statement params).run s).2
  | beginTransaction {history : List Incident} {s : Scripted σ}
      (h : After history s) :
      After history (Session.beginTransaction.run s).2
  | commit {history : List Incident} {s : Scripted σ} (h : After history s) :
      After history (Session.commit.run s).2
  | rollback {history : List Incident} {s : Scripted σ} (h : After history s) :
      After history (Session.rollback.run s).2
  | failCommit {history : List Incident} {s : Scripted σ} (h : After history s)
      (failCommit : Bool) :
      After history { s with failCommit }
  | failRollback {history : List Incident} {s : Scripted σ}
      (h : After history s) (failRollback : Bool) :
      After history { s with failRollback }

/-- The texts of which a fault decides, given the faults that are armed before
it. -/
def decides (earlier : List Fault) (fault : Fault) (text : String) : Bool :=
  fault.concerns text && !earlier.any (·.concerns text)

/-- What is left of a fault after some texts. -/
def remaining (earlier : List Fault) (texts : List String)
    (fault : Fault) : Fault :=
  { fault with skip := fault.skip - texts.countP (decides earlier fault) }

/-- What is left of the faults that are armed in a history, given those armed
before it. -/
def standing (earlier : List Fault) : List Incident → List Fault
  | [] => []
  | .armed fault :: rest =>
    remaining earlier (sentIn rest) fault :: standing (earlier ++ [fault]) rest
  | .sent _ :: rest => standing earlier rest

theorem concerns_remaining (earlier : List Fault) (texts : List String)
    (fault : Fault) (text : String) :
    (remaining earlier texts fault).concerns text = fault.concerns text := rfl

theorem remaining_concat (earlier : List Fault) (texts : List String)
    (fault : Fault) (text : String) :
    remaining earlier (texts ++ [text]) fault =
      if decides earlier fault text then
        { remaining earlier texts fault with
          skip := (remaining earlier texts fault).skip - 1 }
      else remaining earlier texts fault := by
  unfold remaining
  rw [List.countP_append, List.countP_singleton]
  cases decides earlier fault text with
  | true => simp [Nat.sub_sub]
  | false => simp

theorem meet_concerned {fault : Fault} {text : String}
    (h : fault.concerns text = true) (faults : List Fault) :
    meet text (fault :: faults) =
      (if fault.skip = 0 then some (failureOf fault) else none,
        { fault with skip := fault.skip - 1 } :: faults) := by
  obtain ⟨fragment, skip⟩ := fault
  rw [meet, if_pos h]
  cases skip <;> rfl

theorem meet_unconcerned {fault : Fault} {text : String}
    (h : fault.concerns text = false) (faults : List Fault) :
    meet text (fault :: faults) =
      ((meet text faults).1, fault :: (meet text faults).2) := by
  rw [meet, h]
  rfl

theorem standing_armed (earlier : List Fault) (history : List Incident)
    (fault : Fault) :
    standing earlier (history ++ [.armed fault]) = standing earlier history ++
      [fault] := by
  induction history generalizing earlier with
  | nil => rfl
  | cons i rest ih =>
      cases i with
      | sent text => exact ih earlier
      | armed other =>
          have hsent : sentIn (rest ++ [.armed fault]) = sentIn rest := by
            simp [sentIn, Incident.text?]
          rw [List.cons_append, standing, hsent, ih]
          rfl

theorem standing_sent (earlier : List Fault) (history : List Incident)
    (text : String) :
    standing earlier (history ++ [.sent text]) =
      if earlier.any (·.concerns text) then standing earlier history
      else (meet text (standing earlier history)).2 := by
  induction history generalizing earlier with
  | nil => cases earlier.any (·.concerns text) <;> rfl
  | cons i rest ih =>
      cases i with
      | sent other => exact ih earlier
      | armed fault =>
          have hsent : sentIn (rest ++ [.sent text]) = sentIn rest ++
              [text] := by
            simp [sentIn, Incident.text?]
          rw [List.cons_append, standing, standing, hsent, ih, remaining_concat,
            List.any_append, List.any_cons, List.any_nil, Bool.or_false]
          cases hearlier : earlier.any (·.concerns text) with
          | true => simp [decides, hearlier]
          | false =>
              cases hfault : fault.concerns text with
              | true =>
                  rw [meet_concerned
                    ((concerns_remaining earlier _ fault text).trans hfault)]
                  simp [decides, hearlier, hfault]
              | false =>
                  rw [meet_unconcerned
                    ((concerns_remaining earlier _ fault text).trans hfault)]
                  simp [decides, hfault]

/-- A fault makes a text fail after a history, given the faults that are armed
before the history: it is the first one that concerns the text, and since it was
armed as many texts that concern it and no fault before it have been sent as it
lets through. -/
def FiresFrom (earlier : List Fault) (history : List Incident) (text : String)
    (fault : Fault) : Prop :=
  ∃ before after, history = before ++ .armed fault :: after ∧
    decides (earlier ++ armedIn before) fault text = true ∧
    fault.skip ≤ (sentIn after).countP
      (decides (earlier ++ armedIn before) fault)

theorem firesFrom_sent {earlier : List Fault} {history : List Incident}
    {text other : String} {fault : Fault} :
    FiresFrom earlier (.sent other :: history) text fault ↔
    FiresFrom earlier history text fault := by
  constructor
  · rintro ⟨before, after, hhistory, hfires⟩
    rcases List.cons_eq_append_iff.mp hhistory
      with ⟨-, hcons⟩ | ⟨before', rfl, rfl⟩
    · cases hcons
    · exact ⟨before', after, rfl, hfires⟩
  · rintro ⟨before, after, rfl, hfires⟩
    exact ⟨.sent other :: before, after, rfl, hfires⟩

theorem firesFrom_armed {earlier : List Fault} {history : List Incident}
    {text : String} {other fault : Fault} :
    FiresFrom earlier (.armed other :: history) text fault ↔
      (other = fault ∧ decides earlier fault text = true ∧
        fault.skip ≤ (sentIn history).countP (decides earlier fault)) ∨
      FiresFrom (earlier ++ [other]) history text fault := by
  have hmoved (before : List Incident) :
      earlier ++ armedIn (.armed other :: before) = earlier ++ [other] ++
        armedIn before := by
    rw [List.append_assoc]
    rfl
  constructor
  · rintro ⟨before, after, hhistory, hdecides, hskip⟩
    rcases List.cons_eq_append_iff.mp hhistory
      with ⟨rfl, hcons⟩ | ⟨before', rfl, rfl⟩
    · cases hcons
      rw [show armedIn [] = [] from rfl, List.append_nil] at hdecides hskip
      exact .inl ⟨rfl, hdecides, hskip⟩
    · rw [hmoved] at hdecides hskip
      exact .inr ⟨before', after, rfl, hdecides, hskip⟩
  · rintro (⟨rfl, hdecides, hskip⟩ | ⟨before, after, rfl, hdecides, hskip⟩)
    · exact ⟨[], history,
        rfl, by rwa [show armedIn [] = [] from rfl, List.append_nil],
        by rwa [show armedIn [] = [] from rfl, List.append_nil]⟩
    · rw [← hmoved] at hdecides hskip
      exact ⟨.armed other :: before, after, rfl, hdecides, hskip⟩

theorem not_firesFrom {earlier : List Fault} {history : List Incident}
    {text : String} {fault : Fault}
    (hearlier : earlier.any (·.concerns text) = true) :
    ¬FiresFrom earlier history text fault := by
  rintro ⟨before, after, -, hdecides, -⟩
  simp [decides, List.any_append, hearlier] at hdecides

/-- What the faults that are left do to a text is what the history says. -/
theorem meet_standing {earlier : List Fault} {text : String}
    (hearlier : earlier.any (·.concerns text) = false) (history : List Incident)
    (f : Failure) :
    (meet text (standing earlier history)).1 = some f ↔
      ∃ fault, FiresFrom earlier history text fault ∧ failureOf fault = f := by
  induction history generalizing earlier with
  | nil =>
      constructor
      · intro h
        cases h
      · rintro ⟨fault, ⟨before, after, hhistory, -⟩, -⟩
        exact absurd hhistory (by simp)
  | cons i rest ih =>
      cases i with
      | sent other =>
          simp only [firesFrom_sent]
          exact ih hearlier
      | armed other =>
          simp only [firesFrom_armed]
          cases hother : other.concerns text with
          | true =>
              have hlater : (earlier ++ [other]).any (·.concerns text) =
                  true := by simp [hother]
              have hdecides : decides earlier other text = true := by
                simp [decides, hother, hearlier]
              rw [standing, meet_concerned
                ((concerns_remaining earlier _ other text).trans hother)]
              constructor
              · intro h
                obtain ⟨hskip, hf⟩ := Option.ite_none_right_eq_some.mp h
                exact ⟨other, .inl
                  ⟨rfl, hdecides, Nat.sub_eq_zero_iff_le.mp hskip⟩,
                  Option.some.inj hf⟩
              · rintro ⟨fault, ⟨rfl, -, hskip⟩ | hfires, rfl⟩
                · exact if_pos (Nat.sub_eq_zero_of_le hskip)
                · exact absurd hfires (not_firesFrom hlater)
          | false =>
              have hlater : (earlier ++ [other]).any (·.concerns text) =
                  false := by
                simpa [hother] using hearlier
              rw [standing, meet_unconcerned
                ((concerns_remaining earlier _ other text).trans hother),
                ih hlater]
              constructor
              · rintro ⟨fault, hfires, rfl⟩
                exact ⟨fault, .inr hfires, rfl⟩
              · rintro ⟨fault, ⟨rfl, hdecides, -⟩ | hfires, rfl⟩
                · simp [decides, hother] at hdecides
                · exact ⟨fault, hfires, rfl⟩

/-- A statement is written down before the faults are asked, and is passed on
only if none of them makes it fail. -/
theorem run_screened {α : Type} (call : Call) (text : String)
    (access : Access σ α) (s : Scripted σ) :
    (do record call; screen text; pass access : Access (Scripted σ) α).run s =
      match (meet text s.faults).1 with
      | some f =>
        (.error f,
          { s with calls := s.calls ++ [call],
                   faults := (meet text s.faults).2 })
      | none =>
        ((access.run s.inner).1,
          { s with
            inner := (access.run s.inner).2, calls := s.calls ++ [call],
            faults := (meet text s.faults).2 }) := by
  have hrecord : (record call).run s =
      (.ok (), { s with calls := s.calls ++ [call] }) := rfl
  rw [Access.run_bind_ok hrecord, Access.run_bind, run_screen]
  rcases meet text s.faults with ⟨_ | f, faults⟩ <;> rfl

theorem left_screened {α : Type} (call : Call) (text : String)
    (access : Access σ α) (s : Scripted σ) :
    ((do record call; screen text; pass access : Access (Scripted σ) α).run
      s).2.faults = (meet text s.faults).2 ∧
      ((do record call; screen text; pass access : Access (Scripted σ) α).run
        s).2.calls = s.calls ++ [call] := by
  rw [run_screened]
  cases (meet text s.faults).1 <;> exact ⟨rfl, rfl⟩

theorem left_begin [Session σ] (s : Scripted σ) :
    ((Session.beginTransaction.run s).2 : Scripted σ).faults = s.faults ∧
      ((Session.beginTransaction.run s).2 : Scripted σ).calls = s.calls ++
        [.beginTransaction] :=
  ⟨rfl, rfl⟩

theorem left_commit [Session σ] (s : Scripted σ) :
    ((Session.commit.run s).2 : Scripted σ).faults = s.faults ∧
      ((Session.commit.run s).2 : Scripted σ).calls = s.calls ++ [.commit] := by
  obtain ⟨inner, calls, faults, failCommit, failRollback⟩ := s
  cases failCommit <;> exact ⟨rfl, rfl⟩

theorem left_rollback [Session σ] (s : Scripted σ) :
    ((Session.rollback.run s).2 : Scripted σ).faults = s.faults ∧
      ((Session.rollback.run s).2 : Scripted σ).calls = s.calls ++
        [.rollback] := by
  obtain ⟨inner, calls, faults, failCommit, failRollback⟩ := s
  cases failRollback with
  | true => exact ⟨rfl, rfl⟩
  | false =>
      change Scripted.faults
        (ExceptT.run (Access.ofExcept (Session.rollback.run inner).1) _).2 = _ ∧
        Scripted.calls (ExceptT.run
          (Access.ofExcept (Session.rollback.run inner).1) _).2 = _
      rw [Access.run_ofExcept]
      exact ⟨rfl, rfl⟩

/-- What is left of the faults follows from a history, and the texts that have
been sent are written down. -/
structure Recounts (history : List Incident) (s : Scripted σ) : Prop where
  faults : s.faults = standing [] history
  statements : s.statements = sentIn history

namespace Recounts

variable {history : List Incident} {s s' : Scripted σ} {call : Call}

theorem statements_eq (h : Recounts history s)
    (hcalls : s'.calls = s.calls ++ [call]) :
    s'.statements = sentIn history ++ call.text?.toList := by
  rw [← h.statements, Scripted.statements, Scripted.statements, hcalls,
    List.filterMap_append, List.filterMap_cons, List.filterMap_nil]
  cases call.text? <;> rfl

theorem sent {text : String} (h : Recounts history s)
    (hcall : call.text? = some text)
    (hleft : s'.faults = (meet text s.faults).2 ∧
      s'.calls = s.calls ++ [call]) :
    Recounts (history ++ [.sent text]) s' where
  faults := by
    rw [hleft.1, h.faults, standing_sent]
    rfl
  statements := by
    rw [h.statements_eq hleft.2, hcall, sentIn, sentIn, List.filterMap_append]
    rfl

theorem unsent (h : Recounts history s) (hcall : call.text? = none)
    (hleft : s'.faults = s.faults ∧ s'.calls = s.calls ++ [call]) :
    Recounts history s' where
  faults := hleft.1.trans h.faults
  statements := by
    rw [h.statements_eq hleft.2, hcall]
    exact List.append_nil _

end Recounts

theorem After.recounts [Session σ] {history : List Incident} {s : Scripted σ}
    (h : After history s) :
    Recounts history s := by
  induction h with
  | new inner => exact ⟨rfl, rfl⟩
  | arm h fault ih =>
      refine ⟨?_, ?_⟩
      · rw [standing_armed, ← ih.faults]
        rfl
      · rw [sentIn, List.filterMap_append]
        exact ih.statements.trans (List.append_nil _).symm
  | @execute _ s _ statement params ih =>
      exact ih.sent rfl (left_screened
        (.execute (statement.render (Session.dialect s.inner)) params)
        (statement.render (Session.dialect s.inner))
        (Session.execute statement params) s)
  | @query _ s _ statement params ih =>
      exact ih.sent rfl (left_screened
        (.query (statement.render (Session.dialect s.inner)) params)
        (statement.render (Session.dialect s.inner))
        (Session.query statement params) s)
  | beginTransaction _ ih => exact ih.unsent rfl (left_begin _)
  | commit _ ih => exact ih.unsent rfl (left_commit _)
  | rollback _ ih => exact ih.unsent rfl (left_rollback _)
  | failCommit _ failCommit ih => exact ⟨ih.faults, ih.statements⟩
  | failRollback _ failRollback ih => exact ⟨ih.faults, ih.statements⟩

def Fires (history : List Incident) (text : String) (fault : Fault) : Prop :=
  FiresFrom [] history text fault

/-- What a fault is armed for: its fragment occurs in a text, and since it was
armed as many texts with the fragment have been sent as it lets through. -/
def Due (history : List Incident) (text : String) (fault : Fault) : Prop :=
  ∃ before after, history = before ++ .armed fault :: after ∧
    fault.concerns text = true ∧
    fault.skip ≤ (sentIn after).countP fault.concerns

/-- The fragments of two faults occur in one text only if neither of these lets
anything through. -/
def Apart (history : List Incident) (text : String) : Prop :=
  ∀ before fault after, history = before ++ .armed fault :: after →
    ∀ other ∈ armedIn before,
    ∀ t ∈ text :: sentIn after, fault.concerns t = true →
      other.concerns t = true →
      fault.skip = 0 ∧ other.skip = 0

variable {history : List Incident} {text : String} {fault : Fault}

theorem Fires.due (h : Fires history text fault) : Due history text fault := by
  obtain ⟨before, after, rfl, hdecides, hskip⟩ := h
  refine ⟨before, after, rfl, (Bool.and_eq_true_iff.mp hdecides).1,
    Nat.le_trans hskip ?_⟩
  exact List.countP_mono_left fun t _ ht => (Bool.and_eq_true_iff.mp ht).1

theorem exists_decides (h : (armedIn history).any (·.concerns text) = true) :
    ∃ before fault after, history = before ++ .armed fault :: after ∧
      decides (armedIn before) fault text = true := by
  induction history with
  | nil => cases h
  | cons i rest ih =>
      cases i with
      | sent other =>
          obtain ⟨before, fault, after, rfl, hdecides⟩ := ih h
          exact ⟨.sent other :: before, fault, after, rfl, hdecides⟩
      | armed other =>
          cases hother : other.concerns text with
          | true =>
              exact ⟨[], other, rest, rfl, by simp [decides, hother, armedIn]⟩
          | false =>
              have hlater : (armedIn rest).any (·.concerns text) = true := by
                simpa [armedIn, Incident.fault?, hother] using h
              obtain ⟨before, fault, after, rfl, hdecides⟩ := ih hlater
              refine ⟨.armed other :: before, fault, after, rfl, ?_⟩
              simpa [decides, armedIn, Incident.fault?, hother] using hdecides

theorem Due.exists_fires (h : Due history text fault)
    (hapart : Apart history text) :
    ∃ fault, Fires history text fault := by
  obtain ⟨before, after, rfl, hconcerns, hskip⟩ := h
  have hpair := hapart before fault after rfl
  cases hearlier : (armedIn before).any (·.concerns text) with
  | true =>
      obtain ⟨earliest, first, between, rfl, hdecides⟩ :=
        exists_decides hearlier
      have hfirst := (Bool.and_eq_true_iff.mp hdecides).1
      have harmed : first ∈ armedIn (earliest ++ .armed first :: between) := by
        simp [armedIn, Incident.fault?]
      have hnone :=
        (hpair first harmed text List.mem_cons_self hconcerns hfirst).2
      exact ⟨first, earliest, between ++ .armed fault :: after, by simp,
        hdecides, hnone ▸ Nat.zero_le _⟩
  | false =>
      refine ⟨fault, before, after,
        rfl, by simp [decides, hconcerns, hearlier], ?_⟩
      rcases Nat.eq_zero_or_pos fault.skip with hzero | hpos
      · exact hzero ▸ Nat.zero_le _
      -- the texts that concern the fault are not taken by a fault before it
      refine Nat.le_trans hskip
        (Nat.le_of_eq (List.countP_congr fun t ht => ?_))
      constructor
      · intro hfault
        have hothers : (armedIn before).any (·.concerns t) = false := by
          refine List.any_eq_false.mpr fun other hother hconcerned => ?_
          exact Nat.ne_of_gt hpos
            (hpair other hother t (List.mem_cons_of_mem _ ht) hfault
              hconcerned).1
        simp [decides, hfault, hothers]
      · exact fun hdecides => (Bool.and_eq_true_iff.mp hdecides).1

theorem meet_faults {faults : List Fault} {f : Failure}
    (h : (meet text faults).1 = some f) :
    (meet text faults).2 = faults := by
  induction faults with
  | nil => cases h
  | cons fault faults ih =>
      cases hfault : fault.concerns text with
      | true =>
          rw [meet_concerned hfault] at h ⊢
          obtain ⟨hskip, -⟩ := Option.ite_none_right_eq_some.mp h
          obtain ⟨fragment, skip⟩ := fault
          cases hskip
          rfl
      | false =>
          rw [meet_unconcerned hfault] at h ⊢
          exact congrArg _ (ih h)

section Firing

variable [Session σ]

def textOf (s : Scripted σ) (statement : Statement) : String :=
  statement.render (Session.dialect s.inner)

/-- A call was written down and made to fail, and nothing else has happened. -/
def Stopped {α : Type} (s : Scripted σ) (call : Call) (fault : Fault)
    (after : Except Failure α × Scripted σ) : Prop :=
  after = (.error (failureOf fault), { s with calls := s.calls ++ [call] })

/-- A call was written down and passed on. -/
structure PassedOn {α : Type} (s : Scripted σ) (call : Call)
    (access : Access σ α) (after : Except Failure α × Scripted σ) : Prop where
  outcome : after.1 = (access.run s.inner).1
  inner : after.2.inner = (access.run s.inner).2
  calls : after.2.calls = s.calls ++ [call]

theorem After.run_screened {s : Scripted σ} (h : After history s) {α : Type}
    (call : Call) (text : String) (access : Access σ α) :
    (∀ fault, Fires history text fault → Stopped s call fault
      ((do record call; screen text; pass access :
        Access (Scripted σ) α).run s)) ∧
    ((¬∃ fault, Fires history text fault) → PassedOn s call access
      ((do record call; screen text; pass access : Access (Scripted σ) α).run
        s)) := by
  have hmeet (f : Failure) : (meet text s.faults).1 = some f ↔
      ∃ fault, Fires history text fault ∧ failureOf fault = f :=
    h.recounts.faults ▸ meet_standing rfl history f
  rw [Scripted.run_screened]
  constructor
  · intro fault hfires
    have hfails := (hmeet _).mpr ⟨fault, hfires, rfl⟩
    rw [hfails, meet_faults hfails]
    rfl
  · intro hnone
    cases hfails : (meet text s.faults).1 with
    | none => exact ⟨rfl, rfl, rfl⟩
    | some f =>
        obtain ⟨fault, hfires, -⟩ := (hmeet f).mp hfails
        exact absurd ⟨fault, hfires⟩ hnone

/-- A fault decides alone of the texts that it is the first to concern, and
fires when as many of these have been sent as it lets through.  A statement for
which no fault fires is passed on, one for which a fault fires is not; either
way it is written down, in its turn.  What fires is due, and if no two faults
are for one text, except such as let nothing through, a statement fails just if
a fault is due. -/
theorem After.faults_fire {s : Scripted σ} (h : After history s) :
    s.statements = sentIn history ∧
    ∀ (statement : Statement) (params : List Value),
      (∀ fault, Fires history (s.textOf statement) fault →
        Stopped s (.execute (s.textOf statement) params) fault
          ((Session.execute statement params).run s) ∧
        Stopped s (.query (s.textOf statement) params) fault
          ((Session.query statement params).run s)) ∧
      ((¬∃ fault, Fires history (s.textOf statement) fault) →
        PassedOn s (.execute (s.textOf statement) params)
          (Session.execute statement params)
          ((Session.execute statement params).run s) ∧
        PassedOn s (.query (s.textOf statement) params)
          (Session.query statement params)
          ((Session.query statement params).run s)) ∧
      (∀ fault, Fires history (s.textOf statement) fault →
        Due history (s.textOf statement) fault) ∧
      (Apart history (s.textOf statement) →
        ((∃ fault, Fires history (s.textOf statement) fault) ↔
          ∃ fault, Due history (s.textOf statement) fault)) := by
  refine ⟨h.recounts.statements, fun statement params => ?_⟩
  obtain ⟨hexecuteStopped, hexecutePassed⟩ := h.run_screened
    (.execute (s.textOf statement) params) (s.textOf statement)
    (Session.execute statement params)
  obtain ⟨hqueryStopped, hqueryPassed⟩ := h.run_screened
    (.query (s.textOf statement) params) (s.textOf statement)
    (Session.query statement params)
  refine ⟨fun fault hfires =>
    ⟨hexecuteStopped fault hfires, hqueryStopped fault hfires⟩,
      fun hnone => ⟨hexecutePassed hnone, hqueryPassed hnone⟩,
        fun fault hfires => hfires.due,
      fun hapart => ?_⟩
  constructor
  · rintro ⟨fault, hfires⟩
    exact ⟨fault, hfires.due⟩
  · rintro ⟨fault, hdue⟩
    exact hdue.exists_fires hapart

end Firing

/-- The second of two faults lets nothing through, the first one lets one text
through. -/
def overlapping : List Incident :=
  [.armed { fragment := "INSERT", skip := 1 },
    .armed { fragment := "INSERT INTO branches" }]

def twiceArmed : Scripted Canned :=
  { inner := { dialect := .sqlite },
    faults := [{ fragment := "INSERT", skip := 1 },
      { fragment := "INSERT INTO branches" }] }

theorem after_overlapping : After overlapping twiceArmed :=
  .arm (.arm (.new _) _) _

/-- The text that is let through counts for the fault that lets it through,
which makes the next one fail. -/
theorem stopped_overlapping :
    After (overlapping ++ [.sent (twiceArmed.textOf (.insert branches))])
        ((Session.execute (.insert branches) []).run twiceArmed).2 ∧
      Stopped ((Session.execute (.insert branches) []).run twiceArmed).2
        (.execute (twiceArmed.textOf (.insert branches)) [])
        { fragment := "INSERT", skip := 1 }
        ((Session.execute (.insert branches) []).run
          ((Session.execute (.insert branches) []).run twiceArmed).2) := by
  have hafter : After
      (overlapping ++ [.sent (twiceArmed.textOf (.insert branches))])
      ((Session.execute (.insert branches) []).run twiceArmed).2 :=
    after_overlapping.execute (.insert branches) []
  have hfires : Fires
      (overlapping ++ [.sent (twiceArmed.textOf (.insert branches))])
      (twiceArmed.textOf (.insert branches))
      { fragment := "INSERT", skip := 1 } :=
    ⟨[], [.armed { fragment := "INSERT INTO branches" },
      .sent (twiceArmed.textOf (.insert branches))],
      rfl, by decide +kernel, by decide +kernel⟩
  exact ⟨hafter, ((hafter.faults_fire.2 (.insert branches) []).1 _ hfires).1⟩

/-- A statement may succeed although a fault is due: one that is armed before
has let it through. -/
theorem due_fault_passed_over :
    ¬∀ (history : List Incident) (s : Scripted Canned), After history s →
      ∀ (statement : Statement) (params : List Value),
        (∃ fault, Due history (s.textOf statement) fault) →
          ∃ fault, .armed fault ∈ history ∧
            ((Session.execute statement params).run s).1 =
              .error (failureOf fault) := by
  intro hfires
  have hdue : Due overlapping (twiceArmed.textOf (.insert branches))
      { fragment := "INSERT INTO branches" } :=
    ⟨[.armed { fragment := "INSERT", skip := 1 }], [], rfl, by decide +kernel,
      Nat.le_refl 0⟩
  obtain ⟨fault, -, hfailed⟩ :=
    hfires overlapping twiceArmed after_overlapping (.insert branches) []
      ⟨_, hdue⟩
  have hpassed : ((Session.execute (.insert branches) []).run twiceArmed).1 =
      .ok 1 := by
    rfl
  rw [hpassed] at hfailed
  cases hfailed

end Scripted

end Annals
