import Annals.Proofs.Parallels
import Annals.Proofs.Windows

/-!
What is sent to a session depends on how many records there are and on which of
them are stored already, but not on what they hold: the values of records go
beside the statements, never into them.
-/

namespace Annals

open Annals.Log Annals.Sql Annals.Stream Annals.Time

variable {σ τ ω ψ α β κ : Type}

def Record.SameState [Record α] (a b : α) : Prop :=
  Record.isPersisted a = Record.isPersisted b

/-- Commits that are both stored or both new, and whose times can be stored both
or neither. -/
structure Commit.SameShape (c d : Commit) : Prop where
  state : Record.SameState c d
  committedAt : (Value.ofInstant c.committedAt).isOk =
    (Value.ofInstant d.committedAt).isOk

structure Branch.SameShape (b c : Branch) : Prop where
  state : Record.SameState b c
  createdAt : (Value.ofInstant b.createdAt).isOk =
    (Value.ofInstant c.createdAt).isOk
  mergedAt : (Value.ofOptionalInstant b.mergedAt).isOk =
    (Value.ofOptionalInstant c.mergedAt).isOk

/-- Identities that are both stored or both new, with as many aliases in the
same states. -/
structure Identity.SameShape (i j : Identity) : Prop where
  state : Record.SameState i j
  aliases : List.Forall₂ Record.SameState i.aliases j.aliases

def Script.Subject.SameShape : (s : Subject) → s.Entity → s.Entity → Prop
  | commit => Commit.SameShape
  | branch => Branch.SameShape
  | identity => Identity.SameShape

/-- The statement that looks a record up. -/
def Script.Subject.lookupStatement : Subject → Statement
  | commit => .select commits .withKey
  | branch => .select branches .withKey
  | identity => .selectFamily identities identityAliases Alias.ownerColumn true

theorem Script.Subject.selection_key (s : Subject) (key : EntityId) :
    (s.adapter.selection (some key)).1 = s.lookupStatement := by
  cases s <;> rfl

/-- The window of commits ends before it starts, or one of its bounds cannot be
stored. -/
def Commit.Refuses (start stop : Instant) : Prop :=
  stop.before start = true ∨ ¬Fits start ∨ ¬Fits stop

namespace Record

variable [Record α] {a b : α}

theorem SameState.cases (h : SameState a b) :
    (id? a = none ∧ id? b = none) ∨ ∃ i j, id? a = some i ∧ id? b = some j := by
  have hsome : (id? a).isSome = (id? b).isSome := h
  cases ha : id? a with
  | none =>
      rw [ha] at hsome
      exact .inl ⟨rfl, Option.isNone_iff_eq_none.mp (by simpa using hsome.symm)⟩
  | some i =>
      rw [ha] at hsome
      obtain ⟨j, hj⟩ := Option.isSome_iff_exists.mp hsome.symm
      exact .inr ⟨i, j, rfl, hj⟩

end Record

theorem Script.Subject.SameShape.state {s : Script.Subject} {a b : s.Entity}
    (h : s.SameShape a b) :
    Record.SameState a b := by
  cases s with
  | commit => exact Commit.SameShape.state h
  | branch => exact Branch.SameShape.state h
  | identity => exact Identity.SameShape.state h

theorem shape_of_isOk {a b : Except Failure α} (h : a.isOk = b.isOk) :
    shape (fun _ => ()) (a.mapError .failed) =
      shape (fun _ => ()) (b.mapError .failed) := by
  cases a <;> cases b <;> first | rfl | cases h

theorem Adapter.isOk_single (a : Adapter α) (key key' : EntityId)
    (stream : RecordStream α) :
    (a.single key stream).isOk = (a.single key' stream).isOk := by
  unfold single
  rcases stream.step with ⟨_ | f | found, rest⟩
  · rfl
  · rfl
  · dsimp only
    rcases rest.step.1 with _ | f | other <;> simp [Except.isOk, Except.toBool]

theorem Script.Subject.storedIds_parallel {s : Subject}
    {batch batch' : List s.Entity} (h : List.Forall₂ s.SameShape batch batch') :
    Parallel (s.adapter.storedIds batch : Action (Traced σ) ω (List EntityId))
      (s.adapter.storedIds batch' : Action (Traced τ) ψ (List EntityId))
        List.length := by
  unfold Adapter.storedIds
  refine (Parallel.see fun _ _ hlevel =>
    congrArg Options.deletePolicy hlevel.options).bind ?_
  rintro policy _ rfl
  refine (Parallel.mapM (f := Option.isSome) h fun a b hab => ?_).bind
    fun found found' hfound => ?_
  · obtain ⟨ha, hb⟩ | ⟨key, key', ha, hb⟩ := hab.state.cases
    · rw [ha, hb]
      cases policy with
      | logAndSkip => exact (Parallel.report _ _).bind fun _ _ _ => .pure rfl
      | reject => exact .fail _ _
    · rw [ha, hb]
      exact .pure rfl
  · have hcount (found : List (Option EntityId)) :
        (found.filterMap id).length = (found.map Option.isSome).countP id := by
      rw [List.length_filterMap_eq_countP, List.countP_map]
      rfl
    exact .pure (by rw [hcount, hcount, hfound])

section Rows

variable [Session σ] [Session τ]

namespace Commit

theorem SameShape.payload {c d : Commit} (h : SameShape c d) :
    c.payload.isOk = d.payload.isOk := by
  have hcommitted := h.committedAt
  unfold Commit.payload
  cases hc : Value.ofInstant c.committedAt <;> cases hd :
    Value.ofInstant d.committedAt <;>
    rw [hc, hd] at hcommitted <;> first | rfl | cases hcommitted

theorem SameShape.insertRow {c d : Commit} (h : SameShape c d) :
    Parallel (insertRow c : Action (Traced σ) ω Keys)
      (insertRow d : Action (Traced τ) ψ Keys)
      fun _ => () := by
  refine (Parallel.nextId _).bind fun _ _ _ => ?_
  refine (Parallel.ofExcept (shape_of_isOk h.payload)).bind fun _ _ _ => ?_
  exact (Parallel.perform _ _ _).bind fun _ _ _ => .pure rfl

theorem SameShape.updateRow {c d : Commit} (h : SameShape c d) :
    Parallel (updateRow c : Action (Traced σ) ω (Nat × Keys))
      (updateRow d : Action (Traced τ) ψ (Nat × Keys)) Prod.fst := by
  unfold Commit.updateRow
  obtain ⟨hc, hd⟩ | ⟨i, j, hc, hd⟩ := h.state.cases
  · rw [hc, hd]
    exact h.insertRow.bind fun _ _ _ => .pure rfl
  · rw [hc, hd]
    refine (Parallel.ofExcept (shape_of_isOk h.payload)).bind fun _ _ _ => ?_
    exact (Parallel.execute _ _ _).bind fun _ _ hcount => .pure hcount

end Commit

theorem Branch.SameShape.insertRow {b c : Branch} (h : SameShape b c) :
    Parallel (insertRow b : Action (Traced σ) ω Keys)
      (insertRow c : Action (Traced τ) ψ Keys)
      fun _ => () := by
  refine (Parallel.nextId _).bind fun _ _ _ => ?_
  refine (Parallel.ofExcept (shape_of_isOk h.createdAt)).bind fun _ _ _ => ?_
  refine (Parallel.ofExcept (shape_of_isOk h.mergedAt)).bind fun _ _ _ => ?_
  exact (Parallel.perform _ _ _).bind fun _ _ _ => .pure rfl

theorem Alias.insertRow_parallel {a b : Alias} (h : Record.SameState a b)
    (owner owner' : EntityId) :
    Parallel (insertRow owner a : Action (Traced σ) ω EntityId)
      (insertRow owner' b : Action (Traced τ) ψ EntityId) fun _ => () := by
  have hperform (id id' : EntityId) : Parallel (do
      Store.perform (.insert identityAliases)
        [Value.ofId id, Value.ofId owner, .text a.name, .text a.email]
      return id : Action (Traced σ) ω EntityId) (do
      Store.perform (.insert identityAliases)
        [Value.ofId id', Value.ofId owner', .text b.name, .text b.email]
      return id' : Action (Traced τ) ψ EntityId) fun _ => () :=
    (Parallel.perform _ _ _).bind fun _ _ _ => .pure rfl
  unfold Alias.insertRow
  obtain ⟨ha, hb⟩ | ⟨i, j, ha, hb⟩ := h.cases
  · rw [show a.ident.id? = none from ha, show b.ident.id? = none from hb]
    exact (Parallel.nextId _).bind fun id id' _ => hperform id id'
  · rw [show a.ident.id? = some i from ha, show b.ident.id? = some j from hb]
    exact hperform i j

namespace Identity

theorem SameShape.insertRows {i j : Identity} (h : SameShape i j) :
    Parallel (insertRows i : Action (Traced σ) ω Keys)
      (insertRows j : Action (Traced τ) ψ Keys)
      fun _ => () := by
  refine (Parallel.nextId _).bind fun id id' _ => ?_
  refine (Parallel.perform _ _ _).bind fun _ _ _ => ?_
  exact (Parallel.mapM h.aliases fun a b hab =>
    Alias.insertRow_parallel hab id id').bind
      fun _ _ _ => .pure rfl

theorem SameShape.updateRows {i j : Identity} (h : SameShape i j) :
    Parallel (updateRows i : Action (Traced σ) ω (Nat × Keys))
      (updateRows j : Action (Traced τ) ψ (Nat × Keys)) Prod.fst := by
  unfold Identity.updateRows
  obtain ⟨hi, hj⟩ | ⟨key, key', hi, hj⟩ := h.state.cases
  · rw [hi, hj]
    exact h.insertRows.bind fun _ _ _ => .pure rfl
  · rw [hi, hj]
    refine (Parallel.execute _ _ _).bind ?_
    rintro affected _ rfl
    dsimp only [id]
    split
    · exact .pure rfl
    · refine (Parallel.perform _ _ _).bind fun _ _ _ => ?_
      exact (Parallel.mapM h.aliases fun a b hab =>
        Alias.insertRow_parallel hab key key').bind
          fun _ _ _ => .pure rfl

theorem deleteRows_parallel (key key' : EntityId) :
    Parallel (deleteRows key : Action (Traced σ) ω Nat)
      (deleteRows key' : Action (Traced τ) ψ Nat)
      id :=
  (Parallel.perform _ _ _).bind fun _ _ _ => Parallel.execute _ _ _

end Identity

namespace Script.Subject

variable {s : Subject} {a b : s.Entity} {batch batch' : List s.Entity}

theorem SameShape.insert (h : s.SameShape a b) :
    Parallel (s.adapter.insert a : Action (Traced σ) ω Keys)
      (s.adapter.insert b : Action (Traced τ) ψ Keys) fun _ => () := by
  cases s with
  | commit => exact Commit.SameShape.insertRow h
  | branch => exact Branch.SameShape.insertRow h
  | identity => exact Identity.SameShape.insertRows h

theorem SameShape.update (h : s.SameShape a b) :
    Parallel (s.adapter.update a : Action (Traced σ) ω (Nat × Keys))
      (s.adapter.update b : Action (Traced τ) ψ (Nat × Keys)) Prod.fst := by
  cases s with
  | commit => exact Commit.SameShape.updateRow h
  | branch => exact .fail _ _
  | identity => exact Identity.SameShape.updateRows h

theorem delete_parallel (s : Subject) (key key' : EntityId) :
    Parallel (s.adapter.delete key : Action (Traced σ) ω Nat)
      (s.adapter.delete key' : Action (Traced τ) ψ Nat) id := by
  cases s with
  | commit => exact .execute _ _ _
  | branch => exact .fail _ _
  | identity => exact Identity.deleteRows_parallel key key'

theorem SameShape.writeOne (h : s.SameShape a b) :
    Parallel (s.adapter.writeOne a : Action (Traced σ) ω Keys)
      (s.adapter.writeOne b : Action (Traced τ) ψ Keys) fun _ => () := by
  unfold Adapter.writeOne
  obtain ⟨ha, hb⟩ | ⟨key, key', ha, hb⟩ := h.state.cases
  · rw [ha, hb]
    exact SameShape.insert h
  · rw [ha, hb]
    refine (SameShape.update h).bind ?_
    rintro ⟨affected, keys⟩ ⟨_, keys'⟩ rfl
    dsimp only
    split
    · exact .pure rfl
    · exact .fail _ _

theorem any_isPersisted (h : List.Forall₂ s.SameShape batch batch')
    (test : Bool → Bool) :
    (batch.any fun record => test (Record.isPersisted record)) =
      batch'.any fun record => test (Record.isPersisted record) := by
  induction h with
  | nil => rfl
  | cons hab _ ih => rw [List.any_cons, List.any_cons, ih, SameShape.state hab]

theorem submit_parallel (h : List.Forall₂ s.SameShape batch batch')
    (needed : List Capability) (op : String) :
    Parallel (s.adapter.submit needed op batch :
      Action (Traced σ) ω (Written s.Entity))
      (s.adapter.submit needed op batch' :
        Action (Traced τ) ψ (Written s.Entity)) fun _ => () := by
  unfold Adapter.submit
  cases s.adapter.requireAll needed with
  | error f => exact .pure rfl
  | ok _ =>
      unfold Adapter.writeBatch
      cases h with
      | nil => exact .pure rfl
      | cons hab hrest =>
          refine (Parallel.mapM (.cons hab hrest) fun _ _ h =>
            SameShape.writeOne h).write.observe.bind
              fun outcome outcome' _ => ?_
          cases outcome <;> cases outcome' <;> exact .pure rfl

theorem save_parallel (h : List.Forall₂ s.SameShape batch batch') :
    Parallel (s.adapter.save batch : Action (Traced σ) ω (Written s.Entity))
      (s.adapter.save batch' : Action (Traced τ) ψ (Written s.Entity)) fun _ =>
        () := by
  unfold Adapter.save
  rw [show batch.any Record.isPersisted = batch'.any Record.isPersisted from
    any_isPersisted h id]
  exact submit_parallel h _ _

theorem updateAll_parallel (h : List.Forall₂ s.SameShape batch batch') :
    Parallel (s.adapter.updateAll batch :
      Action (Traced σ) ω (Written s.Entity))
      (s.adapter.updateAll batch' : Action (Traced τ) ψ (Written s.Entity))
        fun _ => () := by
  unfold Adapter.updateAll
  rw [any_isPersisted h not]
  exact submit_parallel h _ _

theorem removeOne_parallel (s : Subject) (key key' : EntityId) :
    Parallel (s.adapter.removeOne key : Action (Traced σ) ω Nat)
      (s.adapter.removeOne key' : Action (Traced τ) ψ Nat) fun _ => () := by
  refine (s.delete_parallel key key').bind ?_
  rintro affected _ rfl
  dsimp only [id]
  split
  · exact .pure rfl
  · exact .fail _ _

theorem deleteAll_parallel (h : List.Forall₂ s.SameShape batch batch') :
    Parallel (s.adapter.deleteAll batch : Action (Traced σ) ω Nat)
      (s.adapter.deleteAll batch' : Action (Traced τ) ψ Nat) fun _ => () := by
  unfold Adapter.deleteAll
  refine (Parallel.ofExcept (f := id) rfl).bind fun _ _ _ => ?_
  refine (storedIds_parallel h).bind fun ids ids' hlength => ?_
  have hids : List.Forall₂ (fun _ _ => True) ids ids' :=
    List.forall₂_iff_get.mpr ⟨hlength, fun _ _ _ => trivial⟩
  cases hids with
  | nil => exact .pure rfl
  | cons _ hrest =>
      refine Parallel.write ?_
      exact (Parallel.mapM (.cons trivial hrest) fun key key' _ =>
        s.removeOne_parallel key key').bind
          fun _ _ _ => .pure rfl

theorem lookup_parallel (s : Subject) (key key' : EntityId) :
    Parallel (s.adapter.lookup key : Action (Traced σ) ω (Option s.Entity))
      (s.adapter.lookup key' : Action (Traced τ) ψ (Option s.Entity)) fun _ =>
        () := by
  refine (Parallel.see fun _ _ hlevel =>
    congrArg Options.checkGroupOrdering hlevel.options).bind ?_
  rintro check _ rfl
  change Parallel (Store.scan (s.adapter.selection (some key)).1 _ _ _)
    (Store.scan (s.adapter.selection (some key')).1 _ _ _) _
  rw [s.selection_key, s.selection_key]
  exact .scan _ _ _ _ fun stream _ =>
    .ofExcept (shape_of_isOk (s.adapter.isOk_single key key' stream))

theorem loadMany_parallel (s : Subject) {keys keys' : List EntityId}
    (h : keys.length = keys'.length) :
    Parallel (s.adapter.loadMany keys : Action (Traced σ) ω (List s.Entity))
      (s.adapter.loadMany keys' : Action (Traced τ) ψ (List s.Entity)) fun _ =>
        () := by
  have hkeys : List.Forall₂ (fun _ _ => True) keys keys' :=
    List.forall₂_iff_get.mpr ⟨h, fun _ _ _ => trivial⟩
  refine (Parallel.ofExcept (f := id) rfl).bind fun _ _ _ => ?_
  exact (Parallel.mapM hkeys fun key key' _ => s.lookup_parallel key key').bind
    fun _ _ _ => .pure rfl

end Script.Subject

end Rows

def textsIn (d : Dialect) (xs : List Exchange) : List String :=
  (xs.filterMap Exchange.statement?).map (Statement.render d)

/-- An action sends these statements and no others. -/
def Sends (m : Action (Traced σ) ω α) (w : World (Traced σ) ω)
    (statements : List Statement) : Prop :=
  ∃ xs, (m.exec w).2.exchanges = w.exchanges ++ xs ∧
    xs.filterMap Exchange.statement? = statements

def Silent (m : Action (Traced σ) ω α) : Prop :=
  ∀ w, (m.exec w).2.exchanges = w.exchanges

/-- Two actions make the same calls, and send the same texts in every dialect,
if their sessions give the same answers. -/
def SendAlike (m : Action (Traced σ) ω α) (w : World (Traced σ) ω)
    (n : Action (Traced τ) ψ α) (v : World (Traced τ) ψ) : Prop :=
  ∃ xs ys, (m.exec w).2.exchanges = w.exchanges ++ xs ∧
    (n.exec v).2.exchanges = v.exchanges ++ ys ∧
    (SameAnswers xs ys →
      xs.map Exchange.request = ys.map Exchange.request ∧
      ∀ d, textsIn d xs = textsIn d ys)

def Request.statement? : Request → Option Statement
  | execute statement => some statement
  | query statement => some statement
  | _ => none

theorem textsIn_eq (d : Dialect) (xs : List Exchange) :
    textsIn d xs = ((xs.map Exchange.request).filterMap Request.statement?).map
      (Statement.render d) := by
  rw [textsIn, List.filterMap_map]
  congr 2
  funext x
  cases x <;> rfl

theorem Parallel.sendAlike {m : Action (Traced σ) ω α}
    {n : Action (Traced τ) ψ α} {f : α → κ} (h : Parallel m n f)
    {w : World (Traced σ) ω} {v : World (Traced τ) ψ} (hlevel : w.Level v) :
    SendAlike m w n v := by
  obtain ⟨xs, ys, hxs, hys, hrequests⟩ := h.exists_requests hlevel
  refine ⟨xs, ys, hxs, hys, fun hanswers => ⟨hrequests hanswers, fun d => ?_⟩⟩
  rw [textsIn_eq, textsIn_eq, hrequests hanswers]

theorem Silent.behind {m : Action (Traced σ) ω α}
    {k : α → Action (Traced σ) ω β} (hk : ∀ a, Silent (k a))
    (w : World (Traced σ) ω) :
    ((m >>= k).exec w).2.exchanges = (m.exec w).2.exchanges := by
  rcases hrun : m.exec w with ⟨stop | a, w'⟩
  · rw [Action.exec_bind_error hrun]
  · rw [Action.exec_bind_ok hrun]
    exact hk a w'

theorem Silent.bind {m : Action (Traced σ) ω α} {k : α → Action (Traced σ) ω β}
    (hm : Silent m) (hk : ∀ a, Silent (k a)) : Silent (m >>= k) :=
  fun w => (Silent.behind hk w).trans (hm w)

theorem Silent.ofExcept (e : Except Failure α) :
    Silent (Action.ofExcept e : Action (Traced σ) ω α) :=
  fun w => by rw [Action.exec_ofExcept]

section Sent

variable [Session σ]

theorem sends_scan (statement : Statement) (params : List Value) {ρ : Type}
    (records : Cursor → Except Failure (RecordStream ρ))
    {visit : Scan (Traced σ) ρ → Action (Traced σ) ω α}
    (hvisit : ∀ r, Silent (visit r)) (w : World (Traced σ) ω) :
    Sends (Store.scan statement params records visit) w [statement] := by
  have hread (cursor : Cursor) : Silent (do
      let stream ← Action.ofExcept (records cursor)
      visit { statement, params, stream, left := cursor.left } :
        Action (Traced σ) ω α) :=
    (Silent.ofExcept _).bind fun _ => hvisit _
  refine ⟨[.queried statement params ((Session.query statement params).run
    w.store.session.inner).1], ?_, rfl⟩
  unfold Store.scan Store.query
  refine (Silent.behind (fun openings => ?_) w).trans rfl
  rcases openings with _ | ⟨cursor, _ | ⟨cursor', rest⟩⟩
  · exact fun _ => rfl
  · exact hread cursor
  · exact (hread cursor).bind fun _ _ => rfl

theorem Script.Subject.sends_load (s : Subject) (key : EntityId)
    (w : World (Traced σ) ω) :
    Sends (s.adapter.load key) w [s.lookupStatement] := by
  have hallowed : s.adapter.require .loadById = .ok () := by cases s <;> rfl
  have hload : (s.adapter.load key).exec w =
      (Store.scan s.lookupStatement (s.adapter.selection (some key)).2
        (s.adapter.records w.store.options.checkGroupOrdering)
        fun r => Action.ofExcept (s.adapter.single key r.stream)).exec w := by
    unfold Adapter.load Adapter.lookup
    rw [Action.exec_require_bind hallowed, Adapter.exec_scan, s.selection_key]
  unfold Sends
  rw [hload]
  exact sends_scan _ _ _ (fun _ => .ofExcept _) w

/-- A window is read by one statement, and by none if it is refused. -/
theorem Commit.sends_scanBetween (start stop : Instant)
    {visit : Scan (Traced σ) Commit → Action (Traced σ) ω α}
    (hvisit : ∀ r, Silent (visit r)) (w : World (Traced σ) ω) :
    (Refuses start stop → Sends (scanBetween start stop visit) w []) ∧
      (¬Refuses start stop →
        Sends (scanBetween start stop visit) w [selectWindow]) := by
  unfold Sends
  constructor
  · intro hrefused
    obtain ⟨f, hexec, -⟩ := exec_scanBetween_refused hrefused visit w
    rw [hexec]
    exact ⟨[], (List.append_nil _).symm, rfl⟩
  · intro haccepted
    simp only [Refuses, not_or, not_not, Bool.not_eq_true] at haccepted
    obtain ⟨hbefore, hstart, hstop⟩ := haccepted
    obtain ⟨low, hlow⟩ := Value.exists_ofInstant_eq_ok.mpr hstart
    obtain ⟨high, hhigh⟩ := Value.exists_ofInstant_eq_ok.mpr hstop
    rw [exec_scanBetween hbefore hlow hhigh]
    exact sends_scan _ _ _ hvisit w

end Sent

/-- No value gets into a statement.  Batches of the same shape, whatever their
records hold, are written and deleted by the same texts if the sessions give the
same answers, and so are as many records looked up.  One record is looked up by
one text, whatever its identifier is, and a window of commits is read by one
text, whatever its bounds are, unless it is refused. -/
theorem Script.Subject.texts_without_values [Session σ] [Session τ]
    (s : Subject) {w : World (Traced σ) ω} {v : World (Traced τ) ψ}
    (hlevel : w.Level v) :
    (∀ batch batch' : List s.Entity, List.Forall₂ s.SameShape batch batch' →
      SendAlike (s.adapter.save batch) w (s.adapter.save batch') v ∧
      SendAlike (s.adapter.updateAll batch) w (s.adapter.updateAll batch') v ∧
      SendAlike (s.adapter.deleteAll batch) w (s.adapter.deleteAll batch') v) ∧
    (∀ keys keys' : List EntityId, keys.length = keys'.length →
      SendAlike (s.adapter.loadMany keys) w (s.adapter.loadMany keys') v) ∧
    (∀ key, Sends (s.adapter.load key) w [s.lookupStatement]) ∧
    ∀ (β : Type) (start stop : Instant) (visit : Scan (Traced σ) Commit →
      Action (Traced σ) ω β), (∀ r, Silent (visit r)) →
        (Commit.Refuses start stop →
          Sends (Commit.scanBetween start stop visit) w []) ∧
        (¬Commit.Refuses start stop →
          Sends (Commit.scanBetween start stop visit) w
            [Commit.selectWindow]) := by
  refine ⟨?_, ?_, ?_, ?_⟩
  · intro batch batch' hshape
    refine ⟨?_, ?_, ?_⟩
    · exact (save_parallel hshape).sendAlike hlevel
    · exact (updateAll_parallel hshape).sendAlike hlevel
    · exact (deleteAll_parallel hshape).sendAlike hlevel
  · intro keys keys' hlength
    exact (s.loadMany_parallel hlength).sendAlike hlevel
  · intro key
    exact s.sends_load key w
  · intro β start stop visit hvisit
    exact Commit.sends_scanBetween start stop hvisit w

/-- A commit whose texts read like statements. -/
def quotingCommit : Commit :=
  { revision := "'); DROP TABLE commits; --", authorId := some ⟨3, by decide⟩,
    committedAt := .ofEpochNanos 5, message := "?, $1", linesAdded := 7 }

def plainCommit : Commit := { revision := "a1", committedAt := .ofEpochNanos 0 }

/-- A store whose session has one number to give. -/
def singleNumber : World (Traced Canned) Unit :=
  { store := Store.ofSession
      { inner :=
          { dialect := .sqlite,
            results := [.ok [.ofRows [{ values := [.integer 7] }]]] } } {},
    memory := () }

def insertReplies : List Reply :=
  [.done (.ok ()), .opened (.ok [.ofRows [{ values := [.integer 7] }]]),
    .affected (.ok 1), .done (.ok ())]

theorem texts_of_quotingCommit :
    List.Forall₂ Commit.SameShape [quotingCommit] [plainCommit] ∧
      ∃ xs ys,
        ((Commit.adapter.save [quotingCommit]).exec singleNumber).2.exchanges =
          xs ∧
        ((Commit.adapter.save [plainCommit]).exec singleNumber).2.exchanges =
          ys ∧
        SameAnswers xs ys ∧ ∀ d, textsIn d xs = textsIn d ys := by
  have hshape : List.Forall₂ Commit.SameShape [quotingCommit] [plainCommit] :=
    .cons ⟨rfl, rfl⟩ .nil
  obtain ⟨xs, ys, hxs, hys, halike⟩ :=
    ((Script.Subject.commit.texts_without_values
      (⟨rfl, rfl⟩ : singleNumber.Level singleNumber)).1 _ _ hshape).1
  change _ = xs at hxs
  change _ = ys at hys
  have hanswers : SameAnswers xs ys := by
    refine .of_replies ?_
    rw [← hxs, ← hys]
    exact (rfl : _ = insertReplies).trans rfl
  exact ⟨hshape, xs, ys, hxs, hys, hanswers, (halike hanswers).2⟩

end Annals
