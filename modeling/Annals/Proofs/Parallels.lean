import Annals.Proofs.Tracing

namespace Annals

open Annals.Log Annals.Sql Annals.Stream

variable {σ τ ω ψ α β κ ν : Type}

/-- What a call asks of a session, apart from the values that go with it. -/
inductive Request where
  | begin
  | execute (statement : Statement)
  | query (statement : Statement)
  | commit
  | undo
  | close
  deriving DecidableEq

inductive Reply where
  | done (answer : Except Failure Unit)
  | affected (answer : Except Failure Nat)
  | opened (answer : Except Failure (List Cursor))

namespace Exchange

def request : Exchange → Request
  | began _ => .begin
  | executed statement _ _ => .execute statement
  | queried statement _ _ => .query statement
  | committed _ => .commit
  | undone _ => .undo
  | closed _ => .close

def reply : Exchange → Reply
  | began answer => .done answer
  | executed _ _ answer => .affected answer
  | queried _ _ answer => .opened answer
  | committed answer => .done answer
  | undone answer => .done answer
  | closed answer => .done answer

end Exchange

/-- The sessions of two runs give the same answers: calls that ask for the same
are answered alike if the calls before them have asked for the same. -/
def SameAnswers (xs ys : List Exchange) : Prop :=
  ∀ n x y, xs[n]? = some x → ys[n]? = some y →
    (xs.take n).map Exchange.request = (ys.take n).map Exchange.request →
    x.request = y.request → x.reply = y.reply

def Together : List Exchange → List Exchange → Prop :=
  List.Forall₂ fun x y => x.request = y.request ∧ x.reply = y.reply

/-- At some call that asks for the same the answers differ for the first
time. -/
def Parted (xs ys : List Exchange) : Prop :=
  ∃ xs₁ x xs₂ ys₁ y ys₂, xs = xs₁ ++ x :: xs₂ ∧ ys = ys₁ ++ y :: ys₂ ∧
    Together xs₁ ys₁ ∧
    x.request = y.request ∧ x.reply ≠ y.reply

section Traces

variable {xs ys xs' ys' : List Exchange}

theorem Together.map_request (h : Together xs ys) :
    xs.map Exchange.request = ys.map Exchange.request := by
  induction h with
  | nil => rfl
  | cons hxy _ ih => rw [List.map_cons, List.map_cons, hxy.1, ih]

theorem Together.append (h : Together xs ys) (h' : Together xs' ys') :
    Together (xs ++ xs') (ys ++ ys') :=
  List.rel_append h h'

theorem Together.parted (h : Together xs ys) (h' : Parted xs' ys') :
    Parted (xs ++ xs') (ys ++ ys') := by
  obtain ⟨xs₁, x, xs₂, ys₁, y, ys₂, rfl, rfl, htogether, hrequest, hreply⟩ := h'
  exact ⟨xs ++ xs₁, x, xs₂, ys ++ ys₁, y, ys₂, by simp, by simp,
    h.append htogether, hrequest, hreply⟩

theorem Parted.append (h : Parted xs ys) (xs' ys' : List Exchange) :
    Parted (xs ++ xs') (ys ++ ys') := by
  obtain ⟨xs₁, x, xs₂, ys₁, y, ys₂, rfl, rfl, htogether⟩ := h
  exact ⟨xs₁, x, xs₂ ++ xs', ys₁, y, ys₂ ++ ys', by simp, by simp, htogether⟩

theorem SameAnswers.not_parted (h : SameAnswers xs ys) : ¬Parted xs ys := by
  rintro ⟨xs₁, x, xs₂, ys₁, y, ys₂, rfl, rfl, htogether, hrequest, hreply⟩
  have hlength : xs₁.length = ys₁.length := htogether.length_eq
  refine hreply (h xs₁.length x y (by simp) (by simp [hlength]) ?_ hrequest)
  rw [List.take_left, hlength, List.take_left]
  exact htogether.map_request

/-- Sessions that give the same answers one after the other give the same
answers. -/
theorem SameAnswers.of_replies (h :
    xs.map Exchange.reply = ys.map Exchange.reply) :
    SameAnswers xs ys := by
  intro n x y hx hy _ _
  have hn := congrArg (·[n]?) h
  simpa [hx, hy] using hn

end Traces

def Stop.isFailure : Stop → Bool
  | failed _ => true
  | abandoned => false

/-- What counts of an outcome, given what counts of a result: of a failure it
counts only that it is one. -/
def shape (f : α → κ) : Except Stop α → Except Bool κ
  | .ok a => .ok (f a)
  | .error stop => .error stop.isFailure

/-- Worlds whose stores are used in the same way. -/
structure World.Level (w : World σ ω) (v : World τ ψ) : Prop where
  options : w.store.options = v.store.options
  writing : w.store.writing = v.store.writing

/-- An action makes calls and takes none back. -/
def Grows (m : Action (Traced σ) ω α) : Prop :=
  ∀ w, ∃ xs, (m.exec w).2.exchanges = w.exchanges ++ xs

/-- Two actions send the same calls and come to outcomes of the same shape,
unless they get answers that are not the same. -/
structure Parallel (m : Action (Traced σ) ω α) (n : Action (Traced τ) ψ α)
    (f : α → κ) : Prop where
  left : Grows m
  right : Grows n
  went : ∀ w v, w.Level v → ∃ xs ys,
    (m.exec w).2.exchanges = w.exchanges ++ xs ∧
      (n.exec v).2.exchanges = v.exchanges ++ ys ∧
      (Parted xs ys ∨ Together xs ys ∧
        shape f (m.exec w).1 = shape f (n.exec v).1 ∧
        (m.exec w).2.Level (n.exec v).2)

theorem Grows.behind {m : Action (Traced σ) ω α} {k : α → Action (Traced σ) ω β}
    (hk : ∀ a, Grows (k a)) {w : World (Traced σ) ω} {xs : List Exchange}
    (hm : (m.exec w).2.exchanges = w.exchanges ++ xs) :
    ∃ xs', ((m >>= k).exec w).2.exchanges = w.exchanges ++ (xs ++ xs') := by
  rcases hrun : m.exec w with ⟨stop | a, w'⟩
  · rw [Action.exec_bind_error hrun]
    exact ⟨[], by rw [List.append_nil, ← hm, hrun]⟩
  · obtain ⟨xs', hxs'⟩ := hk a w'
    rw [Action.exec_bind_ok hrun]
    rw [hrun] at hm
    exact ⟨xs', by rw [hxs', hm, List.append_assoc]⟩

theorem Grows.bind {m : Action (Traced σ) ω α} {k : α → Action (Traced σ) ω β}
    (hm : Grows m) (hk : ∀ a, Grows (k a)) : Grows (m >>= k) := by
  intro w
  obtain ⟨xs, hxs⟩ := hm w
  obtain ⟨xs', hxs'⟩ := Grows.behind hk hxs
  exact ⟨xs ++ xs', hxs'⟩

namespace Parallel

variable {m : Action (Traced σ) ω α} {n : Action (Traced τ) ψ α} {f : α → κ}
    {g : β → ν}

theorem of_silent (hm : ∀ w, (m.exec w).2.exchanges = w.exchanges)
    (hn : ∀ v, (n.exec v).2.exchanges = v.exchanges)
    (h : ∀ w v, w.Level v →
      shape f (m.exec w).1 = shape f (n.exec v).1 ∧
        (m.exec w).2.Level (n.exec v).2) :
    Parallel m n f where
  left w := ⟨[], by simp [hm]⟩
  right v := ⟨[], by simp [hn]⟩
  went w v hlevel :=
    ⟨[], [], by simp [hm], by simp [hn], .inr ⟨.nil, h w v hlevel⟩⟩

theorem pure {a b : α} (h : f a = f b) :
    Parallel (Pure.pure a : Action (Traced σ) ω α)
      (Pure.pure b : Action (Traced τ) ψ α) f :=
  of_silent (fun _ => rfl) (fun _ => rfl) fun _ _ hlevel =>
    ⟨congrArg Except.ok h, hlevel⟩

theorem fail (e e' : Failure) :
    Parallel (Action.fail e : Action (Traced σ) ω α)
      (Action.fail e' : Action (Traced τ) ψ α) f :=
  of_silent (fun _ => rfl) (fun _ => rfl) fun _ _ hlevel => ⟨rfl, hlevel⟩

theorem abandon :
    Parallel (throw .abandoned : Action (Traced σ) ω α)
      (throw .abandoned : Action (Traced τ) ψ α) f :=
  of_silent (fun _ => rfl) (fun _ => rfl) fun _ _ hlevel => ⟨rfl, hlevel⟩

theorem ofOutcome {a b : Except Stop α} (h : shape f a = shape f b) :
    Parallel (Action.ofOutcome a : Action (Traced σ) ω α)
      (Action.ofOutcome b : Action (Traced τ) ψ α)
      f := by
  refine of_silent (fun w => ?_) (fun v => ?_) fun w v hlevel => ?_
  · rw [Action.exec_ofOutcome]
  · rw [Action.exec_ofOutcome]
  · rw [Action.exec_ofOutcome, Action.exec_ofOutcome]
    exact ⟨h, hlevel⟩

theorem ofExcept {a b : Except Failure α}
    (h : shape f (a.mapError .failed) = shape f (b.mapError .failed)) :
    Parallel (Action.ofExcept a : Action (Traced σ) ω α)
      (Action.ofExcept b : Action (Traced τ) ψ α)
      f := by
  refine of_silent (fun w => ?_) (fun v => ?_) fun w v hlevel => ?_
  · rw [Action.exec_ofExcept]
  · rw [Action.exec_ofExcept]
  · rw [Action.exec_ofExcept, Action.exec_ofExcept]
    exact ⟨h, hlevel⟩

theorem bind {k : α → Action (Traced σ) ω β} {l : α → Action (Traced τ) ψ β}
    (h : Parallel m n f) (hk : ∀ a b, f a = f b → Parallel (k a) (l b) g) :
    Parallel (m >>= k) (n >>= l) g := by
  have hleft : ∀ a, Grows (k a) := fun a => (hk a a rfl).left
  have hright : ∀ b, Grows (l b) := fun b => (hk b b rfl).right
  refine ⟨h.left.bind hleft, h.right.bind hright, fun w v hlevel => ?_⟩
  obtain ⟨xs, ys, hxs, hys, hparted | ⟨htogether, hshape, hafter⟩⟩ :=
    h.went w v hlevel
  · obtain ⟨xs', hxs'⟩ := Grows.behind hleft hxs
    obtain ⟨ys', hys'⟩ := Grows.behind hright hys
    exact ⟨xs ++ xs', ys ++ ys', hxs', hys', .inl (hparted.append xs' ys')⟩
  rcases hm : m.exec w with ⟨stop | a, w'⟩ <;> rcases hn : n.exec v
    with ⟨stop' | b, v'⟩ <;>
    rw [hm, hn] at hshape hafter <;> rw [hm] at hxs <;> rw [hn] at hys
  · rw [Action.exec_bind_error hm, Action.exec_bind_error hn]
    exact ⟨xs, ys, hxs, hys,
      .inr ⟨htogether, congrArg Except.error (Except.error.inj hshape), hafter⟩⟩
  · cases hshape
  · cases hshape
  obtain ⟨xs', ys', hxs', hys', hwent⟩ :=
    (hk a b (Except.ok.inj hshape)).went w' v' hafter
  rw [Action.exec_bind_ok hm, Action.exec_bind_ok hn]
  refine ⟨xs ++ xs', ys ++ ys', ?_, ?_, ?_⟩
  · rw [hxs', hxs, List.append_assoc]
  · rw [hys', hys, List.append_assoc]
  · rcases hwent with hparted | ⟨htogether', hshape, hafter⟩
    · exact .inl (htogether.parted hparted)
    · exact .inr ⟨htogether.append htogether', hshape, hafter⟩

theorem map {φ : α → β} (h : Parallel m n f)
    (hφ : ∀ a b, f a = f b → g (φ a) = g (φ b)) :
    Parallel (φ <$> m) (φ <$> n) g := by
  rw [map_eq_pure_bind, map_eq_pure_bind]
  exact h.bind fun a b hab => pure (hφ a b hab)

theorem observe (h : Parallel m n f) :
    Parallel (Action.observe m) (Action.observe n) (shape f) where
  left := h.left
  right := h.right
  went w v hlevel := by
    obtain ⟨xs, ys, hxs, hys, hparted | ⟨htogether, hshape, hafter⟩⟩ :=
      h.went w v hlevel
    · exact ⟨xs, ys, hxs, hys, .inl hparted⟩
    · exact ⟨xs, ys, hxs, hys,
        .inr ⟨htogether, congrArg Except.ok hshape, hafter⟩⟩

theorem see {φ : Store (Traced σ) → α} {χ : Store (Traced τ) → α}
    (h : ∀ (w : World (Traced σ) ω) (v : World (Traced τ) ψ), w.Level v →
      φ w.store = χ v.store) :
    Parallel (Store.see φ : Action (Traced σ) ω α)
      (Store.see χ : Action (Traced τ) ψ α) id :=
  of_silent (fun _ => rfl) (fun _ => rfl) fun w v hlevel =>
    ⟨congrArg Except.ok (h w v hlevel), hlevel⟩

theorem report (e e' : Event) :
    Parallel (Store.report e : Action (Traced σ) ω Unit)
      (Store.report e' : Action (Traced τ) ψ Unit)
      id :=
  of_silent (fun _ => rfl) (fun _ => rfl) fun _ _ hlevel =>
    ⟨rfl, hlevel.options, hlevel.writing⟩

theorem setWriting (b : Bool) :
    Parallel (Store.change fun s => { s with writing := b } :
      Action (Traced σ) ω Unit)
      (Store.change fun s => { s with writing := b } : Action (Traced τ) ψ Unit)
        id :=
  of_silent (fun _ => rfl) (fun _ => rfl) fun _ _ hlevel =>
    ⟨rfl, hlevel.options, rfl⟩

theorem mapM {ι : Type} {R : ι → ι → Prop} {k : ι → Action (Traced σ) ω α}
    {l : ι → Action (Traced τ) ψ α} {xs ys : List ι} (h : List.Forall₂ R xs ys)
    (hk : ∀ x y, R x y → Parallel (k x) (l y) f) :
    Parallel (xs.mapM k) (ys.mapM l) (List.map f) := by
  induction h with
  | nil => exact pure rfl
  | cons hxy _ ih =>
      rw [List.mapM_cons, List.mapM_cons]
      refine (hk _ _ hxy).bind fun a b hab => ih.bind fun as bs habs => pure ?_
      rw [List.map_cons, List.map_cons, hab, habs]

theorem call {note note' : Except Failure α → Exchange} {access : Access σ α}
    {access' : Access τ α}
    (hrequest : ∀ a b, (note a).request = (note' b).request)
    (hreply : ∀ a b, (note a).reply = (note' b).reply ↔ a = b) :
    Parallel (Store.use (Traced.noting note access) : Action (Traced σ) ω α)
      (Store.use (Traced.noting note' access') : Action (Traced τ) ψ α) id where
  left w := ⟨_, rfl⟩
  right v := ⟨_, rfl⟩
  went w v hlevel := by
    set a := (access.run w.store.session.inner).1
    set b := (access'.run v.store.session.inner).1
    refine ⟨[note a], [note' b], rfl, rfl, ?_⟩
    by_cases hab : a = b
    · refine .inr ⟨.cons ⟨hrequest a b, (hreply a b).mpr hab⟩ .nil, ?_,
        hlevel.options, hlevel.writing⟩
      rw [Store.exec_use, Store.exec_use]
      change shape id (a.mapError Stop.failed) =
        shape id (b.mapError Stop.failed)
      rw [hab]
    · exact .inl ⟨[], _, [], [], _, [], rfl, rfl, .nil, hrequest a b,
        mt (hreply a b).mp hab⟩

variable [Session σ] [Session τ]

theorem beginTransaction :
    Parallel (Store.use Session.beginTransaction : Action (Traced σ) ω Unit)
      (Store.use Session.beginTransaction : Action (Traced τ) ψ Unit) id :=
  call (fun _ _ => rfl) fun _ _ => ⟨fun h => Reply.done.inj h, congrArg _⟩

theorem commit :
    Parallel (Store.use Session.commit : Action (Traced σ) ω Unit)
      (Store.use Session.commit : Action (Traced τ) ψ Unit) id :=
  call (fun _ _ => rfl) fun _ _ => ⟨fun h => Reply.done.inj h, congrArg _⟩

theorem rollback :
    Parallel (Store.use Session.rollback : Action (Traced σ) ω Unit)
      (Store.use Session.rollback : Action (Traced τ) ψ Unit) id :=
  call (fun _ _ => rfl) fun _ _ => ⟨fun h => Reply.done.inj h, congrArg _⟩

theorem execute (s : Statement) (params params' : List Value) :
    Parallel (Store.execute s params : Action (Traced σ) ω Nat)
      (Store.execute s params' : Action (Traced τ) ψ Nat) id :=
  call (fun _ _ => rfl) fun _ _ => ⟨fun h => Reply.affected.inj h, congrArg _⟩

theorem query (s : Statement) (params params' : List Value) :
    Parallel (Store.use (Session.query s params) :
      Action (Traced σ) ω (List Cursor))
      (Store.use (Session.query s params') : Action (Traced τ) ψ (List Cursor))
        id :=
  call (fun _ _ => rfl) fun _ _ => ⟨fun h => Reply.opened.inj h, congrArg _⟩

theorem perform (s : Statement) (params params' : List Value) :
    Parallel (Store.perform s params : Action (Traced σ) ω Unit)
      (Store.perform s params' : Action (Traced τ) ψ Unit) id :=
  (execute s params params').map fun _ _ _ => rfl

theorem nextId (entity : String) :
    Parallel (Store.nextId entity : Action (Traced σ) ω EntityId)
      (Store.nextId entity : Action (Traced τ) ψ EntityId) id := by
  unfold Store.nextId
  refine bind (f := id) ?_ ?_
  · rw [Plain.queryNumber_eq, Plain.queryNumber_eq, Store.use_bind,
      Store.use_bind]
    refine (query _ _ _).bind ?_
    rintro a _ rfl
    rw [Store.use_ofExcept, Store.use_ofExcept]
    exact ofExcept rfl
  · rintro (_ | n) _ rfl
    · exact fail _ _
    · dsimp only [id]
      cases EntityId.ofValue n with
      | ok id => exact pure rfl
      | error e => exact fail _ _

theorem undo (op op' : String) (cause cause' : Failure) :
    Parallel (Store.undo op cause : Action (Traced σ) ω Unit)
      (Store.undo op' cause' : Action (Traced τ) ψ Unit) id := by
  unfold Store.undo
  refine rollback.observe.bind fun a b hab => ?_
  rcases a with (e | _) | a <;> rcases b with (e' | _) | b <;> cases hab
  · exact report _ _
  · exact pure rfl
  · exact pure rfl

theorem transact {op op' : String} (h : Parallel m n f) :
    Parallel (Store.transact op m) (Store.transact op' n) f := by
  unfold Store.transact
  refine beginTransaction.bind fun _ _ _ => ?_
  refine (h.bind fun a b hab => commit.bind fun _ _ _ => pure hab).observe.bind
    fun a b hab => ?_
  rcases a with (e | _) | a <;> rcases b with (e' | _) | b <;> try cases hab
  · exact (undo _ _ _ _).bind fun _ _ _ => fail _ _
  · exact (undo _ _ _ _).bind fun _ _ _ => abandon
  · exact pure (Except.ok.inj hab)

theorem joinOrTransact {op op' : String} (h : Parallel m n f) :
    Parallel (Store.joinOrTransact op m) (Store.joinOrTransact op' n) f := by
  unfold Store.joinOrTransact
  refine (see fun _ _ hlevel => hlevel.writing).bind ?_
  rintro isWriting _ rfl
  cases isWriting with
  | true => exact h
  | false =>
    refine (setWriting true).bind fun _ _ _ =>
      h.transact.observe.bind fun a b hab => ?_
    exact (setWriting false).bind fun _ _ _ => ofOutcome hab

theorem write {op op' entity entity' : String} (h : Parallel m n f) :
    Parallel (Store.write op entity m) (Store.write op' entity' n) f := by
  unfold Store.write
  refine (report _ _).bind fun _ _ _ =>
    h.joinOrTransact.observe.bind fun a b hab => ?_
  rcases a with (e | _) | a <;> rcases b with (e' | _) | b <;> try cases hab
  · exact (report _ _).bind fun _ _ _ => fail _ _
  · exact abandon
  · exact (report _ _).bind fun _ _ _ => pure (Except.ok.inj hab)

theorem scan {ρ : Type} (s : Statement) (params params' : List Value)
    (records : Cursor → Except Failure (RecordStream ρ))
    {visit : Scan (Traced σ) ρ → Action (Traced σ) ω α}
    {visit' : Scan (Traced τ) ρ → Action (Traced τ) ψ α}
    (hvisit : ∀ stream left,
      Parallel (visit { statement := s, params, stream, left })
      (visit' { statement := s, params := params', stream, left }) f) :
    Parallel (Store.scan s params records visit)
      (Store.scan s params' records visit') f := by
  have hopened (cursor : Cursor) :
      Parallel (do
        let stream ← Action.ofExcept (records cursor)
        visit { statement := s, params, stream, left := cursor.left }) (do
        let stream ← Action.ofExcept (records cursor)
        visit' { statement := s, params := params', stream,
                 left := cursor.left }) f := by
    refine (ofExcept (f := id) rfl).bind ?_
    rintro stream _ rfl
    exact hvisit stream cursor.left
  unfold Store.scan Store.query
  refine (query s params params').bind ?_
  rintro openings _ rfl
  rcases openings with _ | ⟨cursor, _ | ⟨cursor', rest⟩⟩
  · exact fail _ _
  · exact hopened cursor
  · exact (hopened cursor).bind fun _ _ _ => fail _ _

end Parallel

/-- What is sent side by side is the same, if the answers are. -/
theorem Parallel.exists_requests {m : Action (Traced σ) ω α}
    {n : Action (Traced τ) ψ α} {f : α → κ} (h : Parallel m n f)
    {w : World (Traced σ) ω} {v : World (Traced τ) ψ} (hlevel : w.Level v) :
    ∃ xs ys, (m.exec w).2.exchanges = w.exchanges ++ xs ∧
      (n.exec v).2.exchanges = v.exchanges ++ ys ∧
      (SameAnswers xs ys →
        xs.map Exchange.request = ys.map Exchange.request) := by
  obtain ⟨xs, ys, hxs, hys, hparted | ⟨htogether, -⟩⟩ := h.went w v hlevel
  · exact ⟨xs, ys, hxs, hys, fun hanswers => absurd hparted hanswers.not_parted⟩
  · exact ⟨xs, ys, hxs, hys, fun _ => htogether.map_request⟩

end Annals
