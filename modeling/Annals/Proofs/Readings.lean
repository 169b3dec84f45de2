import Annals.Proofs.Reachable

namespace Annals

open Annals.Database Annals.Log Annals.Sql Annals.Stream

variable {σ ω α β : Type}

def IsReading : Statement → Prop
  | .select .. | .selectFamily .. => True
  | _ => False

theorem Database.Touched.contents_eq {db db' : Database}
    (h : Touched IsReading db db') :
    db'.contents = db.contents := by
  apply h.carries (P := fun c => c = db.contents) rfl
  · intro s params locked n c hs hmade
    cases s with
    | select | selectFamily =>
        cases hmade
        rfl
    | _ => exact hs.elim
  · intro sequence values c hs _
    exact hs.elim

/-- Programs that only read change nothing, whatever transactions they open. -/
theorem Program.contents_of_reading [Backed σ] {m : Action σ ω α}
    (h : Program (Elementary IsReading) m) (w : World σ ω) :
    (m.exec w).2.contents = w.contents := by
  refine h.keeps (R := fun u v : World σ ω => v.contents = u.contents)
    (fun _ => rfl)
    (fun huv hvx => hvx.trans huv) (fun hm u => (hm.touched u).contents_eq) ?_ w
  intro op entity _ m hm ih u
  cases hu : u.store.writing with
  | true =>
      rw [Store.exec_write_within op entity m hu]
      exact ih (u.noting [Store.openingEvent op entity])
  | false =>
      rcases hwrite : (Store.write op entity m).exec u with ⟨stop | a, u'⟩
      · exact contents_of_write_error hm hu hwrite
      · obtain ⟨v, v', -, hv, hwork, hu'⟩ := contents_of_write_ok hu hwrite
        have hsame := ih v
        rw [hwork] at hsame
        exact hu'.trans (hsame.trans hv)

section Loads

variable [Session σ] {basic : (α : Type) → Action σ ω α → Prop}

theorem Store.query_program {s : Statement} {params : List Value}
    (hquery : basic _ (Store.use (Session.query s params)))
    {visit : Cursor → Action σ ω β}
    (hvisit : ∀ cursor, Program basic (visit cursor)) :
    Program basic (Store.query s params visit) := by
  refine Program.andThen (.basic hquery) fun openings => ?_
  split
  · exact .fail _
  · exact hvisit _
  · exact (hvisit _).andThen fun _ => .fail _

theorem Store.scan_program {s : Statement} {params : List Value}
    (hquery : basic _ (Store.use (Session.query s params)))
    (records : Cursor → Except Failure (RecordStream α))
    {visit : Scan σ α → Action σ ω β}
    (hvisit : ∀ scan, Program basic (visit scan)) :
    Program basic (Store.scan s params records visit) :=
  query_program hquery fun _ => (Program.ofExcept _).andThen fun _ => hvisit _

namespace Script.Subject

theorem selection_isReading (s : Subject) (one : Option EntityId) :
    IsReading (s.adapter.selection one).1 := by
  cases s <;> cases one <;> trivial

theorem scan_program (hreads :
    ∀ {α : Type} {m : Action σ ω α}, Plain IsReading α m → basic α m)
    (s : Subject) (one : Option EntityId)
    {visit : Scan σ s.Entity → Action σ ω β}
    (hvisit : ∀ scan, Program basic (visit scan)) :
    Program basic (s.adapter.scan one visit) :=
  Program.andThen (.basic (hreads (.see _))) fun _ =>
    Store.scan_program (hreads (.query (s.selection_isReading one) _)) _ hvisit

theorem loadWith_program
    (hreads : ∀ {α : Type} {m : Action σ ω α}, Plain IsReading α m → basic α m)
    (s : Subject) {visit : Scan σ s.Entity → Action σ ω β}
    (hvisit : ∀ scan, Program basic (visit scan)) :
    Program basic (s.adapter.loadWith visit) :=
  (Program.ofExcept _).andThen fun _ => s.scan_program hreads none hvisit

theorem loadAll_program (s : Subject) :
    Program (Elementary IsReading)
      (s.adapter.loadAll : Action σ ω (List s.Entity)) :=
  s.loadWith_program .plain fun _ => .ofExcept _

theorem lookup_program (s : Subject) (id : EntityId) :
    Program (Elementary IsReading)
      (s.adapter.lookup id : Action σ ω (Option s.Entity)) :=
  s.scan_program .plain (some id) fun _ => .ofExcept _

theorem load_program (s : Subject) (id : EntityId) :
    Program (Elementary IsReading)
      (s.adapter.load id : Action σ ω (Option s.Entity)) :=
  (Program.ofExcept _).andThen fun _ => s.lookup_program id

theorem loadMany_program (s : Subject) (ids : List EntityId) :
    Program (Elementary IsReading)
      (s.adapter.loadMany ids : Action σ ω (List s.Entity)) :=
  (Program.ofExcept _).andThen fun _ =>
    (Program.mapM s.lookup_program ids).andThen fun _ => .done _

end Script.Subject

theorem Commit.scanBetween_program
    (hreads : ∀ {α : Type} {m : Action σ ω α}, Plain IsReading α m → basic α m)
    (start stop : Time.Instant) {visit : Scan σ Commit → Action σ ω β}
    (hvisit : ∀ scan, Program basic (visit scan)) :
    Program basic (scanBetween start stop visit) := by
  have hwindow : Program basic (do
      let low ← Action.ofExcept (Value.ofInstant start)
      let high ← Action.ofExcept (Value.ofInstant stop)
      let check ← Store.see (·.options.checkGroupOrdering)
      Store.scan (.select commits (.window "committed_at")) [low, high]
        (adapter.records check) visit : Action σ ω β) := by
    refine (Program.ofExcept _).andThen fun low =>
      (Program.ofExcept _).andThen fun high => ?_
    refine Program.andThen (.basic (hreads (.see _))) fun check => ?_
    exact Store.scan_program (hreads (.query trivial _)) _ hvisit
  refine (Program.ofExcept _).andThen fun _ => ?_
  split
  · exact (Program.fail _).andThen fun _ => hwindow
  · exact hwindow

end Loads

theorem Action.exec_require_bind {a : Adapter α} {c : Capability}
    (h : a.require c = .ok ()) (work : Unit → Action σ ω β) (w : World σ ω) :
    (Action.ofExcept (a.require c) >>= work).exec w = (work ()).exec w := by
  rw [h]
  rfl

section Scans

variable [Session σ] {w w' : World σ ω}

namespace Store

variable {statement : Statement} {params : List Value}
  {records : Cursor → Except Failure (RecordStream α)}

theorem exec_scan_opened {c : Cursor}
    (hquery : ((Session.query statement params).run w.store.session).1 =
      .ok [c]) (visit : RecordStream α → Except Failure β) :
    (scan statement params records fun s =>
      Action.ofExcept (visit s.stream)).exec w =
        ((records c >>= visit).mapError .failed,
          w.withSession ((Session.query statement params).run
            w.store.session).2) := by
  unfold scan query
  rw [Action.exec_bind, exec_use, hquery]
  change (do
    let stream ← Action.ofExcept (records c)
    Action.ofExcept (visit stream) : Action σ ω β).exec _ = _
  rw [Action.exec_bind, Action.exec_ofExcept]
  cases records c with
  | error f => rfl
  | ok stream => exact Action.exec_ofExcept _ _

theorem exec_scan {c : Cursor}
    (hquery : ((Session.query statement params).run w.store.session).1 =
      .ok [c]) (visit : RecordStream α → Except Failure β) :
    ((scan statement params records fun s =>
      Action.ofExcept (visit s.stream)).exec w).1 =
        (records c >>= visit).mapError .failed :=
      congrArg Prod.fst (exec_scan_opened hquery visit)

theorem exec_scan_error {f : Failure}
    (hquery : ((Session.query statement params).run w.store.session).1 =
      .error f) (visit : RecordStream α → Except Failure β) :
    ((scan statement params records fun s =>
      Action.ofExcept (visit s.stream)).exec w).1 = .error (.failed f) := by
  unfold scan query
  rw [Action.exec_bind, exec_use, hquery]
  rfl

/-- A scan gives something only if the result has been opened exactly once. -/
theorem exists_opening (visit : RecordStream α → Except Failure β) {b : β}
    (h : (scan statement params records fun s =>
      Action.ofExcept (visit s.stream)).exec w = (.ok b, w')) :
    ∃ c, ((Session.query statement params).run w.store.session).1 =
      .ok [c] := by
  unfold scan query at h
  obtain ⟨openings, v, huse, hvisit⟩ := Action.exec_bind_eq_ok.mp h
  obtain ⟨s, hquery, -⟩ := exec_use_eq_ok.mp huse
  rcases openings with _ | ⟨c, _ | ⟨c', rest⟩⟩
  · cases hvisit
  · exact ⟨c, congrArg Prod.fst hquery⟩
  · obtain ⟨b', v', -, hfail⟩ := Action.exec_bind_eq_ok.mp hvisit
    cases hfail

end Store

/-- What the session answers when an adapter asks for every record, or for
one. -/
def Adapter.openings (a : Adapter α) (one : Option EntityId) (s : σ) :
    Except Failure (List Cursor) :=
  ((Session.query (a.selection one).1 (a.selection one).2).run s).1

theorem Adapter.exec_scan (a : Adapter α) (one : Option EntityId)
    (visit : Scan σ α → Action σ ω β) (w : World σ ω) :
    (a.scan one visit).exec w =
      (Store.scan (a.selection one).1 (a.selection one).2
        (a.records w.store.options.checkGroupOrdering) visit).exec w := rfl

end Scans

/-- A session answers a query as its database does. -/
def Answers {σ : Type} [Backed σ] (s : σ) (statement : Statement) : Prop :=
  ∀ params, ((Session.query statement params).run s).1 =
    ((Session.query statement params).run (Backed.database s)).1

theorem answers_database {statement : Statement} (db : Database) :
    Answers db statement :=
  fun _ => rfl

def Adapter.ofRows (a : Adapter α) (checkOrdering : Bool) (id : EntityId)
    (rows : List ResultRow) :
    Except Failure (Option α) := do
  let stream ← a.records checkOrdering { fetches := rows.map ResultRow.fetch }
  a.single id stream

section Results

variable [Backed σ] {w : World σ ω} {statement : Statement}

theorem Database.query_of_reading (hs : IsReading statement)
    (params : List Value) (db : Database) :
    ((Session.query statement params).run db).1 =
      (db.contents.read statement params).map fun rows =>
        [{ fetches := rows.map ResultRow.fetch }] := by
  change ((Database.query statement params).run _).1 = _
  unfold Database.query
  rw [Access.run_get_bind]
  cases statement with
  | select | selectFamily =>
      dsimp only
      cases db.contents.read _ params <;> rfl
  | _ => exact hs.elim

theorem Answers.run_query {s : σ} (h : Answers s statement)
    (hs : IsReading statement) (params : List Value) :
    ((Session.query statement params).run s).1 =
      ((Backed.database s).contents.read statement params).map fun rows =>
        [{ fetches := rows.map ResultRow.fetch }] :=
  (h params).trans (Database.query_of_reading hs params _)

theorem Adapter.exec_load {a : Adapter α} {id : EntityId} {params : List Value}
    (hallowed : a.require .loadById = .ok ())
    (hselection : a.selection (some id) = (statement, params))
    (hs : IsReading statement) (hanswers : Answers w.store.session statement) :
    ((a.load id).exec w).1 =
      (w.contents.read statement params >>=
        a.ofRows w.store.options.checkGroupOrdering id).mapError .failed := by
  have hopenings : a.openings (some id) w.store.session =
      (w.contents.read statement params).map fun rows =>
        [{ fetches := rows.map ResultRow.fetch }] := by
    unfold Adapter.openings
    rw [hselection]
    exact hanswers.run_query hs params
  rw [Adapter.load, Action.exec_require_bind hallowed, Adapter.lookup,
    Adapter.exec_scan]
  cases hread : w.contents.read statement params with
  | error f =>
      rw [hread] at hopenings
      exact Store.exec_scan_error hopenings (a.single id)
  | ok rows =>
      rw [hread] at hopenings
      exact Store.exec_scan hopenings (a.single id)

end Results

end Annals
