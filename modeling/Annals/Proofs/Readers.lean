import Annals.Proofs.Iteration
import Annals.Proofs.Readings
import Annals.Session.Canned

namespace Annals.Stream

open Annals.Sql

variable {α : Type}

/-- How a fetch can fail where every row makes a record: the fetch itself, and a
row that makes none. -/
inductive Layout.Fails (l : Layout α) : Fetch → Failure → Prop
  | fault (f : Failure) : Fails l (.fault f) f
  | lost (f : Failure) : Fails l (.lost f) f
  | unmade {r : Row} {f : Failure} (hcreate : l.create r = .error f) :
      Fails l (.row r) (f.withEntity l.entity)

namespace Layout

/-- The rows make the records. -/
def MakesEach (l : Layout α) : List Row → List α → Prop :=
  List.Forall₂ fun r a => l.create r = .ok a

variable {l : Layout α}

theorem told_makesEach {rows : List Row} {records : List α}
    (h : l.MakesEach rows records) (rest : List Fetch) :
    l.told (rows.map .row ++ rest) = records.map .ok ++ l.told rest := by
  induction h with
  | nil => rfl
  | cons hcreate _ ih =>
      rw [List.map_cons, List.cons_append, told, ih,
        show l.start _ = _ from GroupLayout.mapError_eq_ok hcreate _]
      rfl

theorem untilFailure_told_fails {fetch : Fetch} {f : Failure}
    (h : l.Fails fetch f) (rest : List Fetch) :
    untilFailure (l.told (fetch :: rest)) = [.error f] := by
  cases h with
  | fault f => rfl
  | lost f => rfl
  | unmade hcreate =>
      rw [told, show l.start _ = _ from GroupLayout.mapError_eq_error hcreate _,
        untilFailure]

theorem exists_failure (l : Layout α) (fetches : List Fetch) :
    (∃ rows records, fetches = rows.map .row ∧ l.MakesEach rows records) ∨
      ∃ rows records fetch f rest, fetches = rows.map .row ++ fetch :: rest ∧
        l.MakesEach rows records ∧ l.Fails fetch f := by
  induction fetches with
  | nil => exact .inl ⟨[], [], rfl, .nil⟩
  | cons fetch rest ih =>
      rcases fetch with r | f | f
      case fault => exact .inr ⟨[], [], _, f, rest, rfl, .nil, .fault f⟩
      case lost => exact .inr ⟨[], [], _, f, rest, rfl, .nil, .lost f⟩
      case row =>
        cases hcreate : l.create r with
        | error f => exact .inr ⟨[], [], _, _, rest, rfl, .nil, .unmade hcreate⟩
        | ok a =>
            rcases ih with ⟨rows, records, rfl, hmakes⟩ |
              ⟨rows, records, fetch, f, rest, rfl, hmakes, hfails⟩
            · exact .inl ⟨r :: rows, a :: records, rfl, .cons hcreate hmakes⟩
            · exact .inr ⟨r :: rows, a :: records, fetch, f, rest, rfl,
                .cons hcreate hmakes, hfails⟩

end Layout

/-- How results are read: with a record for each row, or with one for each run
of rows. -/
inductive Reader (α : Type) where
  | rows (l : Layout α)
  | groups (l : GroupLayout α) (checkOrdering : Bool)

namespace Reader

/-- Opens a stream, which may fail if the stream reads ahead. -/
def start : Reader α → Cursor → Except Failure (RecordStream α)
  | rows layout, cursor => .ok (.rows { layout, cursor })
  | groups layout checkOrdering, cursor =>
    match KeyedStream.start layout checkOrdering cursor with
    | .ok s => .ok (.groups s)
    | .error (f, _) => .error f

/-- The answer to a call of who goes through a result, after so many others.  A
stream that does not open answers the first call with its failure. -/
def answer (r : Reader α) (c : Cursor) (earlier : Nat) :
    Option (Except Failure α) :=
  match r.start c with
  | .ok stream => ({ stream } : Iteration α).answer earlier
  | .error f => [.error f][earlier]?

/-- The fetches all give rows, and the rows make the records. -/
def Reads : Reader α → List Fetch → List α → Prop
  | rows l, fetches, records =>
    ∃ rows, fetches = rows.map .row ∧ l.MakesEach rows records
  | groups l checkOrdering, fetches, records =>
    ∃ rows, fetches = GroupLayout.fetched rows ∧ l.Groups rows records ∧
      (checkOrdering = true → Ascending rows)

/-- A fetch fails, and it is the first: those before it give rows that make
records. -/
def FailsBehind : Reader α → List Fetch → List α → Fetch → Failure → Prop
  | rows l, before, made, fetch, f =>
    (rows l).Reads before made ∧ l.Fails fetch f
  | groups l checkOrdering, before, made, fetch, f =>
    ∃ rows, before = GroupLayout.fetched rows ∧ l.Groups rows made ∧
      (checkOrdering = true → Ascending rows) ∧
      l.Fails checkOrdering rows made fetch f

/-- The records that are complete when something fails; a run of rows has not
come to its end then. -/
def complete : Reader α → List α → List α
  | rows _, made => made
  | groups _ _, made => made.dropLast

def told : Reader α → List Fetch → List (Except Failure α)
  | rows l, fetches => untilFailure (l.told fetches)
  | groups l checkOrdering, fetches =>
    untilFailure (l.told checkOrdering fetches)

theorem start_told (r : Reader α) (c : Cursor) :
    match r.start c with
    | .ok s => untilFailure s.outstanding = r.told c.fetches
    | .error f => r.told c.fetches = [.error f] := by
  cases r with
  | rows l => rfl
  | groups l checkOrdering =>
      have htold := KeyedStream.start_told l checkOrdering c
      unfold start
      dsimp only
      rcases hstart : KeyedStream.start l checkOrdering c with ⟨f, c'⟩ | s
      · rw [hstart] at htold
        exact congrArg untilFailure htold
      · rw [hstart] at htold
        exact congrArg untilFailure htold.2.1

theorem answer_eq (r : Reader α) (c : Cursor) (n : Nat) :
    r.answer c n = (r.told c.fetches)[n]? := by
  have htold := r.start_told c
  unfold answer
  cases hstart : r.start c with
  | error f =>
      rw [hstart] at htold
      rw [htold]
  | ok s =>
      rw [hstart] at htold
      rw [← htold]
      exact Iteration.answer_eq _ n

theorem told_of_reads {r : Reader α} {fetches : List Fetch} {records : List α}
    (h : r.Reads fetches records) : r.told fetches = ending records none := by
  cases r with
  | rows l =>
      obtain ⟨rows, rfl, hmakes⟩ := h
      have htold := Layout.told_makesEach hmakes []
      rw [List.append_nil] at htold
      change untilFailure (l.told _) = _
      rw [htold]
      exact untilFailure_ending records none
  | groups l checkOrdering =>
      obtain ⟨rows, rfl, hgroups, hordered⟩ := h
      change untilFailure (l.told checkOrdering _) = _
      rw [GroupLayout.told_groups hgroups hordered,
        ← List.append_nil (records.map _)]
      exact untilFailure_ending records none

theorem told_of_fails {r : Reader α} {before : List Fetch} {made : List α}
    {fetch : Fetch} {f : Failure} (h : r.FailsBehind before made fetch f)
    (rest : List Fetch) :
    r.told (before ++ fetch :: rest) = ending (r.complete made) (some f) := by
  cases r with
  | rows l =>
      obtain ⟨⟨rows, rfl, hmakes⟩, hfails⟩ := h
      change untilFailure (l.told _) = _
      rw [Layout.told_makesEach hmakes, untilFailure_append,
        Layout.untilFailure_told_fails hfails]
      rfl
  | groups l checkOrdering =>
      obtain ⟨rows, rfl, hgroups, hordered, hfails⟩ := h
      change untilFailure (l.told checkOrdering _) = _
      rw [GroupLayout.told_fails hgroups hordered hfails]
      exact untilFailure_ending made.dropLast (some f)

/-- A result is read in full unless a fetch fails. -/
theorem exists_failure (r : Reader α) (fetches : List Fetch) :
    (∃ records, r.Reads fetches records) ∨
      ∃ before made fetch f rest, fetches = before ++ fetch :: rest ∧
        r.FailsBehind before made fetch f := by
  cases r with
  | rows l =>
      obtain ⟨rows, records, hfetches, hmakes⟩ |
        ⟨rows, records, fetch, f, rest, hfetches, hmakes, hfails⟩ :=
      l.exists_failure fetches
      · exact .inl ⟨records, rows, hfetches, hmakes⟩
      · exact .inr ⟨_, records, fetch, f, rest, hfetches,
          ⟨rows, rfl, hmakes⟩, hfails⟩
  | groups l checkOrdering =>
      obtain ⟨rows, records, hfetches, hgroups, hordered⟩ |
        ⟨rows, records, fetch, f, rest, hfetches, hgroups, hordered, hfails⟩ :=
        GroupLayout.Groups.exists_failure l.groups_nil
          (fun _ : checkOrdering = true => .nil) fetches
      · exact .inl ⟨records, rows, hfetches, hgroups, hordered⟩
      · exact .inr ⟨_, records, fetch, f, rest, hfetches, rows, rfl, hgroups,
          hordered, hfails⟩

section Told

variable {r : Reader α} {fetches : List Fetch}

theorem reads_iff {records : List α} :
    r.Reads fetches records ↔ r.told fetches = ending records none := by
  constructor
  · exact told_of_reads
  · intro htold
    obtain ⟨made, hreads⟩ | ⟨before, made, fetch, f, rest, rfl, hfails⟩ :=
      r.exists_failure fetches
    · obtain ⟨rfl, -⟩ := ending_inj ((told_of_reads hreads).symm.trans htold)
      exact hreads
    · cases (ending_inj ((told_of_fails hfails rest).symm.trans htold)).2

theorem exists_fails_iff {records : List α} {f : Failure} :
    (∃ before made fetch rest, fetches = before ++ fetch :: rest ∧
      r.FailsBehind before made fetch f ∧
      r.complete made = records) ↔
      r.told fetches = ending records (some f) := by
  constructor
  · rintro ⟨before, made, fetch, rest, rfl, hfails, rfl⟩
    exact told_of_fails hfails rest
  · intro htold
    obtain ⟨made, hreads⟩ | ⟨before, made, fetch, g, rest, rfl, hfails⟩ :=
      r.exists_failure fetches
    · cases (ending_inj ((told_of_reads hreads).symm.trans htold)).2
    · obtain ⟨hcomplete, ⟨⟩⟩ :=
        ending_inj ((told_of_fails hfails rest).symm.trans htold)
      exact ⟨before, made, fetch, rest, rfl, hfails, hcomplete⟩

end Told

end Reader

end Annals.Stream

namespace Annals

open Annals.Sql Annals.Stream

variable {α σ ω : Type}

section Single

variable {s : RecordStream α} {records : List α} {failure : Option Failure}

theorem Stream.untilFailure_eq_cons {items rest : List (Except Failure α)}
    {a : α} (h : untilFailure items = .ok a :: rest) :
    ∃ items', items = .ok a :: items' ∧ untilFailure items' = rest := by
  rcases items with _ | ⟨f | b, items⟩
  · cases h
  · cases h
  · cases h
    exact ⟨items, rfl, rfl⟩

theorem Stream.head?_untilFailure (items : List (Except Failure α)) :
    (untilFailure items).head? = items.head? := by
  rcases items with _ | ⟨f | a, items⟩ <;> rfl

def Adapter.ambiguous (a : Adapter α) (id : EntityId) : Failure :=
  (Failure.consistencyViolation "load" a.entity
    ("identifier " ++ toString id.value ++
      " matches more than one record")).withEntityId id.value.toInt

theorem Adapter.single_of_told (a : Adapter α) (id : EntityId)
    (h : untilFailure s.outstanding = ending records failure) :
    a.single id s =
      if 2 ≤ records.length then .error (a.ambiguous id)
      else failure.elim (.ok records.head?) .error := by
  obtain ⟨s', hstep, hrest⟩ := s.step_outstanding
  rw [← head?_untilFailure, h] at hstep
  unfold single
  rw [hstep]
  cases records with
  | nil => cases failure <;> rfl
  | cons x records =>
      obtain ⟨items, hitems, hbehind⟩ :=
        untilFailure_eq_cons (h.trans (List.cons_append ..))
      have hsecond : s'.step.1 = (ending records failure).head? := by
        obtain ⟨s'', hstep', -⟩ := s'.step_outstanding
        rw [hstep', hrest, hitems,
          ← show _ = ending records failure from hbehind, head?_untilFailure]
        rfl
      rw [show (ending (x :: records) failure).head? = some (.ok x) from rfl]
      dsimp only
      rw [hsecond]
      cases records with
      | nil => cases failure <;> rfl
      | cons y records => exact (if_pos (Nat.le_add_left 2 records.length)).symm

end Single

/-- An adapter reads its results in some way, which may depend on whether the
order of rows is checked. -/
def Adapter.ReadsBy (a : Adapter α) (r : Bool → Reader α) : Prop :=
  ∀ checkOrdering, a.records checkOrdering = (r checkOrdering).start

/-- Commits and branches have a row each, identities a run of rows. -/
def Script.Subject.reader : (s : Subject) → Bool → Reader s.Entity
  | commit, _ => .rows Commit.layout
  | branch, _ => .rows Branch.layout
  | identity, checkOrdering => .groups Identity.layout checkOrdering

theorem Script.Subject.readsBy (s : Subject) : s.adapter.ReadsBy s.reader := by
  intro checkOrdering
  cases s with
  | commit => rfl
  | branch => rfl
  | identity =>
      funext c
      change Identity.adapter.records checkOrdering c =
        (Reader.groups Identity.layout checkOrdering).start c
      unfold Identity.adapter Reader.start
      dsimp only
      rcases KeyedStream.start Identity.layout checkOrdering c
        with ⟨f, c'⟩ | s <;> rfl

section Loads

variable [Session σ] {a : Adapter α} {r : Bool → Reader α} {w w' : World σ ω}
    {c : Cursor} {records : List α} {failure : Option Failure} {id : EntityId}

theorem Stream.Reader.start_cases {r : Reader α} {c : Cursor}
    (htold : r.told c.fetches = ending records failure) :
    (∃ s, r.start c = .ok s ∧
      untilFailure s.outstanding = ending records failure) ∨
      ∃ f, r.start c = .error f ∧ records = [] ∧ failure = some f := by
  have hstart := r.start_told c
  rcases hopen : r.start c with f | s
  · rw [hopen, htold] at hstart
    exact .inr ⟨f, rfl, ending_inj (hstart : _ = ending [] (some f))⟩
  · rw [hopen, htold] at hstart
    exact .inl ⟨s, rfl, hstart⟩

theorem Adapter.ofRows_of_reads (ha : a.ReadsBy r) {checkOrdering : Bool}
    {rows : List Database.ResultRow}
    (h : (r checkOrdering).Reads (rows.map Database.ResultRow.fetch) records)
    (hone : records.length ≤ 1) : a.ofRows checkOrdering id rows =
      .ok records.head? := by
  obtain ⟨s, hstart, hs⟩ | ⟨f, -, -, hnone⟩ := Reader.start_cases
    (c := { fetches := rows.map Database.ResultRow.fetch })
    (Reader.told_of_reads h)
  · unfold ofRows
    rw [ha, hstart]
    exact (a.single_of_told id hs).trans
      (if_neg (Nat.not_le_of_lt (Nat.lt_succ_of_le hone)))
  · cases hnone

theorem Adapter.collect_of_told (ha : a.ReadsBy r) {checkOrdering : Bool}
    (htold : (r checkOrdering).told c.fetches = ending records failure) :
    (a.records checkOrdering c >>= fun s => s.collect.1) =
      failure.elim (.ok records) .error := by
  rw [ha]
  rcases Reader.start_cases htold with ⟨s, hstart, hs⟩ | ⟨f, hstart, rfl, rfl⟩
  · rw [hstart]
    exact s.collect_eq hs
  · rw [hstart]
    rfl

theorem Adapter.exec_loadAll_of_told (ha : a.ReadsBy r)
    (hallowed : a.require .load = .ok ())
    (hopenings : a.openings none w.store.session = .ok [c])
    (htold : (r w.store.options.checkGroupOrdering).told c.fetches =
      ending records failure) :
    (a.loadAll.exec w).1 =
      (failure.elim (.ok records) .error : Except Failure (List α)).mapError
        .failed := by
  unfold loadAll loadWith
  rw [Action.exec_require_bind hallowed, exec_scan,
    Store.exec_scan hopenings fun s => s.collect.1, a.collect_of_told ha htold]

/-- All that can come of a look-up whose result is told as some records and
perhaps a failure. -/
theorem Adapter.exec_load_eq (ha : a.ReadsBy r)
    (hallowed : a.require .loadById = .ok ())
    (hopenings : a.openings (some id) w.store.session = .ok [c])
    (htold : (r w.store.options.checkGroupOrdering).told c.fetches =
      ending records failure) :
    ((a.load id).exec w).1 =
      if 2 ≤ records.length then .error (.failed (a.ambiguous id))
      else (failure.elim (.ok records.head?) .error :
        Except Failure (Option α)).mapError .failed := by
  unfold load lookup
  rw [Action.exec_require_bind hallowed, exec_scan,
    Store.exec_scan hopenings (a.single id), ha]
  rcases Reader.start_cases htold with ⟨s, hstart, hs⟩ | ⟨f, hstart, rfl, rfl⟩
  · rw [hstart]
    refine (congrArg (Except.mapError Stop.failed)
      (a.single_of_told id hs)).trans ?_
    exact apply_ite (Except.mapError Stop.failed) _ _ _
  · rw [hstart]
    rfl

theorem Adapter.exec_load_of_told (ha : a.ReadsBy r)
    (hallowed : a.require .loadById = .ok ())
    (hopenings : a.openings (some id) w.store.session = .ok [c])
    (htold : (r w.store.options.checkGroupOrdering).told c.fetches =
      ending records failure) :
    (records.length ≤ 1 →
      ((a.load id).exec w).1 =
        (failure.elim (.ok records.head?) .error :
          Except Failure (Option α)).mapError .failed) ∧
      (2 ≤ records.length →
        ∃ g, ((a.load id).exec w).1 = .error (.failed g)) := by
  rw [exec_load_eq ha hallowed hopenings htold]
  constructor
  · intro hone
    exact if_neg (Nat.not_le_of_lt (Nat.lt_succ_of_le hone))
  · intro htwo
    exact ⟨_, if_pos htwo⟩

theorem Stream.Reader.exists_told (r : Reader α) (fetches : List Fetch) :
    ∃ records failure, r.told fetches = ending records failure := by
  cases r <;> exact exists_untilFailure _

theorem Adapter.reads_of_loadAll (ha : a.ReadsBy r) {all : List α}
    (h : a.loadAll.exec w = (.ok all, w')) :
    ∃ c, a.openings none w.store.session = .ok [c] ∧
      (r w.store.options.checkGroupOrdering).Reads c.fetches all := by
  have hrun := h
  unfold loadAll loadWith at hrun
  obtain ⟨⟨⟩, v, hrequire, hscan⟩ := Action.exec_bind_eq_ok.mp hrun
  obtain ⟨hallowed, rfl⟩ := Action.exec_ofExcept_eq_ok.mp hrequire
  rw [exec_scan] at hscan
  obtain ⟨c, hopenings⟩ := Store.exists_opening (fun s => s.collect.1) hscan
  obtain ⟨records, failure, htold⟩ :=
    (r v.store.options.checkGroupOrdering).exists_told c.fetches
  have hloaded := exec_loadAll_of_told ha hallowed hopenings htold
  rw [h] at hloaded
  cases failure with
  | some f => cases hloaded
  | none =>
      cases hloaded
      exact ⟨c, hopenings, Reader.reads_iff.mpr htold⟩

theorem Adapter.reads_of_load (ha : a.ReadsBy r) {found : Option α}
    (h : (a.load id).exec w = (.ok found, w')) :
    ∃ c, a.openings (some id) w.store.session = .ok [c] ∧
      (r w.store.options.checkGroupOrdering).Reads c.fetches found.toList := by
  have hrun := h
  unfold load lookup at hrun
  obtain ⟨⟨⟩, v, hrequire, hscan⟩ := Action.exec_bind_eq_ok.mp hrun
  obtain ⟨hallowed, rfl⟩ := Action.exec_ofExcept_eq_ok.mp hrequire
  rw [exec_scan] at hscan
  obtain ⟨c, hopenings⟩ := Store.exists_opening (a.single id) hscan
  obtain ⟨records, failure, htold⟩ :=
    (r v.store.options.checkGroupOrdering).exists_told c.fetches
  obtain ⟨hone, htwo⟩ := exec_load_of_told ha hallowed hopenings htold
  rw [h] at hone htwo
  refine ⟨c, hopenings, Reader.reads_iff.mpr (htold.trans ?_)⟩
  rcases records with _ | ⟨x, _ | ⟨y, records⟩⟩
  · have hloaded := hone (Nat.zero_le 1)
    cases failure with
    | some f => cases hloaded
    | none =>
        cases hloaded
        rfl
  · have hloaded := hone (Nat.le_refl 1)
    cases failure with
    | some f => cases hloaded
    | none =>
        cases hloaded
        rfl
  · obtain ⟨g, hg⟩ := htwo (Nat.le_add_left 2 _)
    cases hg

/-- Nothing is cut off in silence.  Who goes through a result gets finitely many
records, then at most one failure, and nothing ever after; there is a failure
just if a fetch fails, and it is that of the first one.  So what an adapter
loads has been made of all the rows of one result, and if a fetch fails, nothing
is loaded: `loadAll` gives its failure, and so does `load`, unless it has seen
two records before. -/
theorem Stream.Reader.tells_first_failure :
    (∀ (r : Reader α) (c : Cursor), ∃ records failure,
      (∀ n, r.answer c n = (ending records failure)[n]?) ∧
      (∀ s, r.start c = .ok s → s.entities.1 = ending records failure) ∧
      (∀ made, r.Reads c.fetches made ↔ records = made ∧ failure = none) ∧
      ∀ f, failure = some f ↔ ∃ before made fetch rest,
        c.fetches = before ++ fetch :: rest ∧
        r.FailsBehind before made fetch f ∧ r.complete made = records) ∧
    ∀ (a : Adapter α) (r : Bool → Reader α), a.ReadsBy r → ∀ w w' : World σ ω,
      (∀ all, a.loadAll.exec w = (.ok all, w') →
        ∃ c, a.openings none w.store.session = .ok [c] ∧
          (r w.store.options.checkGroupOrdering).Reads c.fetches all) ∧
      (∀ id found, (a.load id).exec w = (.ok found, w') →
        ∃ c, a.openings (some id) w.store.session = .ok [c] ∧
          (r w.store.options.checkGroupOrdering).Reads c.fetches found.toList) ∧
      ∀ c before made fetch f rest, c.fetches = before ++ fetch :: rest →
        (r w.store.options.checkGroupOrdering).FailsBehind before made fetch f →
        (a.require .load = .ok () → a.openings none w.store.session = .ok [c] →
          (a.loadAll.exec w).1 = .error (.failed f)) ∧
        ∀ id, a.require .loadById = .ok () →
          a.openings (some id) w.store.session = .ok [c] →
          ∃ g, ((a.load id).exec w).1 = .error (.failed g) ∧
            (((r w.store.options.checkGroupOrdering).complete made).length ≤ 1 →
              g = f) := by
  refine ⟨fun r c => ?_, fun a r ha w w' =>
    ⟨fun all => Adapter.reads_of_loadAll ha,
      fun id found => Adapter.reads_of_load ha,
        fun c before made fetch f rest hc hfails => ?_⟩⟩
  · obtain ⟨records, failure, htold⟩ := r.exists_told c.fetches
    refine ⟨records, failure, fun n => ?_, fun s hs => ?_, fun made => ?_,
      fun f => ?_⟩
    · rw [r.answer_eq, htold]
    · have hstart := r.start_told c
      rw [hs, htold] at hstart
      exact s.entities_eq.trans hstart
    · rw [reads_iff, htold]
      constructor
      · exact ending_inj
      · rintro ⟨rfl, rfl⟩
        rfl
    · rw [exists_fails_iff, htold]
      constructor
      · rintro rfl
        rfl
      · intro h
        exact (ending_inj h).2
  · have htold := told_of_fails hfails rest
    rw [← hc] at htold
    refine ⟨fun hallowed hopenings =>
      Adapter.exec_loadAll_of_told ha hallowed hopenings htold,
        fun id hallowed hopenings => ?_⟩
    obtain ⟨hone, htwo⟩ := Adapter.exec_load_of_told ha hallowed hopenings htold
    by_cases hlength :
      ((r w.store.options.checkGroupOrdering).complete made).length ≤ 1
    · exact ⟨f, hone hlength, fun _ => rfl⟩
    · obtain ⟨g, hg⟩ := htwo (Nat.lt_of_not_le hlength)
      exact ⟨g, hg, fun hle => absurd hle hlength⟩

end Loads

/-- A result whose second identity is not complete when the connection is
lost. -/
def interrupted : Cursor :=
  { fetches := GroupLayout.fetched joinedRows ++
      [.lost (Failure.illegalState "advance" "connection closed")] }

def interruptedWorld : World Canned Unit :=
  { store :=
      Store.ofSession { dialect := .sqlite, results := [.ok [interrupted]] } {},
    memory := () }

theorem tells_lost_connection :
    Identity.adapter.ReadsBy (.groups Identity.layout) ∧
      (Reader.groups Identity.layout true).FailsBehind
        (GroupLayout.fetched joinedRows) joinedIdentities
        (.lost (Failure.illegalState "advance" "connection closed"))
        (Failure.illegalState "advance" "connection closed") ∧
      (Identity.adapter.loadAll.exec interruptedWorld).1 =
        .error (.failed (Failure.illegalState "advance" "connection closed")) ∧
      ((Identity.adapter.load ⟨1, by decide⟩).exec interruptedWorld).1 =
        .error
          (.failed (Failure.illegalState "advance" "connection closed")) := by
  have hreads : Identity.adapter.ReadsBy (.groups Identity.layout) :=
    Script.Subject.readsBy .identity
  have hfails : (Reader.groups Identity.layout true).FailsBehind
      (GroupLayout.fetched joinedRows)
      joinedIdentities
        (.lost (Failure.illegalState "advance" "connection closed"))
      (Failure.illegalState "advance" "connection closed") :=
    ⟨joinedRows, rfl, groups_joinedRows,
      fun _ => by unfold Ascending; decide +kernel, .lost _⟩
  obtain ⟨hall, hone⟩ :=
    (Reader.tells_first_failure.2 Identity.adapter _ hreads interruptedWorld
      interruptedWorld).2.2 interrupted _ _ _ _ [] rfl hfails
  obtain ⟨g, hload, hg⟩ := hone ⟨1, by decide⟩ rfl rfl
  exact ⟨hreads, hfails, hall rfl rfl, hg (by decide) ▸ hload⟩

end Annals
