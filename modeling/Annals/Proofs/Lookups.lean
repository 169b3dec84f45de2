import Annals.Proofs.Readers

namespace Annals

open Annals.Sql Annals.Stream

variable {α σ ω : Type}

namespace Stream

theorem runs_of_key {run : List (Int64 × Row)} {k : Int64} (hne : run ≠ [])
    (hkey : ∀ p ∈ run, p.1 = k) : runs run = [run] := by
  have hruns : AreRuns run [run] [k] :=
    ⟨List.append_nil run, .cons ⟨hne, hkey⟩ .nil, .singleton k⟩
  exact hruns.runs_eq

namespace Reader

/-- The records that a result makes up to the first failure, or in all. -/
def Produces (r : Reader α) (fetches : List Fetch) (records : List α) : Prop :=
  r.Reads fetches records ∨ ∃ before made fetch f rest,
    fetches = before ++ fetch :: rest ∧
    r.FailsBehind before made fetch f ∧ r.complete made = records

/-- A result makes one record and nothing else: it has a single row, or else its
rows all have one key and are folded into one record. -/
def MakesOnly : Reader α → List Fetch → α → Prop
  | rows l, fetches, a => ∃ r, fetches = [.row r] ∧ l.create r = .ok a
  | groups l _, fetches, a =>
    ∃ first others key, fetches = (first :: others).map .row ∧
      (∀ r ∈ first :: others, l.key r = .ok key) ∧ l.fold first others = .ok a

variable {r : Reader α} {fetches : List Fetch} {a : α}

theorem reads_nil_iff : r.Reads fetches [] ↔ fetches = [] := by
  cases r with
  | rows l =>
      constructor
      · rintro ⟨rows, rfl, hmakes⟩
        cases hmakes
        rfl
      · rintro rfl
        exact ⟨[], rfl, .nil⟩
  | groups l checkOrdering =>
      constructor
      · rintro ⟨rows, rfl, ⟨-, hmade⟩, -⟩
        cases rows with
        | nil => rfl
        | cons p rows =>
            have hflat :=
              List.flatten_splitBy (fun p q => p.1 == q.1) (p :: rows)
            rw [show (p :: rows).splitBy _ = [] from
              List.forall₂_nil_right_iff.mp hmade] at hflat
            cases hflat
      · rintro rfl
        exact ⟨[], rfl, l.groups_nil, fun _ => .nil⟩

theorem reads_singleton_iff : r.Reads fetches [a] ↔ r.MakesOnly fetches a := by
  cases r with
  | rows l =>
      constructor
      · rintro ⟨rows, rfl, hmakes⟩
        obtain ⟨row, rest, hcreate, hrest, rfl⟩ :=
          List.forall₂_cons_right_iff.mp hmakes
        cases hrest
        exact ⟨row, rfl, hcreate⟩
      · rintro ⟨row, rfl, hcreate⟩
        exact ⟨[row], rfl, .cons hcreate .nil⟩
  | groups l checkOrdering =>
      constructor
      · rintro ⟨rows, rfl, ⟨hkeyed, hmade⟩, -⟩
        obtain ⟨keys, hflat, hruns, -⟩ := exists_areRuns rows
        obtain ⟨run, rest, hmakes, hrest, hsingle⟩ :=
          List.forall₂_cons_right_iff.mp hmade
        cases hrest
        rw [hsingle] at hflat hruns
        cases hruns with
        | @cons _ key _ _ hrun _ =>
            obtain rfl : rows = run := hflat.symm.trans (List.append_nil run)
            cases rows with
            | nil => exact hmakes.elim
            | cons first others =>
                refine ⟨first.2, others.map Prod.snd, key, ?_,
                  fun row hrow => ?_, hmakes⟩
                · rw [← List.map_cons (f := Prod.snd), List.map_map]
                  rfl
                · rw [← List.map_cons (f := Prod.snd)] at hrow
                  obtain ⟨p, hp, rfl⟩ := List.mem_map.mp hrow
                  rw [hkeyed p hp, hrun.2 p hp]
      · rintro ⟨first, others, key, rfl, hkey, hfold⟩
        let rows : List (Int64 × Row) :=
          (first :: others).map fun row => (key, row)
        have hrows : ∀ p ∈ rows, p.1 = key ∧ l.key p.2 = .ok p.1 := by
          intro p hp
          obtain ⟨row, hrow, rfl⟩ := List.mem_map.mp hp
          exact ⟨rfl, hkey row hrow⟩
        have hruns : runs rows = [rows] :=
          runs_of_key (List.cons_ne_nil _ _) fun p hp => (hrows p hp).1
        refine ⟨rows, by simp [rows, GroupLayout.fetched],
          ⟨fun p hp => (hrows p hp).2, ?_⟩, fun _ =>
            List.pairwise_of_forall_mem_list fun p hp q hq => ?_⟩
        · rw [hruns]
          refine .cons ?_ .nil
          change l.fold first
            ((others.map fun row => (key, row)).map Prod.snd) = .ok a
          rw [List.map_map]
          exact (congrArg _ (List.map_id others)).trans hfold
        · rw [(hrows p hp).1, (hrows q hq).1]
          exact Int64.le_refl key

theorem produces_iff {records : List α} :
    r.Produces fetches records ↔ ∃ failure,
      r.told fetches = ending records failure := by
  constructor
  · rintro (hreads | ⟨before, made, fetch, f, rest, rfl, hfails, rfl⟩)
    · exact ⟨none, told_of_reads hreads⟩
    · exact ⟨some f, told_of_fails hfails rest⟩
  · rintro ⟨_ | f, htold⟩
    · exact .inl (reads_iff.mpr htold)
    · obtain ⟨before, made, fetch, rest, hfetches, hfails, hcomplete⟩ :=
        exists_fails_iff.mpr htold
      exact .inr ⟨before, made, fetch, f, rest, hfetches, hfails, hcomplete⟩

end Reader

end Stream

/-- A look-up never hides a second record or a late failure.  It finds nothing
just if its result holds neither rows nor failures, and it finds a record just
if the result makes this record and nothing else.  If the result makes two
records in front of any failure, the answer is that the identifier is ambiguous.
In every other case a fetch fails and the answer is the failure of the first one
that does, whether a record is complete before it or not. -/
theorem Script.Subject.load_exact [Session σ] (s : Subject) (id : EntityId)
    (w : World σ ω) {c : Cursor}
    (hopenings : s.adapter.openings (some id) w.store.session = .ok [c]) :
    (((s.adapter.load id).exec w).1 = .ok none ↔ c.fetches = []) ∧
    (∀ x, ((s.adapter.load id).exec w).1 = .ok (some x) ↔
      (s.reader w.store.options.checkGroupOrdering).MakesOnly c.fetches x) ∧
    (∀ x y more, (s.reader w.store.options.checkGroupOrdering).Produces
      c.fetches (x :: y :: more) →
      ((s.adapter.load id).exec w).1 =
        .error (.failed (s.adapter.ambiguous id))) ∧
    (c.fetches ≠ [] →
      (∀ x, ¬(s.reader w.store.options.checkGroupOrdering).MakesOnly
        c.fetches x) →
      (∀ x y more,
        ¬(s.reader w.store.options.checkGroupOrdering).Produces c.fetches
          (x :: y :: more)) →
      ∃ before made fetch f rest, c.fetches = before ++ fetch :: rest ∧
        (s.reader w.store.options.checkGroupOrdering).FailsBehind before made
          fetch f ∧
        ((s.adapter.load id).exec w).1 = .error (.failed f)) := by
  have hallowed : s.adapter.require .loadById = .ok () := by cases s <;> rfl
  obtain ⟨records, failure, htold⟩ :=
    (s.reader w.store.options.checkGroupOrdering).exists_told c.fetches
  have hload := Adapter.exec_load_eq s.readsBy hallowed hopenings htold
  generalize ((s.adapter.load id).exec w).1 = answer at hload
  -- the answer and what is said of the result are both matters of what the
  -- result tells
  have hends {records' : List s.Entity} {failure' : Option Failure} :
      ending records failure = ending records' failure' ↔ records = records' ∧
      failure = failure' :=
    ⟨ending_inj, fun ⟨hrecords, hfailure⟩ => hrecords ▸ hfailure ▸ rfl⟩
  simp only [← Reader.reads_nil_iff
    (r := s.reader w.store.options.checkGroupOrdering),
    ← Reader.reads_singleton_iff, Reader.produces_iff, Reader.reads_iff, htold,
    hends, hload]
  refine ⟨?nothing, fun x => ?one, ?many, fun hne hone hmany => ?fails⟩
  case nothing =>
    rcases records with _ | ⟨x, _ | ⟨y, records⟩⟩ <;> cases failure <;>
      simp [Except.mapError]
  case one =>
    rcases records with _ | ⟨x, _ | ⟨y, records⟩⟩ <;> cases failure <;>
      simp [Except.mapError]
  case many =>
    rintro x y more ⟨-, rfl, -⟩
    exact if_pos (Nat.le_add_left 2 more.length)
  case fails =>
    have hfew : ¬2 ≤ records.length := by
      rcases records with _ | ⟨x, _ | ⟨y, records⟩⟩
      · simp
      · simp
      · exact absurd ⟨failure, rfl, rfl⟩ (hmany x y records)
    cases failure with
    | none =>
        rcases records with _ | ⟨x, _ | ⟨y, records⟩⟩
        · exact absurd (Reader.reads_nil_iff.mp (Reader.reads_iff.mpr htold))
            hne
        · exact absurd ⟨rfl, rfl⟩ (hone x)
        · exact absurd (Nat.le_add_left 2 records.length) hfew
    | some f =>
        obtain ⟨before, made, fetch, rest, hfetches, hfails, -⟩ :=
          Reader.exists_fails_iff.mpr htold
        exact ⟨before, made, fetch, f, rest, hfetches, hfails, if_neg hfew⟩

/-- A session that is about to answer a query with one result. -/
def answering (fetches : List Fetch) : World Canned Unit :=
  { store :=
      Store.ofSession { dialect := .sqlite, results := [.ok [{ fetches }]] } {},
    memory := () }

/-- The three rows of one identity are a record, but not with another identity
behind them, and not with a lost connection behind them. -/
theorem load_one_or_ambiguous_or_lost :
    ((Identity.adapter.load ⟨1, by decide⟩).exec
      (answering (GroupLayout.fetched (joinedRows.take 3)))).1 =
        .ok joinedIdentities.head? ∧
    ((Identity.adapter.load ⟨1, by decide⟩).exec
      (answering (GroupLayout.fetched joinedRows))).1 =
      .error (.failed (Identity.adapter.ambiguous ⟨1, by decide⟩)) ∧
    ((Identity.adapter.load ⟨1, by decide⟩).exec
      (answering (GroupLayout.fetched (joinedRows.take 3) ++
      [.lost (Failure.illegalState "advance" "connection closed")]))).1 =
        .error
          (.failed (Failure.illegalState "advance" "connection closed")) := by
  have hload (fetches : List Fetch) :=
    Script.Subject.identity.load_exact ⟨1, by decide⟩
      (answering fetches) (c := { fetches }) rfl
  refine ⟨?_, ?_, ?_⟩
  · refine ((hload (GroupLayout.fetched (joinedRows.take 3))).2.1 _).mpr ?_
    exact ⟨(joinedRow 1 "ada" (.integer 11) "ada@example.org").2,
      (joinedRows.drop 1 |>.take 2).map Prod.snd, 1,
      rfl, by decide +kernel, rfl⟩
  · exact (hload (GroupLayout.fetched joinedRows)).2.2.1 _ _ []
      (.inl ⟨joinedRows, rfl, groups_joinedRows,
        fun _ => by unfold Ascending; decide +kernel⟩)
  · have hgroups : Identity.layout.Groups (joinedRows.take 3)
        (joinedIdentities.take 1) :=
      ⟨fun p hp => groups_joinedRows.keyed p (List.mem_of_mem_take hp), by
        rw [show runs (joinedRows.take 3) = [joinedRows.take 3] by
          decide +kernel]
        exact .cons rfl .nil⟩
    have hfails : (Reader.groups Identity.layout true).FailsBehind
        (GroupLayout.fetched (joinedRows.take 3)) (joinedIdentities.take 1)
        (.lost (Failure.illegalState "advance" "connection closed"))
        (Failure.illegalState "advance" "connection closed") :=
      ⟨joinedRows.take 3, rfl, hgroups,
        fun _ => by unfold Ascending; decide +kernel, .lost _⟩
    have htold := Reader.told_of_fails hfails []
    obtain ⟨before, made, fetch, f, rest, hfetches, hfails', hlost⟩ :=
      (hload _).2.2.2
        (List.append_ne_nil_of_right_ne_nil _ (List.cons_ne_nil _ _))
        (fun x hmakes => by
          have htold' :=
            Reader.told_of_reads (Reader.reads_singleton_iff.mpr hmakes)
          cases (ending_inj (htold.symm.trans htold')).2)
        (fun x y more hproduces => by
          obtain ⟨failure, htold'⟩ := Reader.produces_iff.mp hproduces
          cases (ending_inj (htold.symm.trans htold')).1)
    have htold' := Reader.told_of_fails hfails' rest
    rw [← hfetches] at htold'
    obtain ⟨-, ⟨⟩⟩ := ending_inj (htold.symm.trans htold')
    exact hlost

end Annals
