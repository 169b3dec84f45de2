import Annals.Proofs.Grouping

namespace Annals.Stream

open Annals.Sql

variable {α : Type}

/-- What is told up to the first failure, and that failure. -/
def untilFailure : List (Except Failure α) → List (Except Failure α)
  | [] => []
  | .ok a :: items => .ok a :: untilFailure items
  | .error f :: _ => [.error f]

/-- Records, and behind them the failure that has ended them, if one has. -/
def ending (records : List α) (failure : Option Failure) :
    List (Except Failure α) :=
  records.map .ok ++ failure.toList.map .error

theorem untilFailure_append (records : List α)
    (items : List (Except Failure α)) :
    untilFailure (records.map .ok ++ items) = records.map .ok ++ untilFailure
      items := by
  induction records with
  | nil => rfl
  | cons a records ih =>
      rw [List.map_cons, List.cons_append, untilFailure, ih]
      rfl

theorem untilFailure_ending (records : List α) (failure : Option Failure) :
    untilFailure (ending records failure) = ending records failure := by
  unfold ending
  rw [untilFailure_append]
  cases failure <;> rfl

theorem exists_untilFailure (items : List (Except Failure α)) :
    ∃ records failure, untilFailure items = ending records failure := by
  induction items with
  | nil => exact ⟨[], none, rfl⟩
  | cons item items ih =>
      cases item with
      | error f => exact ⟨[], some f, rfl⟩
      | ok a =>
          obtain ⟨records, failure, heq⟩ := ih
          exact ⟨a :: records, failure, congrArg _ heq⟩

theorem length_untilFailure_le (items : List (Except Failure α)) :
    (untilFailure items).length ≤ items.length := by
  induction items with
  | nil => exact Nat.le_refl 0
  | cons item items ih =>
      cases item with
      | error f => exact Nat.succ_le_succ (Nat.zero_le _)
      | ok a => exact Nat.succ_le_succ ih

theorem mapM_ending (records : List α) (failure : Option Failure) :
    (ending records failure).mapM id = failure.elim (.ok records) .error := by
  induction records with
  | nil => cases failure <;> rfl
  | cons a records ih =>
      change (Except.ok a :: ending records failure).mapM id = _
      rw [List.mapM_cons, ih]
      cases failure <;> rfl

theorem ending_inj {records records' : List α}
    {failure failure' : Option Failure}
    (h : ending records failure = ending records' failure') :
    records = records' ∧ failure = failure' := by
  have hrecords (records : List α) (failure : Option Failure) :
      (ending records failure).filterMap Except.toOption = records := by
    have hall : records.filterMap
        (Except.toOption ∘ (Except.ok : α → Except Failure α)) = records :=
      List.filterMap_some
    unfold ending
    rw [List.filterMap_append, List.filterMap_map, hall]
    cases failure <;> exact List.append_nil records
  have hsame : records = records' := by
    rw [← hrecords records failure, h, hrecords]
  have hall := congrArg (List.mapM id) h
  rw [mapM_ending, mapM_ending] at hall
  refine ⟨hsame, ?_⟩
  cases failure <;> cases failure' <;> cases hall <;> rfl

/-- What there is to tell of a result with a record for each row, be there
failures in between or not. -/
def Layout.told (l : Layout α) : List Fetch → List (Except Failure α)
  | [] => []
  | .row r :: rest => l.start r :: l.told rest
  | .fault f :: rest => .error f :: l.told rest
  | .lost f :: _ => [.error f]

theorem Layout.length_told_le (l : Layout α) (fetches : List Fetch) :
    (l.told fetches).length ≤ fetches.length := by
  induction fetches with
  | nil => exact Nat.le_refl 0
  | cons fetch rest ih =>
      cases fetch with
      | row r => exact Nat.succ_le_succ ih
      | fault f => exact Nat.succ_le_succ ih
      | lost f => exact Nat.succ_le_succ (Nat.zero_le _)

namespace RowStream

def outstanding (s : RowStream α) : List (Except Failure α) :=
  match s.lookahead with
  | some r =>
    s.layout.start r ::
      if s.exhausted then [] else s.layout.told s.cursor.fetches
  | none => if s.exhausted then [] else s.layout.told s.cursor.fetches

theorem step_outstanding (s : RowStream α) :
    ∃ s', (RecordStream.rows s).step = (s.outstanding.head?, .rows s') ∧
      s'.outstanding = s.outstanding.tail := by
  obtain ⟨layout, ⟨fetches, progress⟩, lookahead, exhausted⟩ := s
  cases lookahead with
  | some r => cases exhausted <;> exact ⟨_, rfl, rfl⟩
  | none =>
      cases exhausted with
      | true => exact ⟨_, rfl, rfl⟩
      | false =>
          rcases fetches with _ | ⟨r | f | f, rest⟩ <;> exact ⟨_, rfl, rfl⟩

theorem length_outstanding_le (s : RowStream α) :
    s.outstanding.length ≤ s.cursor.fetches.length + 1 := by
  have htold := s.layout.length_told_le s.cursor.fetches
  unfold outstanding
  cases s.lookahead <;> cases s.exhausted <;> simp <;> omega

end RowStream

theorem GroupLayout.length_upcoming_le (l : GroupLayout α)
    (checkOrdering : Bool) (key : Int64) (a : α)
    (fetches : List Fetch) :
    (l.upcoming checkOrdering key a fetches).length ≤ fetches.length + 1 := by
  induction fetches generalizing key a with
  | nil => exact Nat.le_refl 1
  | cons fetch rest ih =>
      cases fetch with
      | fault f => exact Nat.succ_le_succ (Nat.zero_le _)
      | lost f => exact Nat.succ_le_succ (Nat.zero_le _)
      | row r =>
          unfold upcoming
          have hone (f : Failure) :
              ([.error f] : List (Except Failure α)).length ≤ rest.length + 2 :=
            Nat.succ_le_succ (Nat.zero_le _)
          split
          · exact hone _
          · split
            · split
              · exact hone _
              · exact Nat.le_succ_of_le (ih _ _)
            · split
              · exact hone _
              · split
                · exact hone _
                · exact Nat.succ_le_succ (ih _ _)

namespace KeyedStream

theorem length_outstanding_le (s : KeyedStream α) :
    s.outstanding.length ≤ s.cursor.fetches.length + 3 := by
  have hfollowing : s.following.length ≤ s.cursor.fetches.length + 1 := by
    unfold following
    split
    · exact Nat.zero_le _
    · exact s.layout.length_upcoming_le ..
  unfold outstanding
  cases s.deferred <;> cases s.ready <;> simp <;> omega

theorem step_outstanding (s : KeyedStream α) :
    ∃ s', (RecordStream.groups s).step = (s.outstanding.head?, .groups s') ∧
      s'.outstanding = s.outstanding.tail := by
  cases hdeferred : s.deferred with
  | some f =>
      obtain ⟨layout, check, cursor, ready, pending, _, consumed⟩ := s
      cases hdeferred
      exact ⟨_, rfl, rfl⟩
  | none =>
      cases hready : s.ready with
      | none =>
          obtain ⟨layout, check, cursor, _, pending, _, consumed⟩ := s
          cases hdeferred
          cases hready
          exact ⟨_, rfl, rfl⟩
      | some a =>
          have houtstanding : s.outstanding = .ok a :: s.following := by
            unfold outstanding
            rw [hdeferred, hready]
            rfl
          rw [houtstanding]
          exact step_of_outstanding houtstanding

end KeyedStream

namespace RecordStream

def outstanding : RecordStream α → List (Except Failure α)
  | rows s => s.outstanding
  | groups s => s.outstanding

/-- A step tells the first of what a stream has yet to tell, and leaves the
rest. -/
theorem step_outstanding (s : RecordStream α) :
    ∃ s', s.step = (s.outstanding.head?, s') ∧
      s'.outstanding = s.outstanding.tail := by
  cases s with
  | rows s =>
      obtain ⟨s', hstep, hrest⟩ := s.step_outstanding
      exact ⟨.rows s', hstep, hrest⟩
  | groups s =>
      obtain ⟨s', hstep, hrest⟩ := s.step_outstanding
      exact ⟨.groups s', hstep, hrest⟩

theorem length_outstanding_le (s : RecordStream α) :
    s.outstanding.length ≤ s.bound := by
  unfold bound cursor Cursor.left
  cases s with
  | rows s =>
      exact s.length_outstanding_le.trans (Nat.add_le_add_left (by decide) _)
  | groups s =>
      exact s.length_outstanding_le.trans (Nat.add_le_add_left (by decide) _)

theorem walk_eq_take (s : RecordStream α) (limit : Nat) :
    (s.walk limit).1 = (untilFailure s.outstanding).take limit := by
  induction limit generalizing s with
  | zero => rfl
  | succ limit ih =>
      obtain ⟨s', hstep, hrest⟩ := s.step_outstanding
      unfold walk
      rw [hstep]
      rcases houtstanding : s.outstanding with _ | ⟨f | a, items⟩
      · rfl
      · exact congrArg _ List.take_nil.symm
      · rw [houtstanding] at hrest
        have hwalk := ih s'
        rw [hrest] at hwalk
        exact congrArg _ hwalk

theorem entities_eq (s : RecordStream α) :
    s.entities.1 = untilFailure s.outstanding := by
  refine (s.walk_eq_take s.bound).trans (List.take_of_length_le ?_)
  exact (length_untilFailure_le _).trans s.length_outstanding_le

theorem collect_eq (s : RecordStream α) {records : List α}
    {failure : Option Failure}
    (h : untilFailure s.outstanding = ending records failure) :
    s.collect.1 = failure.elim (.ok records) .error := by
  change s.entities.1.mapM id = _
  rw [entities_eq, h, mapM_ending]

end RecordStream

/-- Goes through a stream, and asks nothing more of it once something has
failed. -/
structure Iteration (α : Type) where
  stream : RecordStream α
  failed : Bool := false

namespace Iteration

/-- The next record, the failure, or nothing at the end and after a failure. -/
def next (i : Iteration α) : Option (Except Failure α) × Iteration α :=
  if i.failed then (none, i)
  else
    match i.stream.step with
    | (none, s) => (none, { i with stream := s })
    | (some answer, s) => (some answer, { stream := s, failed := !answer.isOk })

/-- The answer to a call, before which there have been so many others. -/
def answer (i : Iteration α) : (earlier : Nat) → Option (Except Failure α)
  | 0 => i.next.1
  | earlier + 1 => i.next.2.answer earlier

def told (i : Iteration α) : List (Except Failure α) :=
  if i.failed then [] else untilFailure i.stream.outstanding

theorem next_told (i : Iteration α) :
    i.next.1 = i.told.head? ∧ i.next.2.told = i.told.tail := by
  obtain ⟨s, failed⟩ := i
  cases failed with
  | true => exact ⟨rfl, rfl⟩
  | false =>
      obtain ⟨s', hstep, hrest⟩ := s.step_outstanding
      unfold next
      rw [hstep]
      change _ = (untilFailure s.outstanding).head? ∧
        _ = (untilFailure s.outstanding).tail
      rcases houtstanding : s.outstanding with _ | ⟨f | a, items⟩
      · rw [houtstanding] at hrest
        exact ⟨rfl, congrArg untilFailure hrest⟩
      · exact ⟨rfl, rfl⟩
      · rw [houtstanding] at hrest
        exact ⟨rfl, congrArg untilFailure hrest⟩

theorem answer_eq (i : Iteration α) (n : Nat) : i.answer n = i.told[n]? := by
  induction n generalizing i with
  | zero => exact i.next_told.1.trans List.head?_eq_getElem?
  | succ n ih =>
      change i.next.2.answer n = _
      rw [ih, i.next_told.2, List.getElem?_tail]

end Iteration

theorem RecordStream.walk_eq_answers (stream : RecordStream α) (limit : Nat) :
    (stream.walk limit).1 = (List.range limit).filterMap
      ({ stream } : Iteration α).answer := by
  rw [walk_eq_take]
  induction limit with
  | zero => rfl
  | succ limit ih =>
      rw [List.take_add_one, ih, List.range_succ, List.filterMap_append]
      congr 1
      have htold : ({ stream } : Iteration α).told =
          untilFailure stream.outstanding := rfl
      rw [List.filterMap_cons, List.filterMap_nil, Iteration.answer_eq, htold]
      cases (untilFailure stream.outstanding)[limit]? <;> rfl

end Annals.Stream
