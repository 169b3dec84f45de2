import Annals.Stream.Reading

namespace Annals.Stream

open Annals.Sql

variable {α : Type}

/-- What a consumer may ask of a stream, time after time. -/
inductive Ask where
  | hasNext
  | next
  deriving DecidableEq, Repr

def Ask.request : Ask → Request
  | hasNext => .hasNext
  | next => .next

/-- The replies to questions while the listed items have yet to be told.  A
record is told when it is asked for, a failure to whatever is asked, and each of
them once. -/
def recite (entity : String) :
    List (Except Failure α) → List Ask → List (Reply α)
  | _, [] => []
  | [], .hasNext :: asks => .follows (.ok false) :: recite entity [] asks
  | [], .next :: asks =>
    .record (.error (KeyedStream.noElementFailure entity)) :: recite
      entity [] asks
  | .ok a :: items, .hasNext :: asks =>
    .follows (.ok true) :: recite entity (.ok a :: items) asks
  | .error f :: items, .hasNext :: asks =>
    .follows (.error f) :: recite entity items asks
  | item :: items, .next :: asks => .record item :: recite entity items asks

/-- The reply when a failure is all that is left to tell. -/
def Ask.failing (f : Failure) : Ask → Reply α
  | hasNext => .follows (.error f)
  | next => .record (.error f)

def Ask.spent (entity : String) : Ask → Reply α
  | hasNext => .follows (.ok false)
  | next => .record (.error (KeyedStream.noElementFailure entity))

theorem recite_nil (entity : String) (asks : List Ask) :
    recite entity ([] : List (Except Failure α)) asks =
      asks.map (Ask.spent entity) := by
  induction asks with
  | nil =>
      unfold recite
      rfl
  | cons ask asks ih => cases ask <;> simp [recite, Ask.spent, ih]

theorem recite_failure (entity : String) (f : Failure) (ask : Ask)
    (asks : List Ask) :
    recite entity [(.error f : Except Failure α)] (ask :: asks) =
      ask.failing f :: asks.map (Ask.spent entity) := by
  cases ask <;> simp [recite, Ask.failing, recite_nil]

theorem recite_append (entity : String) (records : List α)
    (items : List (Except Failure α)) {earlier : List Ask}
    (hcount : earlier.count .next = records.length)
    (hlast : earlier.getLast? ≠ some .hasNext) (asks : List Ask) :
    recite entity (records.map .ok ++ items) (earlier ++ asks) =
      recite entity (records.map .ok) earlier ++ recite entity items asks := by
  induction earlier generalizing records with
  | nil =>
      rw [List.count_nil] at hcount
      rw [List.length_eq_zero_iff.mp hcount.symm]
      unfold recite
      rfl
  | cons ask earlier ih =>
      have hrest : earlier.getLast? ≠ some .hasNext := by
        cases earlier with
        | nil => simp
        | cons _ _ => simpa using hlast
      cases records with
      | nil =>
          -- the last question asks for a record, and there is none to ask for
          have hmem := List.getLast_mem (List.cons_ne_nil ask earlier)
          rw [List.getLast?_eq_some_getLast
            (List.cons_ne_nil ask earlier)] at hlast
          cases hask : (ask :: earlier).getLast
            (List.cons_ne_nil ask earlier) with
          | hasNext => exact absurd (congrArg some hask) hlast
          | next => exact absurd (hask ▸ hmem) (List.count_eq_zero.mp hcount)
      | cons a records =>
          cases ask with
          | next =>
              have hcount : earlier.count .next = records.length := by
                simpa using hcount
              simpa [recite] using ih records hcount hrest
          | hasNext =>
              have hcount : earlier.count .next = (a :: records).length := by
                simpa using hcount
              simpa [recite] using ih (a :: records) hcount hrest

def Reply.record? : Reply α → Option α
  | record (.ok a) => some a
  | _ => none

def delivered (replies : List (Reply α)) : List α :=
  replies.filterMap Reply.record?

@[simp] theorem delivered_follows (outcome : Except Failure Bool)
    (replies : List (Reply α)) :
    delivered (.follows outcome :: replies) = delivered replies := rfl

@[simp] theorem delivered_record (a : α) (replies : List (Reply α)) :
    delivered (.record (.ok a) :: replies) = a :: delivered replies := rfl

@[simp] theorem delivered_failure (f : Failure) (replies : List (Reply α)) :
    delivered (.record (.error f) :: replies) = delivered replies := rfl

theorem delivered_recite (entity : String) (records : List α)
    (failures : List Failure) (asks : List Ask) :
    delivered (recite entity (records.map .ok ++ failures.map .error) asks) =
      records.take (asks.count .next) := by
  induction asks generalizing records failures with
  | nil =>
      unfold recite
      rfl
  | cons ask asks ih =>
      cases records with
      | nil =>
          cases failures with
          | nil => cases ask <;> simpa [recite] using ih [] []
          | cons f failures => cases ask <;> simpa [recite] using ih [] failures
      | cons a records =>
          cases ask with
          | hasNext =>
              rw [List.map_cons, List.cons_append, recite, delivered_follows]
              exact ih (a :: records) failures
          | next => simpa [recite] using ih records failures

namespace GroupLayout

/-- What there is to tell while a record with some key is open: that record once
its run has come to its end, then the records behind it, up to the first
failure.  A record that is open when something fails is not told. -/
def upcoming (l : GroupLayout α) (checkOrdering : Bool) (key : Int64) (a : α) :
    List Fetch → List (Except Failure α)
  | [] => [.ok a]
  | .fault f :: _ | .lost f :: _ => [.error f]
  | .row r :: rest =>
    match l.keyOf r with
    | .error f => [.error f]
    | .ok k =>
      if k = key then
        match l.mergeRow a r with
        | .error f => [.error f]
        | .ok a => l.upcoming checkOrdering key a rest
      else if checkOrdering && k < key then
        [.error (Failure.orderingViolation l.entity key.toInt k.toInt)]
      else
        match l.start r with
        | .error f => [.error f]
        | .ok next => .ok a :: l.upcoming checkOrdering k next rest

theorem upcoming_eq_gather (l : GroupLayout α) (checkOrdering : Bool)
    (key : Int64) (a : α) (fetches : List Fetch) :
    l.upcoming checkOrdering key a fetches =
      match (l.gather checkOrdering key a fetches).outcome with
      | .ok (done, none) => [.ok done]
      | .ok (done, some (k, next)) =>
        .ok done :: l.upcoming checkOrdering k next
          (l.gather checkOrdering key a fetches).rest.fetches
      | .error f => [.error f] := by
  induction fetches generalizing a with
  | nil => rfl
  | cons fetch rest ih =>
      cases fetch with
      | fault f => rfl
      | lost f => rfl
      | row r =>
          rw [upcoming, gather]
          cases l.keyOf r with
          | error f => rfl
          | ok k =>
              by_cases hk : k = key
              · simp only [if_pos hk]
                cases l.mergeRow a r with
                | error f => rfl
                | ok b => exact ih b
              · simp only [if_neg hk]
                split
                · rfl
                · cases l.start r <;> rfl

end GroupLayout

namespace KeyedStream

/-- What a stream has yet to tell behind the record that is ready. -/
def following (s : KeyedStream α) : List (Except Failure α) :=
  match s.pending with
  | none => []
  | some (key, a) => s.layout.upcoming s.checkOrdering key a s.cursor.fetches

def outstanding (s : KeyedStream α) : List (Except Failure α) :=
  (s.deferred.map Except.error).toList ++
    match s.ready with
    | none => []
    | some a => .ok a :: s.following

theorem exists_fetchNext (s : KeyedStream α) :
    ∃ cursor pending ready consumed,
      s.fetchNext.2 = { s with cursor, pending, ready, consumed } := by
  unfold fetchNext
  split
  case h_1 => exact ⟨_, _, _, _, rfl⟩
  case h_2 =>
    dsimp only
    split <;> exact ⟨_, _, _, _, rfl⟩

theorem layout_fetchNext (s : KeyedStream α) :
    s.fetchNext.2.layout = s.layout := by
  obtain ⟨_, _, _, _, hfetch⟩ := s.exists_fetchNext
  rw [hfetch]

theorem checkOrdering_fetchNext (s : KeyedStream α) :
    s.fetchNext.2.checkOrdering = s.checkOrdering := by
  obtain ⟨_, _, _, _, hfetch⟩ := s.exists_fetchNext
  rw [hfetch]

theorem deferred_fetchNext (s : KeyedStream α) :
    s.fetchNext.2.deferred = s.deferred := by
  obtain ⟨_, _, _, _, hfetch⟩ := s.exists_fetchNext
  rw [hfetch]

theorem outstanding_fetchNext {s : KeyedStream α} (hready : s.ready = none)
    (hdeferred : s.deferred = none) :
    match s.fetchNext with
    | (.ok (), s') => s'.outstanding = s.following
    | (.error f, s') =>
      s.following = [.error f] ∧ s'.ready = none ∧ s'.deferred = none := by
  obtain ⟨layout, check, cursor, _, pending, _, consumed⟩ := s
  cases hready
  cases hdeferred
  cases pending with
  | none => rfl
  | some started =>
      obtain ⟨key, a⟩ := started
      have hupcoming := layout.upcoming_eq_gather check key a cursor.fetches
      unfold fetchNext following
      dsimp only
      rcases houtcome : (layout.gather check key a cursor.fetches).outcome
        with f | ⟨done, _ | ⟨k, next⟩⟩
      · rw [houtcome] at hupcoming
        exact ⟨hupcoming, rfl, rfl⟩
      · rw [houtcome] at hupcoming
        exact hupcoming.symm
      · rw [houtcome] at hupcoming
        exact hupcoming.symm

theorem next_of_fetchNext {s s' : KeyedStream α} {a : α}
    {outcome : Except Failure Unit} (hdeferred : s.deferred = none)
    (hready : s.ready = some a)
    (h : ({ s with ready := none } : KeyedStream α).fetchNext =
      (outcome, s')) :
    s.next = (.ok a,
      match outcome with
      | .ok () => s'
      | .error f => { s' with pending := none, deferred := some f }) := by
  obtain ⟨layout, check, cursor, _, pending, _, consumed⟩ := s
  cases hdeferred
  cases hready
  cases outcome <;> simp only [next, h]

theorem next_of_prepared {s s' : KeyedStream α} {a : α}
    (hdeferred : s.deferred = none) (hready : s.ready = some a)
    (h : ({ s with ready := none } : KeyedStream α).fetchNext = (.ok (), s')) :
    s.next = (.ok a, s') :=
  next_of_fetchNext hdeferred hready h

theorem next_of_failed {s s' : KeyedStream α} {a : α} {f : Failure}
    (hdeferred : s.deferred = none) (hready : s.ready = some a)
    (h : ({ s with ready := none } : KeyedStream α).fetchNext =
      (.error f, s')) :
    s.next = (.ok a, { s' with pending := none, deferred := some f }) :=
  next_of_fetchNext hdeferred hready h

theorem next_of_ready {s : KeyedStream α} {a : α}
    (hdeferred : s.deferred = none) (hready : s.ready = some a) :
    ∃ s', s.next = (.ok a, s') ∧ s'.layout = s.layout ∧
      s'.outstanding = s.following := by
  let told : KeyedStream α := { s with ready := none }
  have hfetch := outstanding_fetchNext (s := told) rfl hdeferred
  have hlayout := told.layout_fetchNext
  rcases hrun : told.fetchNext with ⟨f | _, s'⟩
  · rw [hrun] at hfetch hlayout
    obtain ⟨hfollowing, hnone, -⟩ := hfetch
    refine ⟨_, next_of_failed hdeferred hready hrun, hlayout, ?_⟩
    change _ = told.following
    rw [hfollowing]
    unfold outstanding
    rw [hnone]
    rfl
  · rw [hrun] at hfetch hlayout
    exact ⟨s', next_of_prepared hdeferred hready hrun, hlayout, hfetch⟩

section Calls

variable {s : KeyedStream α}

theorem put_deferred {f : Failure} (hdeferred : s.deferred = some f)
    (ask : Ask) :
    ask.request.put (.groups s) =
      (.ok (ask.failing f), .groups { s with deferred := none }) := by
  obtain ⟨layout, check, cursor, ready, pending, _, consumed⟩ := s
  cases hdeferred
  cases ask <;> rfl

theorem put_spent (hdeferred : s.deferred = none) (hready : s.ready = none)
    (ask : Ask) :
    ask.request.put (.groups s) =
      (.ok (ask.spent s.layout.entity), .groups s) := by
  obtain ⟨layout, check, cursor, _, pending, _, consumed⟩ := s
  cases hdeferred
  cases hready
  cases ask <;> rfl

theorem put_hasNext {a : α} (hdeferred : s.deferred = none)
    (hready : s.ready = some a) :
    Ask.hasNext.request.put (.groups s) =
      (.ok (.follows (.ok true)), .groups s) := by
  obtain ⟨layout, check, cursor, _, pending, _, consumed⟩ := s
  cases hdeferred
  cases hready
  rfl

theorem put_next {a : α} {s' : KeyedStream α} (hnext : s.next = (.ok a, s')) :
    Ask.next.request.put (.groups s) = (.ok (.record (.ok a)), .groups s') := by
  simp only [Ask.request, Request.put, RecordStream.next, hnext]

end Calls

theorem exists_put (s : KeyedStream α) (ask : Ask) :
    ∃ reply s', ask.request.put (.groups s) = (.ok reply, .groups s') ∧
      s'.layout = s.layout ∧
      ∀ asks, recite s.layout.entity s.outstanding (ask :: asks) =
        reply :: recite s.layout.entity s'.outstanding asks := by
  -- a deferred failure goes first, then the record that is ready; else there is
  -- nothing to tell
  obtain hdeferred | ⟨f, hdeferred⟩ := Option.eq_none_or_eq_some s.deferred
  · obtain hready | ⟨a, hready⟩ := Option.eq_none_or_eq_some s.ready
    · have houtstanding : s.outstanding = [] := by
        simp [outstanding, hdeferred, hready]
      refine ⟨_, s, put_spent hdeferred hready ask, rfl, fun asks => ?_⟩
      rw [houtstanding]
      cases ask <;> rfl
    · have houtstanding : s.outstanding = .ok a :: s.following := by
        simp [outstanding, hdeferred, hready]
      rw [houtstanding]
      cases ask with
      | hasNext =>
          refine ⟨_, s, put_hasNext hdeferred hready, rfl, fun asks => ?_⟩
          rw [houtstanding]
          rfl
      | next =>
          obtain ⟨s', hnext, hlayout, hrest⟩ := next_of_ready hdeferred hready
          refine ⟨_, s', put_next hnext, hlayout, fun asks => ?_⟩
          rw [hrest]
          rfl
  · refine ⟨_, _, put_deferred hdeferred ask, rfl, fun asks => ?_⟩
    simp only [outstanding, hdeferred]
    cases ask <;> rfl

/-- Whatever is asked, a stream tells what it has yet to tell. -/
theorem read_eq_recite (s : KeyedStream α) (asks : List Ask) :
    (read (.groups s) (asks.map Ask.request)).1 = recite s.layout.entity
      s.outstanding asks := by
  induction asks generalizing s with
  | nil =>
      unfold recite
      rfl
  | cons ask asks ih =>
      obtain ⟨reply, s', hput, hlayout, hrecite⟩ := s.exists_put ask
      rw [hrecite, List.map_cons]
      unfold read
      rw [hput]
      dsimp only
      rw [ih s', hlayout]

theorem eq_of_outstanding {s : KeyedStream α} {a : α}
    {items : List (Except Failure α)} (h : s.outstanding = .ok a :: items) :
    s.deferred = none ∧ s.ready = some a ∧ s.following = items := by
  unfold outstanding at h
  cases hdeferred : s.deferred with
  | some f => simp [hdeferred] at h
  | none =>
      cases hready : s.ready with
      | none => simp [hdeferred, hready] at h
      | some b =>
          obtain ⟨hb, hitems⟩ : b = a ∧ s.following = items := by
            simpa [hdeferred, hready] using h
          exact ⟨rfl, by rw [hb], hitems⟩

theorem step_of_outstanding {s : KeyedStream α} {a : α}
    {items : List (Except Failure α)} (h : s.outstanding = .ok a :: items) :
    ∃ s', (RecordStream.groups s).step = (some (.ok a), .groups s') ∧
      s'.outstanding = items := by
  obtain ⟨hdeferred, hready, hitems⟩ := eq_of_outstanding h
  obtain ⟨s', hnext, -, hrest⟩ := next_of_ready hdeferred hready
  refine ⟨s', ?_, hrest.trans hitems⟩
  unfold RecordStream.step RecordStream.hasNext hasNext
  simp only [hdeferred, hready, Option.isSome_some, RecordStream.next, hnext]

end KeyedStream

end Annals.Stream
