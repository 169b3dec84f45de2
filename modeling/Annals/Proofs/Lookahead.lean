import Annals.Proofs.Delivery
import Mathlib.Data.List.ReduceOption

/-!
What a cursor brings is a list of events, rows and failures.  A `RowStream`
tells each of them to one call, in their order: a row to a call of `next`, as
the record that it makes, and a failure to whatever is called.  Between calls it
holds at most one row that has been fetched and not told.  After the end it does
not look at its cursor any more.
-/

namespace Annals.Stream

open Annals.Sql

variable {α : Type}

/-- What fetching brings, one after another.  A result that is lost brings
nothing more. -/
def Cursor.eventsOf : List Fetch → List (Except Failure Row)
  | [] => []
  | .row r :: rest => .ok r :: eventsOf rest
  | .fault f :: rest => .error f :: eventsOf rest
  | .lost f :: _ => [.error f]

def Cursor.events (c : Cursor) : List (Except Failure Row) := eventsOf c.fetches

def Ask.exhausted (entity : String) : Ask → Reply α
  | hasNext => .follows (.ok false)
  | next => .record (.error (RowStream.exhaustedFailure entity))

/-- What a call tells while some events are left, what it replies, and what is
left behind it. -/
inductive Tells (l : Layout α) :
    List (Except Failure Row) → Ask → Option (Except Failure Row) →
    Reply α → List (Except Failure Row) → Prop where
  | record (r : Row) (left : List (Except Failure Row)) :
      Tells l (.ok r :: left) .next (some (.ok r)) (.record (l.start r)) left
  /-- To be asked whether a record follows tells nothing of the row of which it
  will be made. -/
  | follows (r : Row) (left : List (Except Failure Row)) :
      Tells l (.ok r :: left) .hasNext none (.follows (.ok true))
        (.ok r :: left)
  | failure (f : Failure) (left : List (Except Failure Row)) (ask : Ask) :
      Tells l (.error f :: left) ask (some (.error f)) (ask.failing f) left
  | ended (ask : Ask) : Tells l [] ask none (ask.exhausted l.entity) []

/-- An account of calls: with the replies, what each of them has told, and what
is left in the end. -/
inductive Account (l : Layout α) : List (Except Failure Row) → List Ask →
    List (Reply α) →
    List (Option (Except Failure Row)) → List (Except Failure Row) → Prop where
  | nil (events : List (Except Failure Row)) : Account l events [] [] [] events
  | cons {events rest left : List (Except Failure Row)} {ask : Ask}
      {asks : List Ask} {reply : Reply α} {replies : List (Reply α)}
      {event : Option (Except Failure Row)}
      {told : List (Option (Except Failure Row))}
      (htells : Tells l events ask event reply rest)
      (hrest : Account l rest asks replies told left) :
      Account l events (ask :: asks) (reply :: replies) (event :: told) left

theorem Tells.events_eq {l : Layout α} {events rest : List (Except Failure Row)}
    {ask : Ask} {event : Option (Except Failure Row)} {reply : Reply α}
    (h : Tells l events ask event reply rest) :
    events = event.toList ++ rest := by
  cases h <;> rfl

namespace Account

variable {l : Layout α} {events left : List (Except Failure Row)}
    {asks : List Ask} {replies : List (Reply α)}
    {told : List (Option (Except Failure Row))}

theorem events_eq (h : Account l events asks replies told left) :
    events = told.reduceOption ++ left := by
  induction h with
  | nil => rfl
  | @cons events rest left _ _ _ _ event told htells _ ih =>
      calc
        events = event.toList ++ rest := htells.events_eq
        _ = event.toList ++ (told.reduceOption ++ left) := by rw [← ih]
        _ = (event :: told).reduceOption ++ left := by cases event <;> simp

theorem count_le (h : Account l events asks replies told left) :
    min (asks.count .next) events.length ≤ told.reduceOption.length := by
  induction h with
  | nil => simp
  | @cons _ _ _ ask _ _ _ _ _ htells _ ih =>
      cases htells with
      | record r =>
          simp
          omega
      | follows r => simpa using ih
      | failure f =>
          cases ask <;> simp <;> omega
      | ended => simp

end Account

theorem existsUnique_told {ε : Type} (told : List (Option ε)) {n : Nat}
    (hn : n < told.reduceOption.length) :
    ∃! i, ∃ e, told[i]? = some (some e) ∧
      (told.take i).reduceOption = told.reduceOption.take n ∧
      told.reduceOption[n]? = some e := by
  induction told generalizing n with
  | nil => simp at hn
  | cons event told ih =>
      cases event with
      | none =>
          obtain ⟨i, ⟨e, htold, hbefore, he⟩, hunique⟩ := ih (by simpa using hn)
          refine ⟨i + 1,
            ⟨e, by simpa using htold, by simpa using hbefore,
              by simpa using he⟩, ?_⟩
          rintro (_ | j) ⟨e', htold', hbefore', he'⟩
          · simp at htold'
          · congr 1
            apply hunique
            exact ⟨e', by simpa using htold', by simpa using hbefore',
              by simpa using he'⟩
      | some e₀ =>
          cases n with
          | zero =>
              refine ⟨0, ⟨e₀, by simp⟩, ?_⟩
              rintro (_ | j) ⟨e', -, hbefore, -⟩
              · rfl
              · simp at hbefore
          | succ n =>
              obtain ⟨i, ⟨e, htold, hbefore, he⟩, hunique⟩ :=
                ih (by simpa using hn)
              refine ⟨i + 1,
                ⟨e, by simpa using htold, by simpa using hbefore,
                  by simpa using he⟩, ?_⟩
              rintro (_ | j) ⟨e', htold', hbefore', he'⟩
              · simp at hbefore'
              · congr 1
                apply hunique
                exact ⟨e', by simpa using htold', by simpa using hbefore',
                  by simpa using he'⟩

namespace RowStream

/-- What a stream has yet to tell: the row that it holds, and what its cursor
still brings. -/
def ahead (s : RowStream α) : List (Except Failure Row) :=
  s.lookahead.toList.map .ok ++ s.cursor.events

/-- A stream takes itself for exhausted only when it holds no row and nothing is
left to fetch. -/
def Attentive (s : RowStream α) : Prop := s.exhausted = true → s.ahead = []

theorem exists_tells {s : RowStream α} (hs : s.Attentive) (ask : Ask) :
    ∃ event reply s', ask.request.put (.rows s) = (.ok reply, .rows s') ∧
      s'.layout = s.layout ∧
      Tells s.layout s.ahead ask event reply s'.ahead ∧
      (s'.exhausted = true ↔ s.ahead = []) := by
  obtain ⟨layout, ⟨fetches, progress⟩, lookahead, exhausted⟩ := s
  cases lookahead with
  | some r =>
      have hopen : exhausted = false := by
        by_contra h
        simp [Attentive, ahead, h] at hs
      subst hopen
      cases ask with
      | hasNext => exact ⟨_, _, _, rfl, rfl, .follows r _, by simp [ahead]⟩
      | next => exact ⟨_, _, _, rfl, rfl, .record r _, by simp [ahead]⟩
  | none =>
      cases exhausted with
      | true =>
          have hend : Cursor.eventsOf fetches = [] := hs rfl
          have htells (ask : Ask) :
              Tells layout (Cursor.eventsOf fetches) ask none
              (ask.exhausted layout.entity) (Cursor.eventsOf fetches) := by
            rw [hend]
            exact .ended ask
          cases ask with
          | hasNext =>
              exact ⟨_, _, _, rfl, rfl,
                htells .hasNext, by simpa [ahead, Cursor.events] using hend⟩
          | next =>
              exact ⟨_, _, _, rfl, rfl,
                htells .next, by simpa [ahead, Cursor.events] using hend⟩
      | false =>
          -- the cursor has to be advanced, and what it brings decides
          rcases fetches with _ | ⟨r | f | f, rest⟩ <;> cases ask
          · exact ⟨_, _, _, rfl, rfl, .ended .hasNext, by simp [ahead]; rfl⟩
          · exact ⟨_, _, _, rfl, rfl, .ended .next, by simp [ahead]; rfl⟩
          · exact ⟨_, _, _, rfl, rfl,
              .follows r _, by simp [ahead, Cursor.events, Cursor.eventsOf]⟩
          · exact ⟨_, _, _, rfl, rfl,
              .record r _, by simp [ahead, Cursor.events, Cursor.eventsOf]⟩
          all_goals exact ⟨_, _, _, rfl, rfl, .failure f _ _, by
            simp [ahead, Cursor.events, Cursor.eventsOf]⟩

/-- Whatever is called, there is an account of it.  A stream is exhausted just
if it has been called when everything had been told. -/
theorem exists_account {s : RowStream α} (hs : s.Attentive) (asks : List Ask) :
    ∃ replies s' told,
      read (.rows s) (asks.map Ask.request) = (replies, none, .rows s') ∧
      Account s.layout s.ahead asks replies told s'.ahead ∧
      s'.layout = s.layout ∧ s'.Attentive ∧
      (s'.exhausted = true ↔
        s.exhausted = true ∨
          ∃ i < asks.length, (told.take i).reduceOption = s.ahead) := by
  induction asks generalizing s with
  | nil => exact ⟨[], s, [], rfl, .nil _, rfl, hs, by simp⟩
  | cons ask asks ih =>
      obtain ⟨event, reply, s₁, hput, hlayout, htells, hexhausted⟩ :=
        exists_tells hs ask
      have hs₁ : s₁.Attentive := by
        intro h
        have hempty := hexhausted.mp h
        rw [htells.events_eq] at hempty
        exact (List.append_eq_nil_iff.mp hempty).2
      obtain ⟨replies, s', told, hread, haccount, hlayout', hs', hexhausted'⟩ :=
        ih hs₁
      refine ⟨reply :: replies, s', event :: told, ?_,
        .cons htells (hlayout ▸ haccount), hlayout'.trans hlayout, hs', ?_⟩
      · rw [List.map_cons, read, hput]
        simp only [hread]
      · rw [hexhausted', hexhausted]
        constructor
        · rintro (hempty | ⟨i, hi, htaken⟩)
          · exact .inr ⟨0, by simp, by simp [hempty]⟩
          · refine .inr ⟨i + 1, by simpa using hi, ?_⟩
            rw [htells.events_eq, ← htaken]
            cases event <;> simp
        · rintro (hend | ⟨_ | i, hi, htaken⟩)
          · exact .inl (hs hend)
          · left
            simpa using htaken.symm
          · right
            refine ⟨i, by simpa using hi, ?_⟩
            rw [htells.events_eq] at htaken
            cases event <;> simpa using htaken

/-- To ask whether a record follows does not change what follows: asked again
the stream answers the same, and what is asked for next is told as if there had
been no question before. -/
theorem next_of_hasNext (s : RowStream α) :
    match s.hasNext with
    | (.ok follows, s') => s'.hasNext = (.ok follows, s') ∧ s'.next = s.next
    | (.error f, s') => s.next = (.error f, s') := by
  obtain ⟨layout, ⟨fetches, progress⟩, lookahead, exhausted⟩ := s
  cases lookahead with
  | some r => exact ⟨rfl, rfl⟩
  | none =>
      cases exhausted with
      | true => exact ⟨rfl, rfl⟩
      | false =>
          rcases fetches with _ | ⟨r | f | f, rest⟩
          · exact ⟨rfl, rfl⟩
          · exact ⟨rfl, rfl⟩
          · rfl
          · rfl

theorem read_exhausted {s : RowStream α} (hexhausted : s.exhausted = true)
    (hlookahead : s.lookahead = none) (asks : List Ask) :
    read (.rows s) (asks.map Ask.request) =
      (asks.map (Ask.exhausted s.layout.entity), none, .rows s) := by
  obtain ⟨layout, cursor, _, _⟩ := s
  cases hexhausted
  cases hlookahead
  induction asks with
  | nil => rfl
  | cons ask asks ih =>
      rw [List.map_cons, read, List.map_cons]
      cases ask with
      | hasNext =>
          simp [Ask.request, Request.put, RecordStream.hasNext, hasNext, ih,
            Ask.exhausted]
      | next =>
          simp [Ask.request, Request.put, RecordStream.next, next, hasNext, ih,
            Ask.exhausted]

/-- A stream with a record for each row tells every event of its cursor to
exactly one call. -/
theorem tells_each_event_once (layout : Layout α) (c : Cursor)
    (asks : List Ask) :
    ∃ (replies : List (Reply α)) (s : RowStream α)
      (told : List (Option (Except Failure Row))),
      read (.rows { layout, cursor := c }) (asks.map Ask.request) =
        (replies, none, .rows s) ∧
      Account layout c.events asks replies told s.ahead ∧
      (∀ n < told.reduceOption.length, ∃! i, ∃ event,
        told[i]? = some (some event) ∧
        (told.take i).reduceOption = c.events.take n ∧
          c.events[n]? = some event) ∧
      min (asks.count .next) c.events.length ≤ told.reduceOption.length ∧
      c.events = told.reduceOption ++
        (s.lookahead.toList.map .ok ++ s.cursor.events) ∧
      (match s.hasNext with
        | (.ok follows, s') => s'.hasNext = (.ok follows, s') ∧ s'.next = s.next
        | (.error f, s') => s.next = (.error f, s')) ∧
      (s.exhausted = true ↔
        ∃ i < asks.length, (told.take i).reduceOption = c.events) ∧
      (s.exhausted = true → ∀ (c' : Cursor) (asks' : List Ask),
        read (.rows { s with cursor := c' }) (asks'.map Ask.request) =
          (asks'.map (Ask.exhausted layout.entity), none,
            .rows { s with cursor := c' })) := by
  let fresh : RowStream α := { layout, cursor := c }
  have hfresh : fresh.Attentive := by simp [fresh, Attentive]
  obtain ⟨replies, s, told, hread, haccount, hlayout, hs, hexhausted⟩ :=
    exists_account hfresh asks
  have hevents : c.events = told.reduceOption ++ s.ahead := haccount.events_eq
  refine ⟨replies, s, told, hread, haccount, ?_, haccount.count_le, hevents,
    s.next_of_hasNext, ?_, ?_⟩
  · intro n hn
    obtain ⟨i, ⟨event, htold, hbefore, hevent⟩, hunique⟩ :=
      existsUnique_told told hn
    have htake : c.events.take n = told.reduceOption.take n := by
      rw [hevents, List.take_append_of_le_length (Nat.le_of_lt hn)]
    have hget : c.events[n]? = told.reduceOption[n]? := by
      rw [hevents, List.getElem?_append_left hn]
    rw [htake, hget]
    exact ⟨i, ⟨event, htold, hbefore, hevent⟩, hunique⟩
  · simpa [fresh, ahead] using hexhausted
  · intro hend c' asks'
    have hnone : s.lookahead = none := by
      have hempty := hs hend
      simp [ahead] at hempty
      exact hempty.1
    have hread := read_exhausted (s := { s with cursor := c' }) hend hnone asks'
    simpa only [show s.layout = layout from hlayout] using hread

end RowStream

end Annals.Stream
