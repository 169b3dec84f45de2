import Annals.Proofs.Delivery

/-!
What a cursor has given to whoever advanced it is told by `Cursor.Gives`: rows,
and then perhaps its end or a failure.  A call of a `KeyedStream` depends on its
cursor by what the cursor gives while the call lasts, and by nothing else.  When
nothing is pending, that is nothing at all; and nothing is pending once the
cursor has come to its end or anything has failed.
-/

namespace Annals.Stream

open Annals.Sql

variable {α β : Type}

/-- What advancing a cursor comes to if it does not come to a row. -/
inductive Halt where
  | ended
  | failed (f : Failure)

namespace Cursor

/-- Advancing a cursor time after time gives rows, and then perhaps it halts.
It is not advanced any more after that. -/
inductive Gives : Cursor → List Row → Option Halt → Cursor → Prop where
  | nothing (c : Cursor) : Gives c [] none c
  | row {c c' c'' : Cursor} {r : Row} {rows : List Row} {halt : Option Halt}
      (hadvance : c.advance = (.ok (some r), c'))
      (hrest : Gives c' rows halt c'') :
      Gives c (r :: rows) halt c''
  | ended {c c' : Cursor} (hadvance : c.advance = (.ok none, c')) :
      Gives c [] (some .ended) c'
  | failed {c c' : Cursor} {f : Failure}
      (hadvance : c.advance = (.error f, c')) :
      Gives c [] (some (.failed f)) c'

variable {c c' : Cursor} {r : Row} {rows rows' : List Row}
    {halt halt' : Option Halt}

theorem advance_eq_row : c.advance = (.ok (some r), c') ↔
    ∃ rest, c.fetches = .row r :: rest ∧ c' = underWay rest := by
  unfold advance
  split <;> simp [*, and_assoc, @eq_comm _ c']

theorem advance_eq_end : c.advance = (.ok none, c') ↔ c.fetches = [] ∧
    c' = ended := by
  unfold advance
  split <;> simp [*, @eq_comm _ c']

theorem advance_eq_failure {f : Failure} : c.advance = (.error f, c') ↔
    ∃ rest, c.fetches = .fault f :: rest ∧ c' = underWay rest ∨
      c.fetches = .lost f :: rest ∧ c' = ended := by
  unfold advance
  split <;> simp [*, and_assoc, @eq_comm _ c']

@[simp] theorem gives_nothing : c.Gives [] none c' ↔ c' = c := by
  constructor
  · rintro ⟨⟩
    rfl
  · rintro rfl
    exact .nothing c'

theorem gives_ended :
    c.Gives [] (some .ended) c' ↔ c.advance = (.ok none, c') := by
  constructor
  · rintro ⟨⟩
    assumption
  · exact .ended

theorem gives_failed {f : Failure} :
    c.Gives [] (some (.failed f)) c' ↔ c.advance = (.error f, c') := by
  constructor
  · rintro ⟨⟩
    assumption
  · exact .failed

theorem gives_cons : c.Gives (r :: rows) halt c' ↔
    ∃ rest, c.fetches = .row r :: rest ∧
      (underWay rest).Gives rows halt c' := by
  constructor
  · intro h
    cases h with
    | row hadvance hrest =>
        obtain ⟨rest, hfetches, rfl⟩ := advance_eq_row.mp hadvance
        exact ⟨rest, hfetches, hrest⟩
  · rintro ⟨rest, hfetches, hrest⟩
    exact .row (advance_eq_row.mpr ⟨rest, hfetches, rfl⟩) hrest

theorem gives_append (hhalt : halt.isSome → rows' = [] ∧ halt' = none)
    {c'' : Cursor} :
    c.Gives (rows ++ rows') (halt <|> halt') c'' ↔
      ∃ c', c.Gives rows halt c' ∧ c'.Gives rows' halt' c'' := by
  induction rows generalizing c with
  | nil =>
      cases halt with
      | none => simp
      | some stop =>
          obtain ⟨rfl, rfl⟩ := hhalt rfl
          simp
  | cons r rows ih =>
      constructor
      · intro h
        obtain ⟨rest, hfetches, hrest⟩ := gives_cons.mp h
        obtain ⟨c', hfirst, hsecond⟩ := ih.mp hrest
        exact ⟨c', gives_cons.mpr ⟨rest, hfetches, hfirst⟩, hsecond⟩
      · rintro ⟨c', hfirst, hsecond⟩
        obtain ⟨rest, hfetches, hrest⟩ := gives_cons.mp hfirst
        exact gives_cons.mpr ⟨rest, hfetches, ih.mpr ⟨c', hrest, hsecond⟩⟩

theorem Gives.eq_nil (h : c.Gives rows halt c')
    (hend : c.advance.1 = .ok none) : rows = [] := by
  cases h with
  | row hadvance hrest => simp [hadvance] at hend
  | _ => rfl

theorem Gives.fetches_eq (h : c.Gives rows none c') :
    c.fetches = rows.map .row ++ c'.fetches := by
  induction rows generalizing c with
  | nil =>
      rw [gives_nothing.mp h]
      rfl
  | cons r rows ih =>
      obtain ⟨rest, hfetches, hrest⟩ := gives_cons.mp h
      rw [hfetches, List.map_cons, List.cons_append, ← ih hrest]
      rfl

theorem Gives.left_eq (h : c.Gives rows halt c')
    (hrows : ∀ fetch ∈ c.fetches, ∃ r, fetch = .row r) :
    c.left = rows.length + c'.left := by
  induction h with
  | nothing c => simp
  | @row c c' c'' r rows halt hadvance hrest ih =>
      obtain ⟨rest, hfetches, rfl⟩ := advance_eq_row.mp hadvance
      have hleft := ih fun fetch hfetch =>
        hrows fetch (hfetches ▸ List.mem_cons_of_mem _ hfetch)
      simp only [left, underWay, hfetches, List.length_cons] at hleft ⊢
      omega
  | ended hadvance =>
      obtain ⟨hfetches, rfl⟩ := advance_eq_end.mp hadvance
      simp [left, hfetches, Cursor.ended]
  | failed hadvance =>
      obtain ⟨rest, ⟨hfetches, -⟩ | ⟨hfetches, -⟩⟩ :=
        advance_eq_failure.mp hadvance
      · simp [hfetches] at hrows
      · simp [hfetches] at hrows

/-- Work that takes just this from its cursor: nothing else about the cursor
matters to it, and it goes on with what is left of the cursor then. -/
def Takes (work : Cursor → β) (rows : List Row) (halt : Option Halt)
    (next : Cursor → β) : Prop :=
  ∀ ⦃c c' : Cursor⦄, c.Gives rows halt c' → work c = next c'

theorem Takes.nothing {work next : Cursor → β} (h : ∀ c, work c = next c) :
    Takes work [] none next := by
  intro c c' hgives
  rw [gives_nothing.mp hgives]
  exact h c

end Cursor

namespace GroupLayout

variable {l : GroupLayout α} {checkOrdering : Bool}

theorem gather_row (l : GroupLayout α) (checkOrdering : Bool) (key : Int64)
    (a : α) (r : Row) :
    (∃ outcome, ∀ rest, l.gather checkOrdering key a (.row r :: rest) =
        ⟨outcome, .underWay rest, 1⟩) ∨
      ∃ b, ∀ rest, l.gather checkOrdering key a (.row r :: rest) =
        { l.gather checkOrdering key b rest with
          rows := (l.gather checkOrdering key b rest).rows + 1 } := by
  simp only [gather]
  cases l.keyOf r with
  | error f => exact .inl ⟨_, fun _ => rfl⟩
  | ok k =>
      by_cases hk : k = key
      · simp only [if_pos hk]
        cases l.mergeRow a r with
        | error f => exact .inl ⟨_, fun _ => rfl⟩
        | ok b => exact .inr ⟨b, fun _ => rfl⟩
      · simp only [if_neg hk]
        split
        · exact .inl ⟨_, fun _ => rfl⟩
        · cases l.start r with
          | error f => exact .inl ⟨_, fun _ => rfl⟩
          | ok next => exact .inl ⟨_, fun _ => rfl⟩

theorem gather_takes (l : GroupLayout α) (checkOrdering : Bool) (key : Int64)
    (a : α) (c : Cursor) :
    ∃ rows halt,
      c.Gives rows halt (l.gather checkOrdering key a c.fetches).rest ∧
      (l.gather checkOrdering key a c.fetches).rows = rows.length ∧
      (∀ done next, (l.gather checkOrdering key a c.fetches).outcome =
        .ok (done, some next) →
        halt = none) ∧
      Cursor.Takes (fun c => l.gather checkOrdering key a c.fetches) rows halt
        fun rest => { l.gather checkOrdering key a c.fetches with rest } := by
  obtain ⟨fetches, progress⟩ := c
  induction fetches generalizing a progress with
  | nil =>
      refine ⟨[], some .ended, .ended rfl, rfl, by simp [gather], ?_⟩
      intro c c' hgives
      obtain ⟨hfetches, rfl⟩ :=
        Cursor.advance_eq_end.mp (Cursor.gives_ended.mp hgives)
      simp [hfetches, gather]
  | cons fetch rest ih =>
      have hfailed (f : Failure) :
          Cursor.Takes (fun c => l.gather checkOrdering key a c.fetches) []
          (some (.failed f)) fun rest => ⟨.error f, rest, 0⟩ := by
        intro c c' hgives
        obtain ⟨rest, ⟨hfetches, rfl⟩ | ⟨hfetches, rfl⟩⟩ :=
          Cursor.advance_eq_failure.mp (Cursor.gives_failed.mp hgives)
        · simp [hfetches, gather]
        · simp [hfetches, gather]
      rcases fetch with r | f | f
      case fault =>
        exact ⟨[], some (.failed f), .failed rfl,
          rfl, by simp [gather], hfailed f⟩
      case lost =>
        exact ⟨[], some (.failed f), .failed rfl,
          rfl, by simp [gather], hfailed f⟩
      case row =>
        obtain ⟨outcome, hgather⟩ | ⟨b, hgather⟩ :=
          l.gather_row checkOrdering key a r
        · refine ⟨[r], none, ?_, by simp [hgather], fun _ _ _ => rfl, ?_⟩
          · simp [Cursor.gives_cons, hgather]
          · intro c c' hgives
            obtain ⟨rest', hfetches, hrest⟩ := Cursor.gives_cons.mp hgives
            change l.gather checkOrdering key a c.fetches = _
            rw [hfetches, hgather, hgather, Cursor.gives_nothing.mp hrest]
        · obtain ⟨rows, halt, hgives, hrows, hhalt, htakes⟩ := ih b .underWay
          refine ⟨r :: rows, halt,
            ?_, by simp [hgather, hrows], by simpa [hgather] using hhalt, ?_⟩
          · rw [hgather]
            exact .row rfl hgives
          · intro c c' hgives
            obtain ⟨rest', hfetches, hrest⟩ := Cursor.gives_cons.mp hgives
            have hmerged : l.gather checkOrdering key b rest' = _ :=
              htakes hrest
            change l.gather checkOrdering key a c.fetches = _
            rw [hfetches, hgather, hgather, hmerged]

end GroupLayout

def Reply.failure? : Reply α → Option Failure
  | follows (.error f) | record (.error f) => some f
  | _ => none

namespace KeyedStream

/-- What holds of a stream between calls: a record has been started only behind
one that is ready, a failure that is kept back has neither of them beside it,
and what is ready has been read. -/
structure Settled (s : KeyedStream α) : Prop where
  ready_of_pending : s.pending.isSome → s.ready.isSome
  alone : s.deferred.isSome → s.ready = none ∧ s.pending = none
  consumed_ne : s.ready.isSome → s.consumed ≠ 0

/-- What calls may do to a stream while its cursor gives these rows and perhaps
halts.  They leave the cursor alone if nothing is pending, and nothing is
pending once it has halted. -/
structure Proceeds (s : KeyedStream α) (rows : List Row) (halt : Option Halt)
    (s' : KeyedStream α) : Prop where
  layout : s'.layout = s.layout
  checkOrdering : s'.checkOrdering = s.checkOrdering
  gives : s.cursor.Gives rows halt s'.cursor
  consumed : s'.consumed = s.consumed + rows.length
  settled : s'.Settled
  still : s.pending = none → rows = [] ∧ halt = none ∧ s'.pending = none
  halted : halt.isSome → s'.pending = none

section Calls

variable {l : GroupLayout α} {checkOrdering : Bool} {s s' : KeyedStream α}

theorem Settled.pending_eq (hs : s.Settled) (hready : s.ready = none) :
    s.pending = none := by
  cases hpending : s.pending with
  | none => rfl
  | some started =>
      have hsome := hs.ready_of_pending (by simp [hpending])
      simp [hready] at hsome

theorem Settled.deferred_eq (hs : s.Settled) {a : α}
    (hready : s.ready = some a) :
    s.deferred = none := by
  cases hdeferred : s.deferred with
  | none => rfl
  | some f =>
      have halone := hs.alone (by simp [hdeferred])
      simp [hready] at halone

theorem Proceeds.refl (hs : s.Settled) : s.Proceeds [] none s where
  layout := rfl
  checkOrdering := rfl
  gives := .nothing s.cursor
  consumed := rfl
  settled := hs
  still hpending := ⟨rfl, rfl, hpending⟩
  halted hhalt := by simp at hhalt

theorem Proceeds.nothing_behind {halt halt' : Option Halt} {rows : List Row}
    (h : s.Proceeds rows halt' s') (hpending : halt.isSome → s.pending = none)
    (hhalt : halt.isSome) :
    rows = [] ∧ halt' = none :=
  have hstill := h.still (hpending hhalt)
  ⟨hstill.1, hstill.2.1⟩

theorem Proceeds.trans {s₁ s₂ : KeyedStream α} {rows rows' : List Row}
    {halt halt' : Option Halt} (h : s.Proceeds rows halt s₁)
    (h' : s₁.Proceeds rows' halt' s₂) :
    s.Proceeds (rows ++ rows') (halt <|> halt') s₂ where
  layout := h'.layout.trans h.layout
  checkOrdering := h'.checkOrdering.trans h.checkOrdering
  gives := (Cursor.gives_append (h'.nothing_behind h.halted)).mpr
    ⟨s₁.cursor, h.gives, h'.gives⟩
  consumed := by
    rw [h'.consumed, h.consumed, List.length_append]
    omega
  settled := h'.settled
  still hpending := by
    obtain ⟨rfl, rfl, hpending₁⟩ := h.still hpending
    obtain ⟨rfl, rfl, hpending₂⟩ := h'.still hpending₁
    exact ⟨rfl, rfl, hpending₂⟩
  halted hhalt := by
    cases halt with
    | none => exact h'.halted hhalt
    | some _ => exact (h'.still (h.halted rfl)).2.2

theorem fetchNext_takes (s : KeyedStream α) :
    ∃ rows halt, s.cursor.Gives rows halt s.fetchNext.2.cursor ∧
      s.fetchNext.2.consumed = s.consumed + rows.length ∧
      (s.pending = none → rows = [] ∧ halt = none ∧
        s.fetchNext.2.pending = none) ∧
      (s.fetchNext.1 = .ok () →
        (s.pending.isSome → s.fetchNext.2.ready.isSome) ∧
        (halt.isSome → s.fetchNext.2.pending = none)) ∧
      Cursor.Takes (fun cursor => ({ s with cursor } : KeyedStream α).fetchNext)
        rows halt
        fun cursor => (s.fetchNext.1, { s.fetchNext.2 with cursor }) := by
  obtain ⟨layout, check, cursor, ready, pending, deferred, consumed⟩ := s
  cases pending with
  | none =>
      exact ⟨[], none, .nothing cursor, rfl, fun _ => ⟨rfl, rfl, rfl⟩, by simp,
        .nothing fun _ => rfl⟩
  | some started =>
      obtain ⟨key, a⟩ := started
      obtain ⟨rows, halt, hgives, hrows, hhalt, htakes⟩ :=
        layout.gather_takes check key a cursor
      refine ⟨rows, halt, ?_⟩
      simp only [fetchNext]
      rcases houtcome : (layout.gather check key a cursor.fetches).outcome
        with f | ⟨done, next⟩
      · refine ⟨hgives, congrArg _ hrows, by simp, by simp, ?_⟩
        intro c c' h
        simp only [htakes h, houtcome]
      · refine ⟨hgives, congrArg _ hrows, by simp, fun _ =>
          ⟨fun _ => rfl, ?_⟩, ?_⟩
        · intro hsome
          cases next with
          | none => rfl
          | some next => simp [hhalt done next houtcome] at hsome
        · intro c c' h
          simp only [htakes h, houtcome]

theorem next_takes (hs : s.Settled) {a : α} (hready : s.ready = some a) :
    ∃ s' rows halt, s.Proceeds rows halt s' ∧
      Cursor.Takes (fun cursor => ({ s with cursor } : KeyedStream α).next)
        rows halt
        fun cursor => (.ok a, { s' with cursor }) := by
  have hdeferred := hs.deferred_eq hready
  let told : KeyedStream α := { s with ready := none }
  obtain ⟨rows, halt, hgives, hrows, hstill, hok, htakes⟩ :=
    told.fetchNext_takes
  have hlayout := told.layout_fetchNext
  have hcheck := told.checkOrdering_fetchNext
  have hkept := told.deferred_fetchNext
  have hoff := outstanding_fetchNext (s := told) rfl hdeferred
  rcases hfetch : told.fetchNext with ⟨f | _, s'⟩
  · simp only [hfetch] at hlayout hcheck hgives hrows hoff htakes
    -- the failure is kept back, and the record that had been started is given
    -- up
    refine ⟨{ s' with pending := none, deferred := some f }, rows, halt, ?_,
      fun c c' h => ?_⟩
    · exact {
        layout := hlayout
        checkOrdering := hcheck
        gives := hgives
        consumed := hrows
        settled := ⟨by simp, fun _ => ⟨hoff.2.1, rfl⟩, by simp [hoff.2.1]⟩
        still := fun hpending =>
          ⟨(hstill hpending).1, (hstill hpending).2.1, rfl⟩
        halted := fun _ => rfl }
    · exact next_of_failed (s := { s with cursor := c }) hdeferred hready
        (htakes h)
  · simp only [hfetch] at hlayout hcheck hgives hrows hkept hstill hok htakes
    refine ⟨s', rows, halt, ?_, fun c c' h => ?_⟩
    · exact {
        layout := hlayout
        checkOrdering := hcheck
        gives := hgives
        consumed := hrows
        settled := {
          ready_of_pending := by
            intro hsome
            apply (hok trivial).1
            cases hpending : told.pending with
            | none => simp [(hstill hpending).2.2] at hsome
            | some started => rfl
          alone := by simp [hkept, told, hdeferred]
          consumed_ne := by
            intro _
            have hread : told.consumed ≠ 0 :=
              hs.consumed_ne (by rw [hready]; rfl)
            omega }
        still := hstill
        halted := (hok trivial).2 }
    · exact next_of_prepared (s := { s with cursor := c }) hdeferred hready
        (htakes h)

theorem put_takes (hs : s.Settled) (ask : Ask) :
    ∃ reply s' rows halt, s.Proceeds rows halt s' ∧
      (reply.failure?.isSome → s'.pending = none) ∧
      Cursor.Takes (fun cursor => ask.request.put (.groups { s with cursor }))
        rows halt
        fun cursor => (.ok reply, .groups { s' with cursor }) := by
  obtain hdeferred | ⟨f, hdeferred⟩ := Option.eq_none_or_eq_some s.deferred
  · obtain hready | ⟨a, hready⟩ := Option.eq_none_or_eq_some s.ready
    · refine ⟨ask.spent s.layout.entity, s, [], none, .refl hs, fun _ =>
        hs.pending_eq hready, .nothing fun cursor => ?_⟩
      exact put_spent (s := { s with cursor }) hdeferred hready ask
    · cases ask with
      | hasNext =>
          refine ⟨.follows (.ok true), s, [], none,
            .refl hs, by simp [Reply.failure?], .nothing fun cursor => ?_⟩
          exact put_hasNext (s := { s with cursor }) hdeferred hready
      | next =>
          obtain ⟨s', rows, halt, hproceeds, htakes⟩ := next_takes hs hready
          refine ⟨.record (.ok a), s', rows, halt,
            hproceeds, by simp [Reply.failure?], ?_⟩
          intro c c' h
          exact put_next (htakes h)
  · obtain ⟨hready, hpending⟩ := hs.alone (by rw [hdeferred]; rfl)
    refine ⟨ask.failing f, { s with deferred := none }, [], none, ?_,
      fun _ => hpending, .nothing fun cursor => ?_⟩
    · exact {
        layout := rfl
        checkOrdering := rfl
        gives := .nothing s.cursor
        consumed := rfl
        settled := ⟨hs.ready_of_pending, by simp, hs.consumed_ne⟩
        still := fun _ => ⟨rfl, rfl, hpending⟩
        halted := by simp }
    · exact put_deferred (s := { s with cursor }) hdeferred ask

/-- What calls take one after another. -/
theorem read_takes (hs : s.Settled) (asks : List Ask) :
    ∃ replies s' rows halt, s.Proceeds rows halt s' ∧
      ((∃ reply ∈ replies, reply.failure?.isSome) → s'.pending = none) ∧
      Cursor.Takes (fun cursor =>
        read (.groups { s with cursor }) (asks.map Ask.request)) rows halt
          fun cursor => (replies, none, .groups { s' with cursor }) := by
  induction asks generalizing s with
  | nil => exact ⟨[], s, [], none, .refl hs, by simp, .nothing fun _ => rfl⟩
  | cons ask asks ih =>
      obtain ⟨reply, s₁, rows, halt, hfirst, hfailed, hput⟩ := put_takes hs ask
      obtain ⟨replies, s', rows', halt', hrest, hfailures, hread⟩ :=
        ih hfirst.settled
      refine ⟨reply :: replies, s', rows ++ rows', halt <|> halt',
        hfirst.trans hrest, ?_, ?_⟩
      · rintro ⟨r, hr, hfailure⟩
        rcases List.mem_cons.mp hr with rfl | hr
        · exact (hrest.still (hfailed hfailure)).2.2
        · exact hfailures ⟨r, hr, hfailure⟩
      · intro c₁ c₃ h
        obtain ⟨c₂, hgives, hgives'⟩ :=
          (Cursor.gives_append (hrest.nothing_behind hfirst.halted)).mp h
        simp only [List.map_cons, read, hput hgives, hread hgives']

theorem read_untouched (hs : s.Settled) (hpending : s.pending = none)
    (asks : List Ask) :
    ∃ (replies : List (Reply α)) (s' : KeyedStream α), ∀ cursor : Cursor,
      read (.groups { s with cursor }) (asks.map Ask.request) =
        (replies, none, .groups { s' with cursor }) := by
  obtain ⟨replies, s', rows, halt, hproceeds, -, htakes⟩ := read_takes hs asks
  obtain ⟨rfl, rfl, -⟩ := hproceeds.still hpending
  exact ⟨replies, s', fun cursor => htakes (.nothing cursor)⟩

/-- A stream whose first row has been read, and with it nothing else. -/
def begun (l : GroupLayout α) (checkOrdering : Bool) (cursor : Cursor)
    (key : Int64) (a : α) :
    KeyedStream α :=
  { layout := l, checkOrdering, cursor, pending := some (key, a),
    consumed := 1 }

theorem start_of_begun {c c' : Cursor} {r : Row} {key : Int64} {a : α}
    (hadvance : c.advance = (.ok (some r), c')) (hkey : l.keyOf r = .ok key)
    (hstart : l.start r = .ok a)
    (h : (begun l checkOrdering c' key a).fetchNext = (.ok (), s)) :
    start l checkOrdering c = .ok s := by
  unfold begun at h
  simp only [start, hadvance, hkey, hstart, h]

theorem start_cases {c : Cursor} (h : start l checkOrdering c = .ok s) :
    (c.fetches = [] ∧ s = { layout := l, checkOrdering, cursor := .ended }) ∨
      ∃ r rest key a, c.fetches = .row r :: rest ∧ l.keyOf r = .ok key ∧
        l.start r = .ok a ∧
        (begun l checkOrdering (.underWay rest) key a).fetchNext =
          (.ok (), s) := by
  obtain ⟨fetches, progress⟩ := c
  rcases fetches with _ | ⟨r | f | f, rest⟩
  · exact .inl ⟨rfl, (Except.ok.inj h).symm⟩
  · right
    simp only [start, Cursor.advance] at h
    cases hkey : l.keyOf r with
    | error f => simp [hkey] at h
    | ok key =>
        cases hstart : l.start r with
        | error f => simp [hkey, hstart] at h
        | ok a =>
            refine ⟨r, rest, key, a, rfl, hkey, hstart, ?_⟩
            simp only [hkey, hstart] at h
            unfold begun
            split at h
            · rename_i hfetch
              rw [hfetch, Except.ok.inj h]
            · simp at h
  · simp [start, Cursor.advance] at h
  · simp [start, Cursor.advance] at h

theorem start_takes {c : Cursor} (h : start l checkOrdering c = .ok s) :
    ∃ rows halt, c.Gives rows halt s.cursor ∧ s.consumed = rows.length ∧
      s.Settled ∧
      s.layout = l ∧ s.checkOrdering = checkOrdering ∧
      (halt.isSome → s.pending = none) ∧
      (rows = [] → c.advance.1 = .ok none) ∧
      Cursor.Takes (start l checkOrdering) rows halt fun cursor =>
        .ok { s with cursor } := by
  obtain ⟨hfetches, rfl⟩ | ⟨r, rest, key, a, hfetches, hkey, hstart, hfetch⟩ :=
    start_cases h
  · have hadvance := Cursor.advance_eq_end.mpr ⟨hfetches, rfl⟩
    refine ⟨[], some .ended, .ended hadvance, rfl, ⟨by simp, by simp, by simp⟩,
      rfl, rfl, fun _ => rfl, fun _ => by rw [hadvance], ?_⟩
    intro c₁ c₂ hgives
    simp only [start, Cursor.gives_ended.mp hgives]
  · have hadvance := Cursor.advance_eq_row.mpr ⟨rest, hfetches, rfl⟩
    obtain ⟨rows, halt, hgives, hrows, -, hok, htakes⟩ :=
      (begun l checkOrdering (.underWay rest) key a).fetchNext_takes
    have hlayout :=
      (begun l checkOrdering (.underWay rest) key a).layout_fetchNext
    have hcheck :=
      (begun l checkOrdering (.underWay rest) key a).checkOrdering_fetchNext
    have hdeferred :=
      (begun l checkOrdering (.underWay rest) key a).deferred_fetchNext
    simp only [hfetch] at hgives hrows hok htakes hlayout hcheck hdeferred
    have hcount : s.consumed = (r :: rows).length :=
      hrows.trans (Nat.add_comm 1 rows.length)
    refine ⟨r :: rows, halt, .row hadvance hgives, hcount, ⟨?_, ?_, ?_⟩,
      hlayout, hcheck, (hok trivial).2, by simp, ?_⟩
    · exact fun _ => (hok trivial).1 rfl
    · simp [hdeferred, begun]
    · simp [hcount]
    · intro c₁ c₂ hgives₁
      obtain ⟨rest₁, hfetches₁, hrest⟩ := Cursor.gives_cons.mp hgives₁
      exact start_of_begun (Cursor.advance_eq_row.mpr ⟨rest₁, hfetches₁, rfl⟩)
        hkey hstart (htakes hrest)

/-- What the opening of a stream and calls after it take.  Nothing is pending
once the cursor has halted or a failure has been reported. -/
theorem start_read {c : Cursor} (h : start l checkOrdering c = .ok s)
    (asks : List Ask) :
    ∃ (replies : List (Reply α)) (s' : KeyedStream α) (given : List Row)
      (halt : Option Halt),
      c.Gives given halt s'.cursor ∧ s'.consumed = given.length ∧ s'.Settled ∧
      (given = [] ↔ c.advance.1 = .ok none) ∧
      (halt.isSome → s'.pending = none) ∧
      ((∃ reply ∈ replies, reply.failure?.isSome) → s'.pending = none) ∧
      read (.groups s) (asks.map Ask.request) = (replies, none, .groups s') ∧
      Cursor.Takes (fun c => (start l checkOrdering c).map fun s =>
          read (.groups s) (asks.map Ask.request)) given halt
        fun cursor => .ok (replies, none, .groups { s' with cursor }) := by
  obtain ⟨rows, halt, hopened, hconsumed, hsettled, -, -, hhalted,
      hempty, hstart⟩ := start_takes h
  obtain ⟨replies, s', rows', halt', hproceeds, hfailed, hread⟩ :=
    read_takes hsettled asks
  have hcut := hproceeds.nothing_behind hhalted
  have hgives : c.Gives (rows ++ rows') (halt <|> halt') s'.cursor :=
    (Cursor.gives_append hcut).mpr ⟨s.cursor, hopened, hproceeds.gives⟩
  refine ⟨replies, s', rows ++ rows', halt <|> halt', hgives, ?_,
    hproceeds.settled,
    ⟨fun hnone => hempty (List.append_eq_nil_iff.mp hnone).1, hgives.eq_nil⟩,
    ?_, hfailed, hread hproceeds.gives, ?_⟩
  · rw [hproceeds.consumed, hconsumed, List.length_append]
  · cases halt with
    | none => exact hproceeds.halted
    | some _ => exact fun _ => (hproceeds.still (hhalted rfl)).2.2
  · intro c₁ c₃ h
    obtain ⟨c₂, hfirst, hrest⟩ := (Cursor.gives_append hcut).mp h
    simp only [hstart hfirst]
    exact congrArg _ (hread hrest)

end Calls

section States

variable {s : KeyedStream α}

theorem state_eq_primed (hs : s.Settled) :
    s.state = .primed ↔ s.hasNext.1 = .ok true := by
  have hstate : s.state = .primed ↔ s.ready.isSome := by
    unfold state
    by_cases hready : s.ready.isSome
    · simp [hready]
    · by_cases hread : s.consumed = 0
      · simp [hready, hread]
      · simp [hready, hread]
  rw [hstate]
  obtain hdeferred | ⟨f, hdeferred⟩ := Option.eq_none_or_eq_some s.deferred
  · simp [hasNext, hdeferred]
  · have hready := (hs.alone (by rw [hdeferred]; rfl)).1
    simp [hasNext, hdeferred, hready]

theorem state_eq_empty (hs : s.Settled) :
    s.state = .empty ↔ s.consumed = 0 := by
  have hread := hs.consumed_ne
  unfold state
  cases hready : s.ready with
  | some a => simpa [hready] using hread
  | none => simp

theorem state_eq_draining (s : KeyedStream α) :
    s.state = .draining ↔ s.state ≠ .primed ∧ s.state ≠ .empty := by
  cases s.state <;> simp

end States

end KeyedStream

end Annals.Stream
