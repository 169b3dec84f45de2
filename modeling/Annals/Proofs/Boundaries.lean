import Annals.Proofs.Advances
import Annals.Proofs.Grouping

namespace Annals.Stream

open Annals.Sql

variable {α : Type}

namespace GroupLayout

/-- Runs that follow one another behind a run with some key, if there is one:
each of them has a key of its own and makes a record, and closes the run in
front of it. -/
inductive Line (l : GroupLayout α) (checkOrdering : Bool) :
    Option Int64 → List (List (Int64 × Row)) → Prop where
  | nil (before : Option Int64) : Line l checkOrdering before []
  | cons {before : Option Int64} {first : Int64 × Row}
      {others : List (Int64 × Row)} {later : List (List (Int64 × Row))}
      {started b : α} (hcloses : ∀ k ∈ before, k ≠ first.1 ∧
        (checkOrdering = true → k ≤ first.1))
      (hkeys : ∀ p ∈ first :: others, l.key p.2 = .ok first.1)
      (hcreate : l.create first.2 = .ok started)
      (hmerge : (others.map Prod.snd).foldlM l.merge started = .ok b)
      (hlater : Line l checkOrdering (some first.1) later) :
      Line l checkOrdering before ((first :: others) :: later)

section Counts

variable {l : GroupLayout α} {checkOrdering : Bool} {k k' : Int64} {a b : α}

theorem line_of_runs {rs : List (List (Int64 × Row))} {keys : List Int64}
    {records : List α} (hlookup : ∀ run ∈ rs, ∀ p ∈ run, l.key p.2 = .ok p.1)
    (hkeyed : List.Forall₂ (fun run k => run ≠ [] ∧ ∀ p ∈ run, p.1 = k) rs keys)
    (hmade : List.Forall₂ l.Makes rs records)
    (hnext : keys.IsChain fun k k' => k ≠ k' ∧ (checkOrdering = true → k ≤ k'))
    {before : Option Int64}
    (hbefore : ∀ k ∈ before, ∀ k' ∈ keys.head?, k ≠ k' ∧
      (checkOrdering = true → k ≤ k')) :
    l.Line checkOrdering before rs := by
  induction hkeyed generalizing before records with
  | nil => exact .nil before
  | @cons run k rs keys hhead _ ih =>
      cases hmade with
      | @cons _ b _ records hmakes hmade =>
      cases run with
      | nil => exact hmakes.elim
      | cons first others =>
          obtain ⟨started, hcreate, hmerge⟩ := bind_eq_ok.mp hmakes
          obtain ⟨hnext, hrest⟩ := List.isChain_cons.mp hnext
          have hfirst : first.1 = k := hhead.2 first List.mem_cons_self
          refine .cons ?_ ?_ hcreate hmerge ?_
          · intro k₀ hk₀
            rw [hfirst]
            exact hbefore k₀ hk₀ k rfl
          · intro p hp
            rw [hlookup _ List.mem_cons_self p hp, hhead.2 p hp, hfirst]
          · refine ih (fun run hrun =>
              hlookup run (List.mem_cons_of_mem _ hrun)) hmade hrest ?_
            intro k₀ hk₀ k₁ hk₁
            rw [← Option.some.inj hk₀, hfirst]
            exact hnext k₁ hk₁

theorem Groups.line {rows : List (Int64 × Row)} {records : List α}
    (h : l.Groups rows records)
    (hordered : checkOrdering = true → Ascending rows) :
    l.Line checkOrdering none (runs rows) := by
  obtain ⟨keys, hruns⟩ := exists_areRuns rows
  refine line_of_runs (fun run hrun p hp => h.keyed p ?_) hruns.keyed h.made
    (hruns.keys_next hordered) (by simp)
  rw [← hruns.flatten]
  exact List.mem_flatten_of_mem hrun hp

theorem Line.drop {before : Option Int64} {rs : List (List (Int64 × Row))}
    (h : l.Line checkOrdering before rs) (n : Nat) :
    ∃ before, l.Line checkOrdering before (rs.drop n) := by
  induction h generalizing n with
  | nil before => exact ⟨before, by simpa using .nil before⟩
  | @cons before first _ _ _ _ hcloses hkeys hcreate hmerge hlater ih =>
      cases n with
      | zero => exact ⟨before, .cons hcloses hkeys hcreate hmerge hlater⟩
      | succ n => exact ih n

theorem length_fetched (rows : List (Int64 × Row)) :
    (fetched rows).length = rows.length :=
  List.length_map _

theorem row_of_fetched {fetch : Fetch} (h : fetch ∈ fetched rows) :
    ∃ r, fetch = .row r := by
  obtain ⟨p, -, rfl⟩ := List.mem_map.mp h
  exact ⟨p.2, rfl⟩

theorem gather_boundary {r : Row}
    (hcloses : k ≠ k' ∧ (checkOrdering = true → k ≤ k'))
    (hkey : l.key r = .ok k') (hcreate : l.create r = .ok b) (a : α)
    (rest : List Fetch) :
    l.gather checkOrdering k a (.row r :: rest) =
      ⟨.ok (a, some (k', b)), .underWay rest, 1⟩ := by
  rw [gather, show l.keyOf r = .ok k' from mapError_eq_ok hkey _]
  simp only [if_neg hcloses.1.symm, if_neg (not_lower hcloses.2),
    show l.start r = .ok b from mapError_eq_ok hcreate _]

end Counts

end GroupLayout

namespace KeyedStream

open GroupLayout

/-- A stream stands in front of some runs: the first row of the first of them
has been read, and its record has been started.  If there is none, and nothing
else, then nothing is left to read. -/
def Awaits (s : KeyedStream α) (rest : List Fetch) :
    List (List (Int64 × Row)) → Prop
  | [] => rest = [] → s.cursor.fetches = []
  | [] :: _ => False
  | (first :: others) :: later => ∃ a, s.pending = some (first.1, a) ∧
      s.layout.create first.2 = .ok a ∧
      s.cursor.fetches = fetched others ++ (fetched later.flatten ++ rest)

section Counts

variable {s : KeyedStream α} {rest : List Fetch} {run : List (Int64 × Row)}
  {rs later : List (List (Int64 × Row))} {before : Option Int64}

theorem fetchNext_of_outcome {key : Int64} {a b : α} {next : Option (Int64 × α)}
    (hpending : s.pending = some (key, a))
    (houtcome : (s.layout.gather s.checkOrdering key a
      s.cursor.fetches).outcome = .ok (b, next)) :
    s.fetchNext.1 = .ok () ∧ s.fetchNext.2.pending = next ∧
      s.fetchNext.2.cursor =
      (s.layout.gather s.checkOrdering key a s.cursor.fetches).rest := by
  simp [fetchNext, hpending, houtcome]

theorem Awaits.fetchNext (h : s.Awaits rest (run :: later))
    (hline : s.layout.Line s.checkOrdering before (run :: later)) :
    s.fetchNext.2.Awaits rest later ∧
    (later ≠ [] → s.fetchNext.1 = .ok ()) := by
  cases hline with
  | @cons _ first others _ started b _ hkeys hcreate hmerge hlater =>
  obtain ⟨a, hpending, hstarted, hfetches⟩ := h
  obtain rfl : started = a := Except.ok.inj (hcreate.symm.trans hstarted)
  have hothers (p : Int64 × Row) (hp : p ∈ others) :
      s.layout.key p.2 = .ok first.1 :=
    hkeys p (List.mem_cons_of_mem first hp)
  obtain ⟨houtcome, hrest⟩ :=
    gather_run hothers hmerge s.checkOrdering (fetched later.flatten ++ rest)
  rw [← hfetches] at houtcome hrest
  cases hlater with
  | nil =>
      refine ⟨fun hnone => ?_, fun hlater => absurd rfl hlater⟩
      subst hnone
      obtain ⟨-, -, hcursor⟩ := fetchNext_of_outcome hpending houtcome
      rw [hcursor, hrest]
      rfl
  | @cons _ next others' later' _ _ hcloses hkeys' hcreate' _ _ =>
      have hboundary := gather_boundary (hcloses _ rfl)
        (hkeys' next List.mem_cons_self) hcreate' b
        (fetched others' ++ (fetched later'.flatten ++ rest))
      rw [fetched_run, hboundary] at houtcome hrest
      obtain ⟨hok, hpending', hcursor⟩ := fetchNext_of_outcome hpending houtcome
      refine ⟨⟨_, hpending', ?_, ?_⟩, fun _ => hok⟩
      · rw [s.layout_fetchNext]
        exact hcreate'
      · rw [hcursor, hrest]
        rfl

theorem delivered_failing (f : Failure) (ask : Ask) :
    delivered [(ask.failing f : Reply α)] = [] := by
  cases ask <;> rfl

theorem delivered_spent (entity : String) (ask : Ask) :
    delivered [(ask.spent entity : Reply α)] = [] := by
  cases ask <;> rfl

theorem Awaits.next {s' : KeyedStream α} {a : α} {rows : List Row}
    {halt : Option Halt} (h : s.Awaits rest rs)
    (hline : s.layout.Line s.checkOrdering before rs)
    (hdeferred : s.deferred = none) (hready : s.ready = some a)
    (hproceeds : s.Proceeds rows halt s') (hnext : s.next = (.ok a, s')) :
    s'.Awaits rest (rs.drop 1) := by
  cases rs with
  | nil =>
      intro hnone
      have hleft := hproceeds.gives.left_eq (by simp [h hnone])
      simp only [Cursor.left, h hnone, List.length_nil] at hleft
      exact List.length_eq_zero_iff.mp (by omega)
  | cons run later =>
      obtain ⟨hlater, hok⟩ :=
        Awaits.fetchNext (s := { s with ready := none }) h hline
      rcases hfetch : ({ s with ready := none } : KeyedStream α).fetchNext
        with ⟨f | _, s₁⟩
      · rw [hfetch] at hlater hok
        rw [next_of_failed hdeferred hready hfetch] at hnext
        cases later with
        | nil =>
            cases hnext
            exact hlater
        | cons run' later => simp at hok
      · rw [hfetch] at hlater
        rw [next_of_prepared hdeferred hready hfetch] at hnext
        cases hnext
        exact hlater

theorem Awaits.put {s' : KeyedStream α} {ask : Ask} {reply : Reply α}
    {rows : List Row} {halt : Option Halt} (h : s.Awaits rest rs)
    (hline : s.layout.Line s.checkOrdering before rs)
    (hproceeds : s.Proceeds rows halt s')
    (hput : ask.request.put (.groups s) = (.ok reply, .groups s')) :
    s'.Awaits rest (rs.drop (delivered [reply]).length) := by
  obtain hdeferred | ⟨f, hdeferred⟩ := Option.eq_none_or_eq_some s.deferred
  · obtain hready | ⟨a, hready⟩ := Option.eq_none_or_eq_some s.ready
    · obtain ⟨rfl, rfl⟩ : reply = ask.spent s.layout.entity ∧ s' = s := by
        simpa using hput.symm.trans (put_spent hdeferred hready ask)
      rw [delivered_spent]
      exact h
    · cases ask with
      | hasNext =>
          obtain ⟨rfl, rfl⟩ : reply = .follows (.ok true) ∧ s' = s := by
            simpa using hput.symm.trans (put_hasNext hdeferred hready)
          exact h
      | next =>
          obtain ⟨s₁, hnext, -, -⟩ := next_of_ready hdeferred hready
          obtain ⟨rfl, rfl⟩ : reply = .record (.ok a) ∧ s' = s₁ := by
            simpa using hput.symm.trans (put_next hnext)
          exact h.next hline hdeferred hready hproceeds hnext
  · obtain ⟨rfl, rfl⟩ : reply = ask.failing f ∧
        s' = { s with deferred := none } := by
      simpa using hput.symm.trans (put_deferred hdeferred ask)
    rw [delivered_failing]
    rcases rs with _ | ⟨_ | ⟨first, others⟩, later⟩
    · exact h
    · exact h
    · exact h

/-- After some calls a stream stands in front of the run behind the records that
they have given and the one that is ready. -/
theorem Awaits.read (hs : s.Settled) (h : s.Awaits rest rs)
    (hline : s.layout.Line s.checkOrdering before rs) (asks : List Ask) :
    ∃ replies s', read (.groups s) (asks.map Ask.request) = (replies, none,
      .groups s') ∧
      s'.Awaits rest (rs.drop (delivered replies).length) := by
  induction asks generalizing s rs before with
  | nil => exact ⟨[], s, rfl, h⟩
  | cons ask asks ih =>
      obtain ⟨reply, s₁, rows, halt, hproceeds, -, htakes⟩ := put_takes hs ask
      have hfirst : ask.request.put (.groups s) = (.ok reply, .groups s₁) :=
        htakes hproceeds.gives
      obtain ⟨before₁, hline₁⟩ := hline.drop (delivered [reply]).length
      rw [← hproceeds.layout, ← hproceeds.checkOrdering] at hline₁
      obtain ⟨replies, s', hread, hrest⟩ :=
        ih hproceeds.settled (h.put hline hproceeds hfirst) hline₁
      refine ⟨reply :: replies, s', ?_, ?_⟩
      · rw [List.map_cons, Stream.read, hfirst]
        simp only [hread]
      · have hdelivered : delivered (reply :: replies) = delivered [reply] ++
            delivered replies :=
          List.filterMap_append (l := [reply])
        rw [List.drop_drop] at hrest
        rw [hdelivered, List.length_append]
        exact hrest

theorem awaits_start {l : GroupLayout α} {checkOrdering : Bool} {c : Cursor}
    (hline : l.Line checkOrdering none rs)
    (hfetches : c.fetches = fetched rs.flatten ++ rest)
    (hstart : start l checkOrdering c = .ok s) : s.Awaits rest (rs.drop 1) := by
  obtain ⟨hempty, rfl⟩ | ⟨r, left, key, a, hrow, hkey, hcreate, hfetch⟩ :=
    start_cases hstart
  · cases hline with
    | nil => exact fun _ => rfl
    | cons => simp [hempty, fetched] at hfetches
  · cases hline with
    | nil =>
        intro hnone
        simp [hnone, hrow, fetched] at hfetches
    | @cons _ first others later started b hcloses hkeys hcreate' hmerge
        hlater =>
        rw [fetched_run, hrow] at hfetches
        obtain ⟨⟨⟩, rfl⟩ := List.cons.inj hfetches
        have hstarted : l.start first.2 = .ok started :=
          mapError_eq_ok hcreate' _
        have hkeyed : l.keyOf first.2 = .ok first.1 :=
          mapError_eq_ok (hkeys first List.mem_cons_self) _
        obtain rfl := Except.ok.inj (hkey.symm.trans hkeyed)
        obtain rfl := Except.ok.inj (hcreate.symm.trans hstarted)
        have hbegun : (begun l checkOrdering (.underWay _) first.1 a).Awaits
            rest ((first :: others) :: later) := ⟨a, rfl, hcreate', rfl⟩
        have hnext :=
          (hbegun.fetchNext (.cons hcloses hkeys hcreate' hmerge hlater)).1
        rw [hfetch] at hnext
        exact hnext

theorem exists_awaits {l : GroupLayout α} {checkOrdering : Bool} {c : Cursor}
    (hline : l.Line checkOrdering none rs)
    (hfetches : c.fetches = fetched rs.flatten ++ rest)
    (hstart : start l checkOrdering c = .ok s) (asks : List Ask) :
    ∃ replies s', read (.groups s) (asks.map Ask.request) = (replies, none,
      .groups s') ∧
      s'.Awaits rest (rs.drop ((delivered replies).length + 1)) := by
  obtain ⟨-, -, -, -, hsettled, rfl, rfl, -⟩ := start_takes hstart
  obtain ⟨before, hlater⟩ := hline.drop 1
  obtain ⟨replies, s', hread, hawaits⟩ :=
    (awaits_start hline hfetches hstart).read hsettled hlater asks
  rw [List.drop_drop, Nat.add_comm] at hawaits
  exact ⟨replies, s', hread, hawaits⟩

theorem Awaits.count {c : Cursor} {given : List Row} {halt : Option Halt}
    {n : Nat} (h : s.Awaits rest (rs.drop n))
    (hgives : c.Gives given halt s.cursor)
    (hhalt : halt.isSome → s.pending = none)
    (hfetches : c.fetches = fetched rs.flatten ++ rest) :
    (n < rs.length → given.length = (rs.take n).flatten.length + 1) ∧
      (rest = [] → rs.length ≤ n → given.length = rs.flatten.length) := by
  constructor
  · intro hn
    rcases hdrop : rs.drop n with _ | ⟨_ | ⟨first, others⟩, later⟩
    · simp [List.drop_eq_nil_iff] at hdrop
      omega
    · rw [hdrop] at h
      exact h.elim
    · rw [hdrop] at h
      obtain ⟨a, hpending, -, hleft⟩ := h
      obtain rfl : halt = none := by
        cases halt with
        | none => rfl
        | some stop => simp [hpending] at hhalt
      have hall := congrArg List.length hgives.fetches_eq
      rw [hfetches, ← List.take_append_drop n rs, hdrop, hleft] at hall
      simp only [List.length_append, length_fetched, List.length_map,
        List.flatten_append, List.flatten_cons, List.length_cons] at hall
      omega
  · intro hnone hn
    subst hnone
    rw [List.drop_eq_nil_iff.mpr hn] at h
    rw [List.append_nil] at hfetches
    have hleft := hgives.left_eq fun fetch hfetch =>
      row_of_fetched (hfetches ▸ hfetch)
    have hnothing : s.cursor.left = 0 := by
      rw [Cursor.left, h rfl, List.length_nil]
    rw [hnothing, Cursor.left, hfetches, length_fetched] at hleft
    exact hleft.symm

end Counts

/-- Between calls a stream is one row ahead of the record that it has ready.  A
record that has been started stands behind one that is ready, and a failure that
is kept back stands alone; its state tells whether a record is ready, and else
whether there were rows.  While rows group, those of the records that have been
given and of the next one have been read, and one more if there are other
groups.  What the cursor has given determines all that, and it has been advanced
no further.  Once it has come to its end, or something has failed, calls neither
look at the cursor nor move it. -/
theorem reads_one_row_ahead {l : GroupLayout α} {checkOrdering : Bool}
    {c : Cursor} {opened : KeyedStream α}
    (hstart : start l checkOrdering c = .ok opened) (asks : List Ask) :
    ∃ (replies : List (Reply α)) (s : KeyedStream α) (given : List Row)
      (halt : Option Halt),
      read (.groups opened) (asks.map Ask.request) =
        (replies, none, .groups s) ∧
      (s.pending.isSome → s.ready.isSome) ∧
      (s.deferred.isSome → s.ready = none ∧ s.pending = none) ∧
      (s.state = .primed ↔ s.hasNext.1 = .ok true) ∧
      (s.state = .empty ↔ c.advance.1 = .ok none) ∧
      (s.state = .draining ↔ s.hasNext.1 ≠ .ok true ∧ c.advance.1 ≠ .ok none) ∧
      (∀ rows records rest, c.fetches = fetched rows ++ rest →
        l.Groups rows records →
        (checkOrdering = true → Ascending rows) →
        ((delivered replies).length + 1 < (runs rows).length →
          s.consumed = ((runs rows).take
            ((delivered replies).length + 1)).flatten.length + 1) ∧
        (rest = [] → (runs rows).length ≤ (delivered replies).length + 1 →
          s.consumed = rows.length)) ∧
      c.Gives given halt s.cursor ∧ s.consumed = given.length ∧
      (∀ c₁ c₂ : Cursor, c₁.Gives given halt c₂ →
        ((start l checkOrdering c₁).map fun s₁ =>
          read (.groups s₁) (asks.map Ask.request)) =
            .ok (replies, none, .groups { s with cursor := c₂ })) ∧
      (halt.isSome ∨ s.deferred.isSome ∨
          (∃ reply ∈ replies, reply.failure?.isSome) →
        ∀ later : List Ask, ∃ (replies' : List (Reply α)) (s' : KeyedStream α),
          ∀ c' : Cursor,
          read (.groups { s with cursor := c' }) (later.map Ask.request) =
            (replies', none, .groups { s' with cursor := c' })) := by
  obtain ⟨replies, s, given, halt, hgives, hcount, hsettled, hempty, hhalted,
      hfailed, hread, htakes⟩ :=
    start_read hstart asks
  have hprimed := state_eq_primed hsettled
  have hstate : s.state = .empty ↔ c.advance.1 = .ok none := by
    rw [state_eq_empty hsettled, hcount, List.length_eq_zero_iff, hempty]
  refine ⟨replies, s, given, halt, hread, hsettled.ready_of_pending,
    hsettled.alone, hprimed, hstate, ?_, ?_, hgives, hcount, fun c₁ c₂ =>
      @htakes c₁ c₂, fun hover => read_untouched hsettled ?_⟩
  · rw [state_eq_draining, Ne, Ne, hprimed, hstate]
  · intro rows records rest hfetches hgroups hordered
    have hflatten : (runs rows).flatten = rows := List.flatten_splitBy _ rows
    rw [← hflatten] at hfetches
    obtain ⟨replies', s', hread', hawaits⟩ :=
      exists_awaits (hgroups.line hordered) hfetches hstart asks
    obtain ⟨rfl, rfl⟩ : replies' = replies ∧ s' = s := by
      simpa using hread'.symm.trans hread
    rw [hcount]
    have hcounts := hawaits.count hgives hhalted hfetches
    rwa [hflatten] at hcounts
  · rcases hover with hhalt | hdeferred | hfailure
    · exact hhalted hhalt
    · exact (hsettled.alone hdeferred).2
    · exact hfailed hfailure

end KeyedStream

/-- Behind the rows of two identities stands a row with a lower key, and behind
that another row. -/
def disorderedJoin : Cursor :=
  { fetches := GroupLayout.fetched joinedRows ++
      [.row (joinedRow 1 "eve" .null "").2,
        .row (joinedRow 3 "eve" .null "").2] }

/-- The row of the second identity has been read when the stream opens, and the
row with the lower key has not.  Once that has been reported no row is looked at
any more. -/
theorem not_read_behind_lower_key :
    ∃ opened, KeyedStream.start Identity.layout true disorderedJoin =
      .ok opened ∧
      opened.state = .primed ∧ opened.consumed = 4 ∧
      ∃ (replies : List (Reply Identity)) (s : KeyedStream Identity),
        read (.groups opened) [.next, .hasNext] = (replies, none, .groups s) ∧
        replies[1]? = some
          (.follows (.error (Failure.orderingViolation "identity" 2 1))) ∧
        ∀ later : List Ask,
          ∃ (replies' : List (Reply Identity)) (s' : KeyedStream Identity),
          ∀ c' : Cursor,
            read (.groups { s with cursor := c' }) (later.map Ask.request) =
            (replies', none, .groups { s' with cursor := c' }) := by
  have hascending : Ascending joinedRows := by
    unfold Ascending
    decide +kernel
  have hfails : Identity.layout.Fails true joinedRows joinedIdentities
      (.row (joinedRow 1 "eve" .null "").2)
      (Failure.orderingViolation "identity" 2 1) :=
    @GroupLayout.Fails.disordered _ _ _ joinedRows _ _ 1 2 rfl rfl rfl
      (by decide)
  have htold :=
    GroupLayout.told_fails groups_joinedRows (fun _ => hascending) hfails
      [.row (joinedRow 3 "eve" .null "").2]
  obtain ⟨opened, hstart, hlayout, houtstanding⟩ :=
    KeyedStream.exists_start Identity.layout true
      (c := disorderedJoin) (by simp [disorderedJoin, htold, joinedIdentities])
  replace houtstanding := houtstanding.trans htold
  refine ⟨opened, hstart, ?_⟩
  obtain ⟨replies, s, given, halt, hread, -, -, hprimed, -, -, hcounts, -⟩ :=
    KeyedStream.reads_one_row_ahead hstart []
  -- nothing has been asked, so the stream is the one that opened
  cases hread
  obtain ⟨hdeferred, hready, -⟩ := KeyedStream.eq_of_outstanding houtstanding
  refine ⟨hprimed.mpr ?_, ?_, ?_⟩
  · simp [KeyedStream.hasNext, hdeferred, hready]
  · exact (hcounts joinedRows joinedIdentities _ rfl groups_joinedRows fun _ =>
      hascending).1 (by decide +kernel)
  · obtain ⟨replies, s, given, halt, hread, -, -, -, -, -, -, -, -, -, hover⟩ :=
      KeyedStream.reads_one_row_ahead hstart [.next, .hasNext]
    have hreplies := opened.read_eq_recite [.next, .hasNext]
    rw [hread, hlayout, houtstanding] at hreplies
    have hlower : replies[1]? =
        some (.follows (.error (Failure.orderingViolation "identity" 2 1))) :=
      congrArg (·[1]?) hreplies
    exact ⟨replies, s, hread, hlower,
      hover (.inr (.inr ⟨_, List.mem_of_getElem? hlower, rfl⟩))⟩

end Annals.Stream
