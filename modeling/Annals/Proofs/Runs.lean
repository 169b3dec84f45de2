import Annals.Proofs.Delivery
import Annals.Proofs.Rows
import Annals.Record.Layout
import Mathlib.Data.List.Forall2
import Mathlib.Data.List.ReduceOption
import Mathlib.Data.List.SplitBy

namespace Annals.Stream

open Annals.Sql

variable {α : Type}

/-- The maximal runs of rows with one key.  Every row stands behind its key. -/
def runs (rows : List (Int64 × Row)) : List (List (Int64 × Row)) :=
  rows.splitBy fun p q => p.1 == q.1

/-- What it means for lists of rows to be the maximal runs of a list: no row is
lost or doubled, the rows of a run have its key, and the next run has another
one. -/
structure AreRuns (rows : List (Int64 × Row)) (rs : List (List (Int64 × Row)))
    (keys : List Int64) : Prop where
  flatten : rs.flatten = rows
  keyed : List.Forall₂ (fun run k => run ≠ [] ∧ ∀ p ∈ run, p.1 = k) rs keys
  distinct : keys.IsChain (· ≠ ·)

theorem exists_key_iff {run : List (Int64 × Row)} (h : run ≠ []) :
    (∃ k, ∀ p ∈ run, p.1 = k) ↔ run.IsChain fun p q => (p.1 == q.1) = true := by
  obtain ⟨first, others, rfl⟩ := List.exists_cons_of_ne_nil h
  constructor
  · rintro ⟨k, hk⟩
    refine List.Pairwise.isChain
      (List.pairwise_of_forall_mem_list fun p hp q hq => ?_)
    rw [hk p hp, hk q hq]
    exact beq_self_eq_true k
  · intro hchain
    have hkeys : (first.1 :: others.map Prod.fst).IsChain Eq := by
      rw [← List.map_cons, List.isChain_map]
      exact hchain.imp fun p q hpq => eq_of_beq hpq
    refine ⟨first.1, fun p hp => ?_⟩
    rcases List.mem_cons.mp hp with rfl | hp
    · rfl
    · have hmem : p.1 ∈ others.map Prod.fst := List.mem_map_of_mem hp
      rw [List.isChain_cons_eq_iff_eq_replicate.mp hkeys] at hmem
      exact List.eq_of_mem_replicate hmem

theorem exists_keys {rs : List (List (Int64 × Row))}
    (hruns : ∀ run ∈ rs, run ≠ [] ∧ ∃ k, ∀ p ∈ run, p.1 = k)
    (hapart : rs.IsChain fun run next =>
      ∃ h h', ((run.getLast h).1 == (next.head h').1) = false) :
    ∃ keys, List.Forall₂ (fun run k => run ≠ [] ∧ ∀ p ∈ run, p.1 = k) rs keys ∧
      keys.IsChain (· ≠ ·) := by
  induction rs with
  | nil => exact ⟨[], .nil, .nil⟩
  | cons run rs ih =>
      obtain ⟨hnext, hrest⟩ := List.isChain_cons.mp hapart
      obtain ⟨keys, hkeyed, hdistinct⟩ :=
        ih (fun r hr => hruns r (List.mem_cons_of_mem run hr)) hrest
      obtain ⟨hrun, k, hk⟩ := hruns run List.mem_cons_self
      refine ⟨k :: keys, .cons ⟨hrun, hk⟩ hkeyed,
        List.isChain_cons.mpr ⟨?_, hdistinct⟩⟩
      rintro k' hk' rfl
      cases hkeyed with
      | nil => cases hk'
      | @cons next _ rs keys hhead _ =>
          cases hk'
          obtain ⟨h, h', hne⟩ := hnext next rfl
          rw [hk _ (List.getLast_mem h), hhead.2 _ (List.head_mem h')] at hne
          simp at hne

theorem exists_areRuns (rows : List (Int64 × Row)) :
    ∃ keys, AreRuns rows (runs rows) keys := by
  have hruns : ∀ run ∈ runs rows, run ≠ [] ∧ ∃ k, ∀ p ∈ run, p.1 = k :=
    fun run hrun =>
      have hne := List.ne_nil_of_mem_splitBy hrun
      ⟨hne, (exists_key_iff hne).mpr (List.isChain_of_mem_splitBy hrun)⟩
  obtain ⟨keys, hkeyed, hdistinct⟩ :=
    exists_keys hruns (List.isChain_getLast_head_splitBy
      (fun p q => p.1 == q.1) rows)
  exact ⟨keys, List.flatten_splitBy _ rows, hkeyed, hdistinct⟩

/-- There is only one way to cut rows into maximal runs. -/
theorem AreRuns.runs_eq {rows : List (Int64 × Row)}
    {rs : List (List (Int64 × Row))} {keys : List Int64}
    (h : AreRuns rows rs keys) : runs rows = rs := by
  obtain ⟨rfl, hkeyed, hdistinct⟩ := h
  have hruns : ∀ run ∈ rs, run ≠ [] ∧ ∃ k, ∀ p ∈ run, p.1 = k := by
    intro run hrun
    induction hkeyed with
    | nil => cases hrun
    | @cons _ k _ _ hhead _ ih =>
        rcases List.mem_cons.mp hrun with rfl | hrun
        · exact ⟨hhead.1, k, hhead.2⟩
        · exact ih (List.isChain_cons.mp hdistinct).2 hrun
  refine List.splitBy_flatten (fun hnil => (hruns [] hnil).1 rfl)
    (fun run hrun => (exists_key_iff (hruns run hrun).1).mp (hruns run hrun).2)
      ?_
  -- neighbours differ in their keys, so the last row of one is set apart from
  -- the first of the next
  clear hruns
  induction hkeyed with
  | nil => exact .nil
  | @cons run k rs keys hhead hrest ih =>
      obtain ⟨hnext, htail⟩ := List.isChain_cons.mp hdistinct
      refine List.isChain_cons.mpr ⟨?_, ih htail⟩
      intro next hmem
      cases hrest with
      | nil => cases hmem
      | @cons _ k' _ _ hhead' _ =>
          cases hmem
          refine ⟨hhead.1, hhead'.1, ?_⟩
          rw [hhead.2 _ (List.getLast_mem hhead.1),
            hhead'.2 _ (List.head_mem hhead'.1)]
          exact beq_false_of_ne (hnext k' rfl)

def lastKey (rows : List (Int64 × Row)) : Option Int64 :=
  rows.getLast?.map Prod.fst

theorem AreRuns.lastKey_eq {rows : List (Int64 × Row)}
    {rs : List (List (Int64 × Row))} {keys : List Int64}
    (h : AreRuns rows rs keys) : lastKey rows = keys.getLast? := by
  obtain ⟨rfl, hkeyed, -⟩ := h
  induction hkeyed with
  | nil => rfl
  | @cons run k rs keys hhead hrest ih =>
      have hlast : run.getLast?.map Prod.fst = some k := by
        rw [List.getLast?_eq_some_getLast hhead.1, Option.map_some,
          hhead.2 _ (List.getLast_mem hhead.1)]
      unfold lastKey at ih ⊢
      rw [List.flatten_cons, List.getLast?_append, Option.map_or, ih, hlast,
        List.getLast?_cons]
      cases keys.getLast? <;> rfl

/-- The keys of the rows do not go down. -/
def Ascending (rows : List (Int64 × Row)) : Prop :=
  rows.Pairwise fun p q => p.1 ≤ q.1

section Keys

variable {rows : List (Int64 × Row)} {rs : List (List (Int64 × Row))}
    {keys : List Int64}

theorem AreRuns.mem_keys (h : AreRuns rows rs keys) {k : Int64} :
    k ∈ keys ↔ ∃ p ∈ rows, p.1 = k := by
  obtain ⟨rfl, hkeyed, -⟩ := h
  induction hkeyed with
  | nil => simp
  | @cons run k' rs keys hhead _ ih =>
      rw [List.mem_cons, ih, List.flatten_cons]
      constructor
      · rintro (rfl | ⟨p, hp, rfl⟩)
        · obtain ⟨p, hp⟩ := List.exists_mem_of_ne_nil run hhead.1
          exact ⟨p, List.mem_append_left _ hp, hhead.2 p hp⟩
        · exact ⟨p, List.mem_append_right _ hp, rfl⟩
      · rintro ⟨p, hp, rfl⟩
        rcases List.mem_append.mp hp with hp | hp
        · exact .inl (hhead.2 p hp)
        · exact .inr ⟨p, hp, rfl⟩

theorem AreRuns.keys_le (h : AreRuns rows rs keys) (hrows : Ascending rows) :
    keys.Pairwise (· ≤ ·) := by
  obtain ⟨rfl, hkeyed, hdistinct⟩ := h
  induction hkeyed with
  | nil => exact .nil
  | @cons run k rs keys hhead hrest ih =>
      have htail := (List.isChain_cons.mp hdistinct).2
      obtain ⟨-, hlater, hbelow⟩ := List.pairwise_append.mp hrows
      refine List.pairwise_cons.mpr ⟨fun k' hk' => ?_, ih htail hlater⟩
      obtain ⟨p, hp⟩ := List.exists_mem_of_ne_nil run hhead.1
      obtain ⟨q, hq, rfl⟩ := (AreRuns.mem_keys ⟨rfl, hrest, htail⟩).mp hk'
      rw [← hhead.2 p hp]
      exact hbelow p hp q hq

theorem pairwise_lt_of_isChain_ne (hdistinct : keys.IsChain (· ≠ ·))
    (hle : keys.Pairwise (· ≤ ·)) : keys.Pairwise (· < ·) := by
  induction keys with
  | nil => exact .nil
  | cons k keys ih =>
      obtain ⟨hnext, htail⟩ := List.isChain_cons.mp hdistinct
      obtain ⟨hfirst, hrest⟩ := List.pairwise_cons.mp hle
      refine List.pairwise_cons.mpr ⟨fun k' hk' => ?_, ih htail hrest⟩
      cases keys with
      | nil => cases hk'
      | cons k₁ keys =>
          have hlt : k < k₁ :=
            Int64.lt_of_le_of_ne (hfirst k₁ List.mem_cons_self) (hnext k₁ rfl)
          rcases List.mem_cons.mp hk' with rfl | hk'
          · exact hlt
          · exact Int64.lt_of_lt_of_le hlt
              ((List.pairwise_cons.mp hrest).1 k' hk')

/-- If keys do not go down then the runs come in the strict order of their keys,
so that every key has one run. -/
theorem AreRuns.keys_lt (h : AreRuns rows rs keys) (hrows : Ascending rows) :
    keys.Pairwise (· < ·) :=
  pairwise_lt_of_isChain_ne h.distinct (h.keys_le hrows)

theorem AreRuns.keys_next (h : AreRuns rows rs keys) {checkOrdering : Bool}
    (hordered : checkOrdering = true → Ascending rows) :
    keys.IsChain fun k k' => k ≠ k' ∧ (checkOrdering = true → k ≤ k') := by
  cases checkOrdering with
  | false =>
      exact h.distinct.imp fun _ _ hne => ⟨hne, fun hcheck => by cases hcheck⟩
  | true =>
      exact (h.keys_lt (hordered rfl)).isChain.imp fun _ _ hlt =>
        ⟨Int64.ne_of_lt hlt, fun _ => Int64.le_of_lt hlt⟩

theorem AreRuns.ascending (h : AreRuns rows rs keys)
    (hkeys : keys.Pairwise (· < ·)) :
    Ascending rows := by
  obtain ⟨rfl, hkeyed, hdistinct⟩ := h
  induction hkeyed with
  | nil => exact .nil
  | @cons run k rs keys hhead hrest ih =>
      have htail := (List.isChain_cons.mp hdistinct).2
      obtain ⟨hbelow, hlater⟩ := List.pairwise_cons.mp hkeys
      rw [List.flatten_cons]
      refine List.pairwise_append.mpr ⟨?_, ih hlater htail, fun p hp q hq => ?_⟩
      · refine List.pairwise_of_forall_mem_list fun p hp q hq => ?_
        rw [hhead.2 p hp, hhead.2 q hq]
        exact Int64.le_refl k
      · rw [hhead.2 p hp]
        exact Int64.le_of_lt
          (hbelow q.1 ((AreRuns.mem_keys ⟨rfl, hrest, htail⟩).mpr ⟨q, hq, rfl⟩))

end Keys

namespace GroupLayout

/-- The record that the first row of a run creates and into which the others are
merged in their order. -/
def fold (l : GroupLayout α) (first : Row) (others : List Row) :
    Except Failure α := do
  let a ← l.create first
  others.foldlM l.merge a

def Makes (l : GroupLayout α) : List (Int64 × Row) → α → Prop
  | [], _ => False
  | first :: others, a => l.fold first.2 (others.map Prod.snd) = .ok a

/-- The rows have their keys, and every maximal run of them makes a record. -/
structure Groups (l : GroupLayout α) (rows : List (Int64 × Row))
    (records : List α) : Prop where
  keyed : ∀ p ∈ rows, l.key p.2 = .ok p.1
  made : List.Forall₂ l.Makes (runs rows) records

theorem mapError_eq_ok {ε ε' β : Type} {e : Except ε β} {b : β} (h : e = .ok b)
    (f : ε → ε') :
    e.mapError f = .ok b := by
  rw [h]
  rfl

theorem mapError_eq_error {ε ε' β : Type} {e : Except ε β} {b : ε}
    (h : e = .error b) (f : ε → ε') : e.mapError f = .error (f b) := by
  rw [h]
  rfl

def fetched (rows : List (Int64 × Row)) : List Fetch :=
  rows.map fun p => Fetch.row p.2

theorem fetched_run (first : Int64 × Row) (others : List (Int64 × Row))
    (rs : List (List (Int64 × Row))) (rest : List Fetch) :
    fetched ((first :: others) :: rs).flatten ++ rest =
      .row first.2 :: (fetched others ++ (fetched rs.flatten ++ rest)) := by
  simp [fetched]

variable {l : GroupLayout α} {checkOrdering : Bool} {k : Int64} {a b : α}
    {rest : List Fetch}

theorem gather_run {others : List (Int64 × Row)}
    (hkeys : ∀ p ∈ others, l.key p.2 = .ok k)
    (h : (others.map Prod.snd).foldlM l.merge a = .ok b) (checkOrdering : Bool)
    (rest : List Fetch) :
    (l.gather checkOrdering k a (fetched others ++ rest)).outcome =
        (l.gather checkOrdering k b rest).outcome ∧
      (l.gather checkOrdering k a (fetched others ++ rest)).rest =
        (l.gather checkOrdering k b rest).rest := by
  induction others generalizing a with
  | nil =>
      cases h
      exact ⟨rfl, rfl⟩
  | cons p others ih =>
      obtain ⟨a', hmerge, h⟩ := bind_eq_ok.mp h
      have hkey : l.keyOf p.2 = .ok k :=
        mapError_eq_ok (hkeys p List.mem_cons_self) _
      have hmerged : l.mergeRow a p.2 = .ok a' := mapError_eq_ok hmerge _
      have hrest := ih (fun q hq => hkeys q (List.mem_cons_of_mem p hq)) h
      change (l.gather checkOrdering k a
        (.row p.2 :: (fetched others ++ rest))).outcome = _ ∧
        (l.gather checkOrdering k a
          (.row p.2 :: (fetched others ++ rest))).rest = _
      simpa [gather, hkey, hmerged] using hrest

theorem upcoming_run {others : List (Int64 × Row)}
    (hkeys : ∀ p ∈ others, l.key p.2 = .ok k)
    (h : (others.map Prod.snd).foldlM l.merge a = .ok b) :
    l.upcoming checkOrdering k a (fetched others ++ rest) =
      l.upcoming checkOrdering k b rest := by
  obtain ⟨houtcome, hrest⟩ := gather_run hkeys h checkOrdering rest
  rw [l.upcoming_eq_gather, houtcome, hrest, ← l.upcoming_eq_gather]

/-- A key that does not go down is met whether the order is checked or not. -/
theorem not_lower {k' : Int64} (h : checkOrdering = true → k ≤ k') :
    ¬(checkOrdering && decide (k' < k)) = true := by
  intro hlower
  obtain ⟨hcheck, hlt⟩ := Bool.and_eq_true_iff.mp hlower
  exact Int64.not_lt.mpr (h hcheck) (of_decide_eq_true hlt)

theorem Makes.exists_started {run : List (Int64 × Row)} (h : l.Makes run b)
    (checkOrdering : Bool) (hkeys : ∀ p ∈ run, l.key p.2 = .ok k) :
    ∃ first others started, run = first :: others ∧ l.keyOf first.2 = .ok k ∧
      l.start first.2 = .ok started ∧ ∀ rest, l.upcoming checkOrdering k started
        (fetched others ++ rest) = l.upcoming checkOrdering k b rest := by
  cases run with
  | nil => exact h.elim
  | cons first others =>
      obtain ⟨started, hcreate, hmerge⟩ := bind_eq_ok.mp h
      exact ⟨first, others, started, rfl,
        mapError_eq_ok (hkeys first List.mem_cons_self) _,
        mapError_eq_ok hcreate _, fun rest =>
          upcoming_run (fun p hp => hkeys p (List.mem_cons_of_mem first hp))
            hmerge⟩

theorem upcoming_runs {rs : List (List (Int64 × Row))} {keys : List Int64}
    {records : List α} (hlookup : ∀ run ∈ rs, ∀ p ∈ run, l.key p.2 = .ok p.1)
    (hkeyed : List.Forall₂ (fun run k => run ≠ [] ∧ ∀ p ∈ run, p.1 = k) rs keys)
    (hmade : List.Forall₂ l.Makes rs records)
    (hnext : (k :: keys).IsChain fun k k' => k ≠ k' ∧
      (checkOrdering = true → k ≤ k')) :
    l.upcoming checkOrdering k a (fetched rs.flatten ++ rest) =
      (a :: records).dropLast.map .ok ++
        l.upcoming checkOrdering (keys.getLastD k) (records.getLastD a)
          rest := by
  induction hkeyed generalizing k a records with
  | nil =>
      cases hmade
      rfl
  | @cons run k' rs keys hhead _ ih =>
      cases hmade with
      | @cons _ b _ records hmakes hmade =>
      obtain ⟨⟨hne, hle⟩, htail⟩ := List.isChain_cons_cons.mp hnext
      obtain ⟨first, others, started, rfl, hkey, hstart, hothers⟩ :=
        hmakes.exists_started checkOrdering fun p hp =>
          (hlookup run List.mem_cons_self p hp).trans
            (congrArg _ (hhead.2 p hp))
      rw [fetched_run, upcoming, hkey]
      simp only [if_neg hne.symm, if_neg (not_lower hle), hstart]
      rw [hothers, ih (fun run hrun =>
        hlookup run (List.mem_cons_of_mem _ hrun)) hmade htail,
          List.getLastD_cons, List.getLastD_cons]
      rfl

end GroupLayout

end Annals.Stream
