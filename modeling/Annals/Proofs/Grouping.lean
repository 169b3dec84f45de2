import Annals.Proofs.Merging

namespace Annals.Stream

open Annals.Sql

variable {α : Type}

section Append

variable {rows : List (Int64 × Row)} {rs : List (List (Int64 × Row))}
    {keys : List Int64} {run : List (Int64 × Row)} {k : Int64}

theorem forall₂_concat_right {β γ : Type} {R : β → γ → Prop} {bs : List β}
    {cs : List γ} {c : γ} :
    List.Forall₂ R bs (cs ++ [c]) ↔
      ∃ bs' b, bs = bs' ++ [b] ∧ List.Forall₂ R bs' cs ∧ R b c := by
  constructor
  · intro h
    have hlast := List.forall₂_drop_append bs cs [c] h
    obtain ⟨b, hdrop⟩ := List.length_eq_one_iff.mp hlast.length_eq
    rw [hdrop] at hlast
    cases hlast with
    | cons hbc _ =>
        refine ⟨_, b, ?_, List.forall₂_take_append bs cs [c] h, hbc⟩
        rw [← hdrop, List.take_append_drop]
  · rintro ⟨bs', b, rfl, hrest, hlast⟩
    exact List.rel_append hrest (.cons hlast .nil)

theorem AreRuns.extend (h : AreRuns rows (rs ++ [run]) (keys ++ [k]))
    (r : Row) :
    AreRuns (rows ++ [(k, r)]) (rs ++ [run ++ [(k, r)]]) (keys ++ [k]) := by
  obtain ⟨rfl, hkeyed, hdistinct⟩ := h
  obtain ⟨rs', run', heq, hrest, hne, hlast⟩ := forall₂_concat_right.mp hkeyed
  obtain ⟨rfl, rfl⟩ :=
    List.append_inj' heq rfl |>.imp_right List.singleton_inj.mp
  refine ⟨by simp, forall₂_concat_right.mpr ⟨rs, _, rfl, hrest, by simp,
    fun p hp => ?_⟩, hdistinct⟩
  rcases List.mem_append.mp hp with hp | hp
  · exact hlast p hp
  · rw [List.mem_singleton.mp hp]

theorem AreRuns.open (h : AreRuns rows rs keys) (hother : lastKey rows ≠ some k)
    (r : Row) :
    AreRuns (rows ++ [(k, r)]) (rs ++ [[(k, r)]]) (keys ++ [k]) := by
  have hlast := h.lastKey_eq
  obtain ⟨rfl, hkeyed, hdistinct⟩ := h
  refine ⟨by simp, forall₂_concat_right.mpr
    ⟨rs, _, rfl, hkeyed, by simp, by simp⟩, ?_⟩
  refine List.isChain_append.mpr ⟨hdistinct, .singleton k, ?_⟩
  rintro k' hk' _ ⟨⟩ rfl
  exact hother (hlast.trans hk')

theorem lastKey_concat (rows : List (Int64 × Row)) (p : Int64 × Row) :
    lastKey (rows ++ [p]) = some p.1 := by
  rw [lastKey, List.getLast?_concat]
  rfl

theorem Ascending.concat (h : Ascending rows) {p : Int64 × Row}
    (hlast : ∀ k, lastKey rows = some k → k ≤ p.1) :
    Ascending (rows ++ [p]) := by
  refine List.pairwise_append.mpr ⟨h, List.pairwise_singleton _ p,
    fun q hq q' hq' => ?_⟩
  rw [List.mem_singleton.mp hq']
  rcases List.eq_nil_or_concat rows with rfl | ⟨rows, last, rfl⟩
  · cases hq
  · rw [List.concat_eq_append] at *
    have hle := hlast _ (lastKey_concat rows last)
    rcases List.mem_append.mp hq with hq | hq
    · exact Int64.le_trans
        ((List.pairwise_append.mp h).2.2 q hq last List.mem_cons_self) hle
    · rw [List.mem_singleton.mp hq]
      exact hle

end Append

namespace GroupLayout

section Append

variable {l : GroupLayout α} {rows : List (Int64 × Row)} {records : List α}
    {k : Int64} {r : Row} {a b : α}

theorem groups_nil (l : GroupLayout α) : l.Groups [] [] := ⟨by simp, .nil⟩

theorem fold_concat (first r : Row) (others : List Row) :
    l.fold first (others ++ [r]) = (l.fold first others) >>= (l.merge · r) := by
  unfold fold
  rw [bind_assoc]
  refine bind_congr fun a => ?_
  rw [List.foldlM_append]
  refine bind_congr fun a => ?_
  rw [List.foldlM_cons]
  exact bind_pure _

theorem keyed_concat (h : ∀ p ∈ rows, l.key p.2 = .ok p.1)
    (hkey : l.key r = .ok k) :
    ∀ p ∈ rows ++ [(k, r)], l.key p.2 = .ok p.1 := by
  intro p hp
  rcases List.mem_append.mp hp with hp | hp
  · exact h p hp
  · rwa [List.mem_singleton.mp hp]

theorem Groups.extend (h : l.Groups rows records)
    (hlast : lastKey rows = some k) (hkey : l.key r = .ok k)
    (hopen : records.getLast? = some a) (hmerge : l.merge a r = .ok b) :
    l.Groups (rows ++ [(k, r)]) (records.dropLast ++ [b]) := by
  obtain ⟨hkeyed, hmade⟩ := h
  obtain ⟨keys, hruns⟩ := exists_areRuns rows
  obtain ⟨earlier, rfl⟩ := List.getLast?_eq_some_iff.mp hopen
  obtain ⟨rs, run, heq, hrest, hmakes⟩ := forall₂_concat_right.mp hmade
  obtain ⟨keys', rfl⟩ :=
    List.getLast?_eq_some_iff.mp (hruns.lastKey_eq.symm.trans hlast)
  rw [heq] at hruns
  refine ⟨keyed_concat hkeyed hkey, ?_⟩
  rw [(hruns.extend r).runs_eq, List.dropLast_concat]
  refine forall₂_concat_right.mpr ⟨rs, _, rfl, hrest, ?_⟩
  cases run with
  | nil => exact hmakes.elim
  | cons first others =>
      change l.fold first.2 ((others ++ [(k, r)]).map Prod.snd) = _
      rw [List.map_append]
      exact (fold_concat ..).trans (bind_eq_ok.mpr ⟨a, hmakes, hmerge⟩)

theorem Groups.open (h : l.Groups rows records) (hother : lastKey rows ≠ some k)
    (hkey : l.key r = .ok k) (hcreate : l.create r = .ok a) :
    l.Groups (rows ++ [(k, r)]) (records ++ [a]) := by
  obtain ⟨hkeyed, hmade⟩ := h
  obtain ⟨keys, hruns⟩ := exists_areRuns rows
  refine ⟨keyed_concat hkeyed hkey, ?_⟩
  rw [(hruns.open hother r).runs_eq]
  exact forall₂_concat_right.mpr
    ⟨_, _, rfl, hmade, bind_eq_ok.mpr ⟨a, hcreate, rfl⟩⟩

theorem Groups.exists_last (h : l.Groups rows records)
    (hlast : lastKey rows = some k) :
    ∃ a, records.getLast? = some a := by
  have hne : records ≠ [] := by
    rintro rfl
    have hruns : runs rows = [] := List.forall₂_nil_right_iff.mp h.made
    rw [← List.flatten_splitBy (fun p q : Int64 × Row =>
      p.1 == q.1) rows] at hlast
    rw [show rows.splitBy _ = [] from hruns] at hlast
    cases hlast
  exact ⟨records.getLast hne, List.getLast?_eq_some_getLast hne⟩

end Append

section Told

variable (l : GroupLayout α) (checkOrdering : Bool)

def told : List Fetch → List (Except Failure α)
  | [] => []
  | .fault f :: _ | .lost f :: _ => [.error f]
  | .row r :: rest =>
    match l.keyOf r with
    | .error f => [.error f]
    | .ok k =>
      match l.start r with
      | .error f => [.error f]
      | .ok a => l.upcoming checkOrdering k a rest

variable {l checkOrdering} {rows : List (Int64 × Row)} {records : List α}

theorem told_fetched (h : l.Groups rows records)
    (hordered : checkOrdering = true → Ascending rows)
    {k : Int64} {a : α} (hlast : lastKey rows = some k)
    (hopen : records.getLast? = some a) (rest : List Fetch) :
    l.told checkOrdering (fetched rows ++ rest) =
      records.dropLast.map .ok ++ l.upcoming checkOrdering k a rest := by
  obtain ⟨hlookup, hmade⟩ := h
  obtain ⟨keys, hruns⟩ := exists_areRuns rows
  have hlastKey := hruns.lastKey_eq.symm.trans hlast
  have hnext := hruns.keys_next hordered
  obtain ⟨hflatten, hkeyed, -⟩ := hruns
  rw [← hflatten] at hlookup ⊢
  generalize runs rows = rs at *
  cases hkeyed with
  | nil => cases hlastKey
  | @cons run k₁ rs keys hhead hkeyed =>
      cases hmade with
      | @cons _ a₁ _ records hmakes hmade =>
      obtain ⟨first, others, started, rfl, hkey, hstart, hothers⟩ :=
        hmakes.exists_started checkOrdering fun p hp =>
          (hlookup p (List.mem_append_left _ hp)).trans
            (congrArg _ (hhead.2 p hp))
      rw [fetched_run, told, hkey]
      simp only [hstart]
      rw [hothers, upcoming_runs (fun run hrun p hp =>
        hlookup p (List.mem_append_right _
          (List.mem_flatten_of_mem hrun hp))) hkeyed hmade hnext]
      rw [List.getLast?_cons] at hlastKey hopen
      rw [List.getLastD_eq_getLast?, List.getLastD_eq_getLast?,
        Option.some.inj hlastKey, Option.some.inj hopen]

end Told

end GroupLayout

namespace KeyedStream

theorem start_told (l : GroupLayout α) (checkOrdering : Bool) (c : Cursor) :
    match start l checkOrdering c with
    | .ok s => s.layout = l ∧ s.outstanding = l.told checkOrdering c.fetches ∧
        ∀ f, s.outstanding ≠ [.error f]
    | .error (f, _) => l.told checkOrdering c.fetches = [.error f] := by
  obtain ⟨fetches, progress⟩ := c
  unfold start GroupLayout.told
  rcases fetches with _ | ⟨r | f | f, rest⟩
  case nil => exact ⟨rfl, rfl, fun f => by simp [outstanding]⟩
  case cons.fault => rfl
  case cons.lost => rfl
  case cons.row =>
    dsimp only [Cursor.advance, Cursor.underWay]
    cases hkey : l.keyOf r with
    | error f => rfl
    | ok k =>
        cases hstart : l.start r with
        | error f => rfl
        | ok a =>
            dsimp only
            generalize hs : (
              { layout := l, checkOrdering, cursor := ⟨rest, .underWay⟩,
                pending := some (k, a), consumed := 1 } : KeyedStream α) = s
            -- the first row is pending, and the stream goes on to the end of
            -- its run
            have hfetch :=
              outstanding_fetchNext (s := s) (by rw [← hs]) (by rw [← hs])
            have hlayout := s.layout_fetchNext
            have hdeferred := s.deferred_fetchNext
            rcases hrun : s.fetchNext with ⟨f | _, s'⟩
            · rw [hrun, ← hs] at hfetch
              exact hfetch.1
            · rw [hrun, ← hs] at hfetch hlayout hdeferred
              refine ⟨hlayout, hfetch, fun f => ?_⟩
              unfold outstanding
              rw [show s'.deferred = none from hdeferred]
              cases s'.ready <;> simp

theorem exists_start (l : GroupLayout α) (checkOrdering : Bool) {c : Cursor}
    (h : ∀ f, l.told checkOrdering c.fetches ≠ [.error f]) :
    ∃ s, start l checkOrdering c = .ok s ∧ s.layout = l ∧
      s.outstanding = l.told checkOrdering c.fetches := by
  have htold := start_told l checkOrdering c
  rcases hstart : start l checkOrdering c with ⟨f, c'⟩ | s
  · rw [hstart] at htold
    exact absurd htold (h f)
  · rw [hstart] at htold
    exact ⟨s, rfl, htold.1, htold.2.1⟩

theorem start_eq_error {l : GroupLayout α} {checkOrdering : Bool} {c : Cursor}
    {f : Failure} (h : l.told checkOrdering c.fetches = [.error f]) :
    ∃ c', start l checkOrdering c = .error (f, c') := by
  have htold := start_told l checkOrdering c
  rcases hstart : start l checkOrdering c with ⟨f', c'⟩ | s
  · rw [hstart] at htold
    cases h.symm.trans htold
    exact ⟨c', rfl⟩
  · rw [hstart] at htold
    exact absurd (htold.2.1.trans h) (htold.2.2 f)

end KeyedStream

theorem GroupLayout.told_groups {l : GroupLayout α} {rows : List (Int64 × Row)}
    {records : List α} (h : l.Groups rows records) {checkOrdering : Bool}
    (hordered : checkOrdering = true → Ascending rows) :
    l.told checkOrdering (fetched rows) = records.map .ok := by
  cases hlast : lastKey rows with
  | none =>
      obtain rfl : rows = [] := by simpa [lastKey] using hlast
      rw [List.forall₂_nil_left_iff.mp h.made]
      rfl
  | some k =>
      obtain ⟨a, hopen⟩ := h.exists_last hlast
      have htold := told_fetched h hordered hlast hopen []
      obtain ⟨records, rfl⟩ := List.getLast?_eq_some_iff.mp hopen
      rw [List.append_nil] at htold
      rw [htold, List.dropLast_concat, List.map_append]
      rfl

/-- A stream on rows that group tells the records of their maximal runs in the
order of the runs, however it is asked.  If keys do not go down then every key
has exactly one run.  A run of the join of identities makes an identity with the
aliases of its rows, each once, in the order in which they come first. -/
theorem KeyedStream.reads_record_per_run (l : GroupLayout α)
    {rows : List (Int64 × Row)} {records : List α} (h : l.Groups rows records)
    {checkOrdering : Bool} (hordered : checkOrdering = true → Ascending rows) :
    (∃ s, start l checkOrdering (.ofRows (rows.map Prod.snd)) = .ok s ∧ ∀ asks,
      (read (.groups s) (asks.map Ask.request)).1 =
        recite l.entity (records.map .ok) asks ∧
      delivered (read (.groups s) (asks.map Ask.request)).1 =
        records.take (asks.count .next)) ∧
    (∃ keys, AreRuns rows (runs rows) keys ∧ (Ascending rows →
      keys.Pairwise (· < ·) ∧ ∀ k, k ∈ keys ↔ ∃ p ∈ rows, p.1 = k)) ∧
    ∀ run i, Identity.layout.Makes run i →
      ∃ found, (run.map Prod.snd).mapM (·.optional Row.entityId 3) = .ok found ∧
        i.aliases.map Record.id? = found.reduceOption.eraseDups.map some := by
  refine ⟨?_, ?_, fun run i => Identity.aliases_of_makes⟩
  · have htold : l.told checkOrdering
        (Cursor.ofRows (rows.map Prod.snd)).fetches = records.map .ok := by
      rw [← GroupLayout.told_groups h hordered, GroupLayout.fetched,
        Cursor.ofRows, List.map_map]
      rfl
    obtain ⟨s, hstart, hlayout, houtstanding⟩ := exists_start l checkOrdering
      (c := .ofRows (rows.map Prod.snd)) (by
        rw [htold]
        cases records <;> simp)
    refine ⟨s, hstart, fun asks => ?_⟩
    have hread := s.read_eq_recite asks
    rw [hlayout, houtstanding, htold] at hread
    refine ⟨hread, ?_⟩
    rw [hread]
    simpa using delivered_recite l.entity records [] asks
  · obtain ⟨keys, hruns⟩ := exists_areRuns rows
    refine ⟨keys, hruns, ?_⟩
    intro hrows
    exact ⟨hruns.keys_lt hrows, fun _ => hruns.mem_keys⟩

def joinedRow (id : Int64) (name : String) (aliasId : Value) (email : String) :
    Int64 × Row :=
  (id, ⟨[.integer id, .text name, .null, aliasId, .text name, .text email]⟩)

/-- Two identities: the first one has two aliases and stands in three rows, the
second has none. -/
def joinedRows : List (Int64 × Row) :=
  [joinedRow 1 "ada" (.integer 11) "ada@example.org",
    joinedRow 1 "ada" (.integer 11) "ada@example.org",
    joinedRow 1 "ada" (.integer 10) "countess@example.org",
    joinedRow 2 "grace" .null ""]

def joinedIdentities : List Identity :=
  [{ ident := .ofValue 1, name := "ada",
     aliases :=
       [{ ident := .ofValue 11, name := "ada", email := "ada@example.org" },
         { ident := .ofValue 10, name := "ada",
           email := "countess@example.org" }] },
    { ident := .ofValue 2, name := "grace" }]

theorem groups_joinedRows :
    Identity.layout.Groups joinedRows joinedIdentities where
  keyed := by
    intro p hp
    simp only [joinedRows, List.mem_cons, List.not_mem_nil, or_false] at hp
    rcases hp with rfl | rfl | rfl | rfl <;> rfl
  made := by
    have hruns : runs joinedRows = [joinedRows.take 3, joinedRows.drop 3] := by
      decide +kernel
    rw [hruns]
    exact .cons rfl (.cons rfl .nil)

theorem reads_joinedRows :
    Identity.layout.Groups joinedRows joinedIdentities ∧ Ascending joinedRows ∧
      ∃ s,
        KeyedStream.start Identity.layout true
          (.ofRows (joinedRows.map Prod.snd)) = .ok s ∧
        delivered (read (.groups s) [.hasNext, .next, .next,
          .hasNext, .next]).1 = joinedIdentities := by
  have hascending : Ascending joinedRows := by
    unfold Ascending
    decide +kernel
  obtain ⟨⟨s, hstart, hreads⟩, -⟩ :=
    KeyedStream.reads_record_per_run Identity.layout
      groups_joinedRows fun (_ : true = true) => hascending
  refine ⟨groups_joinedRows, hascending, s, hstart, ?_⟩
  exact (hreads [.hasNext, .next, .next, .hasNext, .next]).2

/-- How a fetch can fail behind rows that group: the fetch itself, a row without
a key, a row of the last run that cannot be merged, a row with a lower key than
the last run if keys must not go down, and a row that opens a run and makes no
record. -/
inductive GroupLayout.Fails (l : GroupLayout α) (checkOrdering : Bool)
    (rows : List (Int64 × Row)) (records : List α) : Fetch → Failure → Prop
  | fault (f : Failure) : Fails l checkOrdering rows records (.fault f) f
  | lost (f : Failure) : Fails l checkOrdering rows records (.lost f) f
  | unkeyed {r : Row} {f : Failure} (hkey : l.key r = .error f) :
      Fails l checkOrdering rows records (.row r) (f.withEntity l.entity)
  | unmerged {r : Row} {k : Int64} {a : α} {f : Failure}
      (hkey : l.key r = .ok k) (hlast : lastKey rows = some k)
      (hopen : records.getLast? = some a) (hmerge : l.merge a r = .error f) :
      Fails l checkOrdering rows records (.row r) (f.withEntity l.entity)
  | disordered {r : Row} {k previous : Int64} (hkey : l.key r = .ok k)
      (hlast : lastKey rows = some previous) (hcheck : checkOrdering = true)
      (hlower : k < previous) :
      Fails l checkOrdering rows records (.row r)
        (Failure.orderingViolation l.entity previous.toInt k.toInt)
  | unstarted {r : Row} {k : Int64} {f : Failure} (hkey : l.key r = .ok k)
      (hother : lastKey rows ≠ some k)
      (hordered : checkOrdering = true →
        ∀ previous, lastKey rows = some previous → previous ≤ k)
      (hcreate : l.create r = .error f) :
      Fails l checkOrdering rows records (.row r) (f.withEntity l.entity)

namespace GroupLayout

variable {l : GroupLayout α} {checkOrdering : Bool} {rows : List (Int64 × Row)}
    {records : List α}

/-- A result is made of rows that group, unless something fails behind such
rows. -/
theorem Groups.exists_failure (h : l.Groups rows records)
    (hordered : checkOrdering = true → Ascending rows) (fetches : List Fetch) :
    (∃ rows' records', fetched rows ++ fetches = fetched rows' ∧
      l.Groups rows' records' ∧
      (checkOrdering = true → Ascending rows')) ∨
    ∃ rows' records' fetch f rest,
      fetched rows ++ fetches = fetched rows' ++ fetch :: rest ∧
      l.Groups rows' records' ∧ (checkOrdering = true → Ascending rows') ∧
      l.Fails checkOrdering rows' records' fetch f := by
  -- a fetch either makes the rows that group longer by one, or fails behind
  -- them
  induction fetches generalizing rows records with
  | nil => exact .inl ⟨rows, records, List.append_nil _, h, hordered⟩
  | cons fetch rest ih =>
      rcases fetch with r | f | f
      case fault =>
        exact .inr ⟨rows, records, _, f, rest, rfl, h, hordered, .fault f⟩
      case lost =>
        exact .inr ⟨rows, records, _, f, rest, rfl, h, hordered, .lost f⟩
      case row =>
        cases hkey : l.key r with
        | error f =>
            exact .inr ⟨rows, records, _, _, rest, rfl, h, hordered,
              .unkeyed hkey⟩
        | ok k =>
            have hsnoc : fetched (rows ++ [(k, r)]) ++ rest = fetched rows ++
                .row r :: rest := by
              simp [fetched]
            by_cases hsame : lastKey rows = some k
            · obtain ⟨a, hopen⟩ := h.exists_last hsame
              cases hmerge : l.merge a r with
              | error f =>
                  exact .inr ⟨rows, records, _, _, rest, rfl, h, hordered,
                    .unmerged hkey hsame hopen hmerge⟩
              | ok b =>
                  rw [← hsnoc]
                  refine ih (h.extend hsame hkey hopen hmerge) fun hcheck => ?_
                  refine (hordered hcheck).concat fun k' hk' => ?_
                  rw [Option.some.inj (hk'.symm.trans hsame)]
                  exact Int64.le_refl k
            · by_cases hlower : checkOrdering = true ∧
                ∃ previous, lastKey rows = some previous ∧
                k < previous
              · obtain ⟨hcheck, previous, hlast, hlower⟩ := hlower
                exact .inr ⟨rows, records, _, _, rest, rfl, h, hordered,
                  .disordered hkey hlast hcheck hlower⟩
              · have hle : checkOrdering = true →
                    ∀ previous, lastKey rows = some previous →
                    previous ≤ k := fun hcheck previous hlast =>
                  Int64.not_lt.mp fun hlt =>
                    hlower ⟨hcheck, previous, hlast, hlt⟩
                cases hcreate : l.create r with
                | error f =>
                    exact .inr ⟨rows, records, _, _, rest, rfl, h, hordered,
                      .unstarted hkey hsame hle hcreate⟩
                | ok a =>
                    rw [← hsnoc]
                    exact ih (h.open hsame hkey hcreate) fun hcheck =>
                      (hordered hcheck).concat (hle hcheck)

theorem told_fails (h : l.Groups rows records)
    (hordered : checkOrdering = true → Ascending rows)
    {fetch : Fetch} {f : Failure}
    (hfails : l.Fails checkOrdering rows records fetch f) (rest : List Fetch) :
    l.told checkOrdering (fetched rows ++ fetch :: rest) =
      records.dropLast.map .ok ++ [.error f] := by
  -- without a row in front the stream does not open; otherwise the failure cuts
  -- off the open run
  cases hlast : lastKey rows with
  | none =>
      obtain rfl : rows = [] := by simpa [lastKey] using hlast
      rw [List.forall₂_nil_left_iff.mp h.made]
      change l.told checkOrdering (fetch :: rest) = [.error f]
      cases hfails with
      | fault f => rfl
      | lost f => rfl
      | unkeyed hkey =>
          rw [told, show l.keyOf _ = _ from mapError_eq_error hkey _]
      | unmerged _ hlast' => cases hlast.symm.trans hlast'
      | disordered _ hlast' => cases hlast.symm.trans hlast'
      | unstarted hkey _ _ hcreate =>
          rw [told, show l.keyOf _ = _ from mapError_eq_ok hkey _]
          simp only [show l.start _ = _ from mapError_eq_error hcreate _]
  | some previous =>
      obtain ⟨a, hopen⟩ := h.exists_last hlast
      rw [told_fetched h hordered hlast hopen]
      congr 1
      cases hfails with
      | fault f => rfl
      | lost f => rfl
      | unkeyed hkey =>
          rw [upcoming, show l.keyOf _ = _ from mapError_eq_error hkey _]
      | unmerged hkey hlast' hopen' hmerge =>
          cases hlast.symm.trans hlast'
          cases hopen.symm.trans hopen'
          rw [upcoming, show l.keyOf _ = _ from mapError_eq_ok hkey _]
          simp only [if_pos, show l.mergeRow _ _ = _ from
            mapError_eq_error hmerge _]
      | disordered hkey hlast' hcheck hlower =>
          cases hlast.symm.trans hlast'
          rw [upcoming, show l.keyOf _ = _ from mapError_eq_ok hkey _]
          simp only [if_neg (Int64.ne_of_lt hlower), hcheck, hlower,
            decide_true, Bool.and_self, if_pos]
      | @unstarted _ k _ hkey hother hle hcreate =>
          have hne : k ≠ previous := fun heq => hother (heq ▸ hlast)
          have hallowed := not_lower fun hcheck => hle hcheck previous hlast
          rw [upcoming, show l.keyOf _ = _ from mapError_eq_ok hkey _]
          simp only [if_neg hne, if_neg hallowed, show l.start _ = _ from
            mapError_eq_error hcreate _]

end GroupLayout

/-- Every result is made of rows that group, unless something fails behind such
rows.  If no run had been closed before that, no stream opens.  Otherwise the
stream tells the records of the runs that had been closed, then the failure to
whatever is asked next, and then nothing more, whatever is left of the
result. -/
theorem KeyedStream.reads_up_to_failure (l : GroupLayout α)
    (checkOrdering : Bool) (c : Cursor) :
    ((∃ rows records, c.fetches = GroupLayout.fetched rows ∧
        l.Groups rows records ∧ (checkOrdering = true → Ascending rows)) ∨
      ∃ rows records fetch f rest,
        c.fetches = GroupLayout.fetched rows ++ fetch :: rest ∧
        l.Groups rows records ∧ (checkOrdering = true → Ascending rows) ∧
        l.Fails checkOrdering rows records fetch f) ∧
    ∀ rows records fetch f rest,
      c.fetches = GroupLayout.fetched rows ++ fetch :: rest →
      l.Groups rows records → (checkOrdering = true → Ascending rows) →
      l.Fails checkOrdering rows records fetch f →
      (records.dropLast = [] → ∃ c', start l checkOrdering c = .error (f, c')) ∧
      (records.dropLast ≠ [] → ∃ s, start l checkOrdering c = .ok s ∧
        (∀ asks, (read (.groups s) (asks.map Ask.request)).1 =
            recite l.entity (records.dropLast.map .ok ++ [.error f]) asks ∧
          delivered (read (.groups s) (asks.map Ask.request)).1 =
            records.dropLast.take (asks.count .next)) ∧
        ∀ earlier ask later, earlier.count .next = records.dropLast.length →
          earlier.getLast? = some .next →
          (read (.groups s) ((earlier ++ ask :: later).map Ask.request)).1 =
            recite l.entity (records.dropLast.map .ok) earlier ++
              ask.failing f :: later.map (Ask.spent l.entity)) := by
  refine ⟨GroupLayout.Groups.exists_failure l.groups_nil
    (fun _ => .nil) c.fetches,
    fun rows records fetch f rest hc h hordered hfails => ?_⟩
  have htold := GroupLayout.told_fails h hordered hfails rest
  rw [← hc] at htold
  refine ⟨fun hnone => start_eq_error (by rw [htold, hnone]; rfl),
    fun hsome => ?_⟩
  obtain ⟨s, hstart, hlayout, houtstanding⟩ :=
    exists_start l checkOrdering (c := c) (by
      rw [htold]
      obtain ⟨a, closed, heq⟩ := List.exists_cons_of_ne_nil hsome
      simp [heq])
  have hread (asks : List Ask) := s.read_eq_recite asks
  simp only [hlayout, houtstanding, htold] at hread
  refine ⟨s, hstart, fun asks => ⟨hread asks, ?_⟩,
    fun earlier ask later hcount hlast => ?_⟩
  · rw [hread]
    exact delivered_recite l.entity records.dropLast [f] asks
  · rw [hread, recite_append l.entity _ _ hcount (by simp [hlast]),
      recite_failure]

/-- Behind the rows of two identities a third one follows whose key is lower,
and another row. -/
theorem reads_disordered :
    Identity.layout.Fails true joinedRows joinedIdentities
      (.row (joinedRow 1 "eve" .null "").2)
        (Failure.orderingViolation "identity" 2 1) ∧
      ∃ s, KeyedStream.start Identity.layout true
          (.ofRows
            ((joinedRows ++ [joinedRow 1 "eve" .null "",
              joinedRow 3 "eve" .null ""]).map Prod.snd)) = .ok s ∧
        (read (.groups s) [.next, .hasNext, .next, .hasNext]).1 =
          [.record (.ok { ident := .ofValue 1, name := "ada", aliases :=
              [{ ident := .ofValue 11, name := "ada",
                 email := "ada@example.org" },
                   { ident := .ofValue 10, name := "ada",
                     email := "countess@example.org" }] }),
            .follows (.error (Failure.orderingViolation "identity" 2 1)),
            .record (.error (KeyedStream.noElementFailure "identity")),
              .follows (.ok false)] := by
  have hfails : Identity.layout.Fails true joinedRows joinedIdentities
      (.row (joinedRow 1 "eve" .null "").2)
      (Failure.orderingViolation "identity" 2 1) :=
    @GroupLayout.Fails.disordered _ _ _ joinedRows _ _ 1 2 rfl rfl rfl
      (by decide)
  have hreads := (KeyedStream.reads_up_to_failure Identity.layout true
    (.ofRows
      ((joinedRows ++ [joinedRow 1 "eve" .null "",
        joinedRow 3 "eve" .null ""]).map Prod.snd))).2 joinedRows
          joinedIdentities _ _ [.row (joinedRow 3 "eve" .null "").2] rfl
    groups_joinedRows (fun _ => by unfold Ascending; decide +kernel) hfails
  obtain ⟨s, hstart, -, hread⟩ := hreads.2 (by decide +kernel)
  exact ⟨hfails, s, hstart, hread [.next] .hasNext [.next, .hasNext] rfl rfl⟩

end Annals.Stream
