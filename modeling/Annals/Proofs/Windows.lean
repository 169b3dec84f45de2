import Annals.Proofs.Agreement
import Mathlib.Data.List.Perm.Basic
import Mathlib.Data.Prod.Lex

namespace Annals

open Annals.Database Annals.Database.Contents Annals.Sql Annals.Stream
    Annals.Time

namespace Database

def StoredTable.count? (t : StoredTable) (column : String) (r : StoredRow) :
    Option Int64 :=
  match t.cell r column with
  | .integer n => some n
  | _ => none

theorem StoredTable.count?_of_integer {t : StoredTable} {column : String}
    {r : StoredRow} {n : Int64} (h : t.cell r column = .integer n) :
    t.count? column r = some n := by
  unfold count?
  rw [h]

/-- Where a row with a count and a key stands in a result that is ordered by the
count. -/
def position (n key : Int64) : ℤ ×ₗ ℤ := toLex (n.toInt, key.toInt)

theorem position_lt_iff {n m k l : Int64} :
    position n k < position m l ↔ n < m ∨ n = m ∧ k < l := by
  rw [position, position, Prod.Lex.toLex_lt_toLex, Int64.lt_iff_toInt_lt,
    Int64.lt_iff_toInt_lt, Int64.toInt_inj]

theorem StoredTable.before_counted (t : StoredTable) (r s : StoredRow)
    (n m : Int64) :
    (t.counted r n).place.before (t.counted s m).place =
      decide (position n r.key < position m s.key) := by
  have hkeys : (r.key < s.key || (r.key == s.key && false)) =
      decide (r.key < s.key) := by simp
  unfold StoredTable.counted Place.before
  dsimp only
  rw [less_counts, less_counts, hkeys, ← decide_not, ← Bool.decide_and,
    ← Bool.decide_or]
  refine decide_eq_decide.mpr (Iff.trans ?_ position_lt_iff.symm)
  rw [Int64.lt_iff_toInt_lt, Int64.lt_iff_toInt_lt, ← Int64.toInt_inj]
  omega

/-- The first row stands in front of the second one, or both have the same
place. -/
def byCount (count : StoredRow → Int64) (r s : StoredRow) : Bool :=
  position (count r) r.key ≤ position (count s) s.key

namespace Contents

theorem windowRow_eq {t : StoredTable} {column : String} {r : StoredRow}
    {n : Int64} (hcell : t.cell r column = .integer n) (low high : Int64) :
    (do
      let rank ← (t.cell r column).fraction?
      if !Place.less rank (low.toInt, 1) && Place.less rank (high.toInt, 1) then
        return { place := { rank, key := r.key }, cells := t.shownCells r }
      else none : Option ResultRow) =
      if (low ≤ n && n < high) = true then some (t.counted r n) else none := by
  have hlow : (!Place.less (n.toInt, 1) (low.toInt, 1)) = decide (low ≤ n) := by
    rw [less_counts, ← decide_not]
    exact decide_eq_decide.mpr (Int.not_lt.trans Int64.le_iff_toInt_le.symm)
  have hhigh : Place.less (n.toInt, 1) (high.toInt, 1) = decide (n < high) := by
    rw [less_counts]
    exact decide_eq_decide.mpr Int64.lt_iff_toInt_lt.symm
  rw [hcell, ← hlow, ← hhigh]
  rfl

/-- The rows of a window are those whose counts lie in it, in the order of these
and of the keys. -/
theorem window_eq {t : StoredTable} {column : String}
    {count : StoredRow → Int64}
    (hcount : ∀ r ∈ t.rows, t.cell r column = .integer (count r))
    (low high : Int64) :
    window t column [.integer low, .integer high] =
      ((t.rows.filter fun r => low ≤ count r && count r < high).mergeSort
        (byCount count)).map
        fun r => t.counted r (count r) := by
  change ordered (t.rows.filterMap _) = _
  rw [List.filterMap_congr fun r hr => windowRow_eq (hcount r hr) low high,
    ← List.filterMap_filter, show (fun r => some (t.counted r (count r))) =
      some ∘ fun r => t.counted r (count r) from rfl,
    List.filterMap_eq_map, ordered, List.map_mergeSort]
  intro r _ s _
  rw [StoredTable.before_counted, ← decide_not]
  exact decide_eq_decide.mpr not_lt.symm

theorem pairwise_byCount (count : StoredRow → Int64) {rows : List StoredRow}
    (hkeys : rows.Pairwise fun r s => r.key ≠ s.key) :
    (rows.mergeSort (byCount count)).Pairwise fun r s =>
      position (count r) r.key < position (count s) s.key := by
  have hsorted : (rows.mergeSort (byCount count)).Pairwise fun r s =>
      byCount count r s = true :=
      List.pairwise_mergeSort
        (fun r s u hrs hsu =>
          decide_eq_true ((of_decide_eq_true hrs).trans
            (of_decide_eq_true hsu)))
          (fun r s => by simpa [byCount] using le_total _ _) rows
  have hkeys : (rows.mergeSort (byCount count)).Pairwise fun r s =>
      r.key ≠ s.key :=
      hkeys.perm (List.mergeSort_perm _ _).symm fun hne => hne.symm
  refine (hsorted.and hkeys).imp fun ⟨hle, hne⟩ => ?_
  refine (of_decide_eq_true hle).lt_of_ne fun heq => hne ?_
  have hsame := congrArg (fun p => (ofLex p).2) heq
  exact Int64.toInt_inj.mp hsame

end Contents

theorem StoredRow.Of.exists_count {r : StoredRow} (h : r.Of commits)
    {t : StoredTable} (ht : t.blank = .ofTable commits) :
    ∃ n, t.cell r "committed_at" = .integer n := by
  obtain ⟨x, id, -, -, hkept⟩ := h.exists_record (s := .commit)
  obtain ⟨n, -, hcells⟩ := Option.bind_eq_some_iff.mp hkept
  obtain ⟨key, cells⟩ := r
  cases hcells
  refine ⟨n, ?_⟩
  rw [StoredTable.cell_eq_of_blank ht]
  rfl

end Database

namespace Commit

def storedCount (c : Contents) (x : Commit) : Option Int64 := do
  let t ← c.table? commits.name
  let r ← t.row? (Record.idValue x)
  t.count? "committed_at" r

/-- The first commit has the lower count, or the lower identifier if both have
the same count. -/
def Earlier (c : Contents) (x y : Commit) : Prop :=
  ∃ n m, x.storedCount c = some n ∧ y.storedCount c = some m ∧
    (n < m ∨ n = m ∧ Record.idValue x < Record.idValue y)

/-- The stored count of a commit lies between two counts, the second
excluded. -/
def within (c : Contents) (low high : Int64) (x : Commit) : Bool :=
  (x.storedCount c).any fun n => low ≤ n && n < high

/-- The commits of a scan whose counts lie in a window, the earlier ones in
front of the later ones. -/
structure IsWindow (c : Contents) (all : List Commit) (low high : Int64)
    (found : List Commit) :
    Prop where
  perm : found.Perm (all.filter (within c low high))
  earlier : found.Pairwise (Earlier c)

variable {c : Contents} {all found : List Commit} {low mid high : Int64}

theorem within_split (hlow : low ≤ mid) (hhigh : mid ≤ high) (x : Commit) :
    (within c low mid x && within c low high x) = within c low mid x ∧
      (!within c low mid x && within c low high x) = within c mid high x := by
  unfold within
  cases x.storedCount c with
  | none => exact ⟨rfl, rfl⟩
  | some n =>
      rw [Int64.le_iff_toInt_le] at hlow hhigh
      refine ⟨Bool.eq_iff_iff.mpr ?_, Bool.eq_iff_iff.mpr ?_⟩
      · simp only [Option.any_some, Bool.and_eq_true, decide_eq_true_eq,
          Int64.le_iff_toInt_le, Int64.lt_iff_toInt_lt]
        omega
      · simp only [Option.any_some, Bool.not_eq_true', Bool.and_eq_true,
          Bool.and_eq_false_iff, decide_eq_true_eq, decide_eq_false_iff_not,
          Int64.le_iff_toInt_le, Int64.lt_iff_toInt_lt]
        omega

theorem Earlier.asymm {x y : Commit} (h : Earlier c x y)
    (h' : Earlier c y x) : False := by
  obtain ⟨n, m, hn, hm, h⟩ := h
  obtain ⟨m', n', hm', hn', h'⟩ := h'
  cases hn.symm.trans hn'
  cases hm.symm.trans hm'
  exact lt_asymm (position_lt_iff.mpr h) (position_lt_iff.mpr h')

namespace IsWindow

theorem eq {found' : List Commit} (h : IsWindow c all low high found)
    (h' : IsWindow c all low high found') : found = found' :=
  (h.perm.trans h'.perm.symm).eq_of_pairwise (fun _ _ _ _ h h' =>
    (h.asymm h').elim) h.earlier h'.earlier

theorem exists_count (h : IsWindow c all low high found) {x : Commit}
    (hx : x ∈ found) :
    ∃ n, x.storedCount c = some n ∧ low ≤ n ∧ n < high := by
  obtain ⟨-, hwithin⟩ := List.mem_filter.mp (h.perm.mem_iff.mp hx)
  simpa [within, Option.any_eq_true] using hwithin

theorem append {early late : List Commit} (h : IsWindow c all low mid early)
    (h' : IsWindow c all mid high late) (hlow : low ≤ mid)
    (hhigh : mid ≤ high) :
    IsWindow c all low high (early ++ late) := by
  constructor
  · have hsplit := List.filter_append_perm (within c low mid)
      (all.filter (within c low high))
    simp only [List.filter_filter, within_split hlow hhigh] at hsplit
    exact (h.perm.append h'.perm).trans hsplit
  · refine List.pairwise_append.mpr ⟨h.earlier, h'.earlier, fun x hx y hy => ?_⟩
    obtain ⟨n, hn, -, hnmid⟩ := h.exists_count hx
    obtain ⟨m, hm, hmidm, -⟩ := h'.exists_count hy
    exact ⟨n, m, hn, hm, .inl (Int64.lt_of_lt_of_le hnmid hmidm)⟩

end IsWindow

/-- The commit that a row is read as, with the count of the row. -/
structure ShownBy (c : Contents) (count : StoredRow → Int64) (r : StoredRow)
    (x : Commit) : Prop where
  read : Script.Subject.commit.ReadFrom c r x
  stored : x.storedCount c = some (count r)

theorem ShownBy.idValue {count : StoredRow → Int64} {r : StoredRow} {x : Commit}
    (h : ShownBy c count r x) : Record.idValue x = r.key := by
  obtain ⟨id, hid, hkey⟩ := h.read.id
  rw [Record.idValue_eq hid, hkey]

theorem exists_shown (hc : c.Recorded) {t : StoredTable}
    (ht : c.table? commits.name = some t) :
    ∃ (count : StoredRow → Int64) (all : List Commit),
      (∀ r ∈ t.rows, t.cell r "committed_at" = .integer (count r)) ∧
        List.Forall₂ (ShownBy c count) t.rows all := by
  have hblank := hc.laid.ofTable_eq (mem_layouts commits (by decide)) ht
  have hof : ∀ r ∈ t.rows, r.Of commits :=
    hc.rows t (mem_of_table? ht) commits (by decide) hblank
  let count : StoredRow → Int64 := fun r => (t.count? "committed_at" r).getD 0
  have hcount : ∀ r ∈ t.rows, t.cell r "committed_at" = .integer (count r) := by
    intro r hr
    obtain ⟨n, hn⟩ := (hof r hr).exists_count hblank
    rw [hn, show count r = n from
      congrArg (·.getD 0) (StoredTable.count?_of_integer hn)]
  obtain ⟨all, hall⟩ := exists_forall₂ (R := ShownBy c count) fun r hr => by
    obtain ⟨x, hx⟩ :=
      Script.Subject.exists_readFrom (s := .commit) hc (hof r hr)
    refine ⟨x, hx, ?_⟩
    obtain ⟨id, hid, hkey⟩ := hx.id
    unfold storedCount
    rw [ht, Record.idValue_eq hid, hkey]
    change (t.row? r.key).bind _ = _
    rw [(hc.ordered t (mem_of_table? ht)).row?_of_mem hr]
    exact StoredTable.count?_of_integer (hcount r hr)
  exact ⟨count, all, hcount, hall⟩

theorem ShownBy.within_eq {count : StoredRow → Int64} {r : StoredRow}
    {x : Commit} (h : ShownBy c count r x) (low high : Int64) :
    within c low high x = (low ≤ count r && count r < high) := by
  unfold within
  rw [h.stored]
  rfl

def selectWindow : Statement := .select commits (.window "committed_at")

theorem read_window {t : StoredTable} (ht : c.table? commits.name = some t)
    (params : List Value) :
    c.read selectWindow params = .ok (window t "committed_at" params) := by
  unfold selectWindow Contents.read
  dsimp only
  rw [table_eq_ok.mpr ht]
  rfl

theorem fetch_counted {t : StoredTable} (ht : t.blank = .ofTable commits)
    (r : StoredRow) (n : Int64) : (t.counted r n).fetch =
      (shownRow r).fetch := by
  unfold ResultRow.fetch StoredTable.counted StoredTable.shownCells
  rw [StoredTable.keyColumn_eq_of_blank ht]
  rfl

theorem exists_window {t : StoredTable} (hc : c.Recorded)
    (ht : c.table? commits.name = some t) {count : StoredRow → Int64}
    (hcount : ∀ r ∈ t.rows, t.cell r "committed_at" = .integer (count r))
    (hall : List.Forall₂ (ShownBy c count) t.rows all) (low high : Int64) :
    ∃ rows found, c.read selectWindow [.integer low, .integer high] = .ok rows ∧
      (∀ checkOrdering, (Script.Subject.commit.reader checkOrdering).Reads
        (rows.map ResultRow.fetch) found) ∧
      IsWindow c all low high found := by
  have hblank := hc.laid.ofTable_eq (mem_layouts commits (by decide)) ht
  have hfiltered : List.Forall₂ (ShownBy c count)
      (t.rows.filter fun r => low ≤ count r && count r < high)
      (all.filter (within c low high)) := by
    refine List.rel_filter (fun r x hx => ?_) hall
    dsimp only
    rw [hx.within_eq]
  obtain ⟨found, hfound, hperm⟩ :=
    List.perm_comp_forall₂ (List.mergeSort_perm _ (byCount count)) hfiltered
  have hkeys : (t.rows.filter fun r => low ≤ count r && count r < high).Pairwise
      fun r s => r.key ≠ s.key :=
    ((List.pairwise_map.mp (hc.ordered t (mem_of_table? ht))).imp
      Int64.ne_of_lt).filter _
  have hearlier : found.Pairwise (Earlier c) := by
    refine pairwise_of_forall₂ hfound (pairwise_byCount count hkeys)
      fun hx hy hlt => ?_
    refine ⟨_, _, hx.stored, hy.stored, ?_⟩
    rw [hx.idValue, hy.idValue]
    exact position_lt_iff.mp hlt
  refine ⟨_, found, read_window ht _, fun checkOrdering => ?_, hperm, hearlier⟩
  have hreads := Reader.reads_rows (l := layout) (hfound.imp fun r x hx =>
    hx.read.bundles checkOrdering)
  rw [window_eq hcount, List.map_map, List.map_eq_flatMap]
  simp only [Function.comp_apply, fetch_counted hblank]
  exact hreads

section Scans

variable {σ ω β : Type}

/-- Collects all that a scan brings. -/
def collect (s : Scan σ Commit) : Action σ ω (List Commit) :=
  Action.ofExcept s.stream.collect.1

def Fits (t : Instant) : Prop :=
  Int64.minValue.toInt ≤ t.totalNanos ∧ t.totalNanos ≤ Int64.maxValue.toInt

theorem exec_scanBetween [Session σ] {start stop : Instant} {low high : Value}
    (hbefore : stop.before start = false)
    (hstart : Value.ofInstant start = .ok low)
    (hstop : Value.ofInstant stop = .ok high)
    (visit : Scan σ Commit → Action σ ω β) (w : World σ ω) :
    (scanBetween start stop visit).exec w =
      (Store.scan selectWindow [low, high]
        (adapter.records w.store.options.checkGroupOrdering) visit).exec w := by
  unfold scanBetween
  rw [hbefore, hstart, hstop]
  rfl

/-- A window that ends before it starts, or whose bounds have no counts, is
refused at once. -/
theorem exec_scanBetween_refused [Session σ] {start stop : Instant}
    (h : stop.before start = true ∨ ¬Fits start ∨ ¬Fits stop)
    (visit : Scan σ Commit → Action σ ω β) (w : World σ ω) :
    ∃ f, (scanBetween start stop visit).exec w = (.error (.failed f), w) ∧
      f.kind = .invalidArgument := by
  unfold scanBetween
  cases hbefore : stop.before start with
  | true => exact ⟨_, rfl, rfl⟩
  | false =>
      cases hstart : Value.ofInstant start with
      | error f => exact ⟨f, rfl, (Value.kind_of_ofInstant hstart).1⟩
      | ok low =>
          cases hstop : Value.ofInstant stop with
          | error f => exact ⟨f, rfl, (Value.kind_of_ofInstant hstop).1⟩
          | ok high =>
              rw [hbefore] at h
              obtain h | h | h := h
              · cases h
              · exact absurd (Value.exists_ofInstant_eq_ok.mp ⟨low, hstart⟩) h
              · exact absurd (Value.exists_ofInstant_eq_ok.mp ⟨high, hstop⟩) h

variable [Backed σ]

/-- Wherever the contents are as in a world, and the query is answered, a window
is read as some commits. -/
def Yields (w : World σ ω) (start stop : Instant)
    (found : List Commit) : Prop :=
  ∀ v : World σ ω, v.contents = w.contents →
    Answers v.store.session selectWindow →
    ((scanBetween start stop collect).exec v).1 = .ok found

theorem yields_of_reads {w : World σ ω} {start stop : Instant}
    {low high : Int64} {rows : List ResultRow} {found : List Commit}
    (hbefore : stop.before start = false)
    (hstart : Value.ofInstant start = .ok (.integer low))
    (hstop : Value.ofInstant stop = .ok (.integer high))
    (hread : w.contents.read selectWindow [.integer low, .integer high] =
      .ok rows)
    (hreads : ∀ checkOrdering,
      (Script.Subject.commit.reader checkOrdering).Reads
      (rows.map ResultRow.fetch) found) : Yields w start stop found := by
  intro v hv hanswers
  have hquery : ((Session.query selectWindow [.integer low, .integer high]).run
      v.store.session).1 = .ok [{ fetches := rows.map ResultRow.fetch }] := by
    have hanswer := hanswers.run_query trivial [.integer low, .integer high]
    rw [show (Backed.database v.store.session).contents = w.contents from hv,
      hread] at hanswer
    exact hanswer
  rw [exec_scanBetween hbefore hstart hstop]
  refine (Store.exec_scan hquery fun s => s.collect.1).trans ?_
  exact congrArg _ (adapter.collect_of_told (Script.Subject.readsBy .commit)
    (Reader.told_of_reads (hreads v.store.options.checkGroupOrdering)))

/-- Windows of the full scan.  One that ends before it starts, or whose bounds
have no counts, is refused without a call, whatever the store.  Wherever
adapters have led to and the scheme of commits is there, any other one is read,
if the query is answered, as the commits of the full scan whose counts lie in
it, by count and then by identifier.  Two windows that meet, neither of which is
refused, make one. -/
theorem scanBetween_windows :
    (∀ (w : World σ ω) (β : Type) (start stop : Instant)
      (visit : Scan σ Commit → Action σ ω β),
      stop.before start = true ∨ ¬Fits start ∨ ¬Fits stop →
        ∃ f, (scanBetween start stop visit).exec w = (.error (.failed f), w) ∧
          f.kind = .invalidArgument) ∧
    ∀ w : World σ ω, Reached w → Script.Subject.commit.SchemeIn w.contents →
      ∃ all : List Commit,
        (∀ v : World σ ω, v.contents = w.contents →
          adapter.Answered [none] v.store.session →
          (adapter.loadAll.exec v).1 = .ok all) ∧
        (∀ x ∈ all, (x.storedCount w.contents).isSome) ∧
        (∀ (start stop : Instant) (low high : Int64),
          stop.before start = false →
          Value.ofInstant start = .ok (.integer low) →
          Value.ofInstant stop = .ok (.integer high) →
            ∃ found, Yields w start stop found ∧
              IsWindow w.contents all low high found) ∧
        ∀ (start mid stop : Instant) (low half high : Int64),
          mid.before start = false → stop.before mid = false →
          Value.ofInstant start = .ok (.integer low) →
          Value.ofInstant mid = .ok (.integer half) →
          Value.ofInstant stop = .ok (.integer high) →
          low ≤ half → half ≤ high →
            ∃ early late, Yields w start mid early ∧ Yields w mid stop late ∧
              Yields w start stop (early ++ late) := by
  constructor
  · intro w β start stop visit h
    exact exec_scanBetween_refused h visit w
  intro w hreached hscheme
  have hrecorded : w.contents.Recorded := hreached.recorded.now
  obtain ⟨t, ht⟩ :=
    Option.isSome_iff_exists.mp (hscheme commits List.mem_cons_self)
  obtain ⟨count, all, hcount, hall⟩ := exists_shown hrecorded ht
  have hlists : Script.Subject.commit.Lists w.contents all :=
    ⟨t, ht, hall.imp fun _ _ hx => hx.read⟩
  have hwindow : ∀ (start stop : Instant) (low high : Int64),
      stop.before start = false →
      Value.ofInstant start = .ok (.integer low) →
        Value.ofInstant stop = .ok (.integer high) →
        ∃ found, Yields w start stop found ∧
          IsWindow w.contents all low high found := by
    intro start stop low high hbefore hstart hstop
    obtain ⟨rows, found, hread, hreads, hfound⟩ :=
      exists_window hrecorded ht hcount hall low high
    exact ⟨found, yields_of_reads hbefore hstart hstop hread hreads, hfound⟩
  refine ⟨all, ?_, ?_, hwindow, ?_⟩
  · intro v hv
    rw [← hv] at hlists hscheme hrecorded
    exact hlists.exec_loadAll hrecorded.toOrderly hscheme
  · intro x hx
    obtain ⟨r, -, hshown⟩ := exists_of_forall₂ hall hx
    exact Option.isSome_of_mem hshown.stored
  · intro start mid stop low half high hmid hstop hlow hhalf hhigh hle hle'
    obtain ⟨early, hearly, hfirst⟩ := hwindow start mid low half hmid hlow hhalf
    obtain ⟨late, hlate, hsecond⟩ :=
      hwindow mid stop half high hstop hhalf hhigh
    obtain ⟨whole, hwhole, hboth⟩ :=
      hwindow start stop low high (Instant.before_eq_false_trans hmid hstop)
        hlow hhigh
    rw [hboth.eq (hfirst.append hsecond hle hle')] at hwhole
    exact ⟨early, late, hearly, hlate, hwhole⟩

end Scans

end Commit

/-- Three commits have been saved; the second one lies before 1970 and so before
the others. -/
def dated : World Database Unit :=
  ((Commit.adapter.save
    [{ revision := "b", committedAt := .ofEpochNanos 60300000000 },
      { revision := "a", committedAt := .ofEpochNanos (-5) },
      { revision := "c", committedAt := .ofEpochNanos 61000000000 }]).exec
    (Commit.adapter.createScheme.exec
      { store := Store.ofSession {} {}, memory := () }).2).2

theorem reached_dated : Reached dated :=
  .run (.run (.start rfl) (.basic (.createScheme .commit)))
    (.basic (.save .commit _))

namespace Commit

theorem scheme_dated : Script.Subject.commit.SchemeIn dated.contents := by
  unfold Script.Subject.SchemeIn
  decide +kernel

theorem scanBetween_windows_dated :
    (∃ f, (scanBetween (.ofEpochNanos 0) (.ofEpochNanos (-5)) collect).exec
        dated = (.error (.failed f), dated) ∧ f.kind = .invalidArgument) ∧
      Reached dated ∧ Script.Subject.commit.SchemeIn dated.contents ∧
      ∃ early late, early.map revision = ["a"] ∧ late.map revision = ["b"] ∧
        ((scanBetween (.ofEpochNanos (-5)) (.ofEpochNanos 0) collect).exec
          dated).1 = .ok early ∧
        ((scanBetween (.ofEpochNanos 0) (.ofEpochNanos 61000000000)
          collect).exec dated).1 = .ok late ∧
        ((scanBetween (.ofEpochNanos (-5)) (.ofEpochNanos 61000000000)
          collect).exec dated).1 = .ok (early ++ late) := by
  have hanswers : Answers dated.store.session selectWindow := answers_database _
  obtain ⟨hrefused, hwindows⟩ := scanBetween_windows (σ := Database) (ω := Unit)
  obtain ⟨all, -, -, -, hmeet⟩ := hwindows dated reached_dated scheme_dated
  obtain ⟨early, late, hearly, hlate, hwhole⟩ :=
    hmeet (.ofEpochNanos (-5)) (.ofEpochNanos 0)
      (.ofEpochNanos 61000000000) _ _ _
      (by decide) (by decide) (Value.ofInstant_ofEpochNanos _)
      (Value.ofInstant_ofEpochNanos _) (Value.ofInstant_ofEpochNanos _)
      (by decide) (by decide)
  have hearly := hearly dated rfl hanswers
  have hlate := hlate dated rfl hanswers
  have hfirst :
      ((scanBetween (.ofEpochNanos (-5)) (.ofEpochNanos 0) collect).exec
      dated).1.toOption.map (List.map revision) = some ["a"] := by
    decide +kernel
  have hsecond :
      ((scanBetween (.ofEpochNanos 0) (.ofEpochNanos 61000000000) collect).exec
      dated).1.toOption.map (List.map revision) = some ["b"] := by
    decide +kernel
  rw [hearly] at hfirst
  rw [hlate] at hsecond
  exact ⟨hrefused dated _ _ _ collect (.inl (by decide)), reached_dated,
    scheme_dated, early, late, Option.some_inj.mp hfirst,
    Option.some_inj.mp hsecond, hearly, hlate, hwhole dated rfl hanswers⟩

/-- It is not enough that windows meet as counts.  A leap second comes before
the second after it, also where its count is the higher one; so a window from
that second to the leap second is refused. -/
theorem windows_apart :
    Reached dated ∧ Script.Subject.commit.SchemeIn dated.contents ∧
      ¬∀ (start mid stop : Instant) (low half high : Int64),
        Value.ofInstant start = .ok (.integer low) →
        Value.ofInstant mid = .ok (.integer half) →
        Value.ofInstant stop = .ok (.integer high) → low ≤ half → half ≤ high →
          ∃ early late,
            ((scanBetween start mid collect).exec dated).1 = .ok early ∧
            ((scanBetween mid stop collect).exec dated).1 = .ok late ∧
            ((scanBetween start stop collect).exec dated).1 =
              .ok (early ++ late) := by
  refine ⟨reached_dated, scheme_dated, fun hclaim => ?_⟩
  obtain ⟨early, late, hearly, -, -⟩ :=
    hclaim (.ofEpochNanos 60200000000) leapSecond
      (.ofEpochNanos 61000000000) _ 60500000000 _
        (Value.ofInstant_ofEpochNanos _) rfl
      (Value.ofInstant_ofEpochNanos _) (by decide) (by decide)
  have hbefore : leapSecond.before (.ofEpochNanos 60200000000) = true := by
    decide
  obtain ⟨f, hrefused, -⟩ :=
    exec_scanBetween_refused (.inl hbefore) collect dated
  rw [hrefused] at hearly
  cases hearly

end Commit

end Annals
