import Annals.Proofs.Rows
import Annals.Database.Results
import Annals.Sql.Row

namespace Annals

open Annals.Database Annals.Sql Annals.Time

namespace Time.Instant

/-- An instant in a leap second is counted as late as one of the next second, or
later. -/
def Overtakes (t u : Instant) : Prop :=
  u.seconds = t.seconds + 1 ∧ nanosPerSecond + u.nanos ≤ t.nanos

/-- The order of two instants is the order of their counts. -/
def Comparable (t u : Instant) : Prop :=
  ¬t.Overtakes u ∧ (u.Overtakes t → u.totalNanos = t.totalNanos)

theorem before_iff {t u : Instant} :
    t.before u = true ↔ t.seconds < u.seconds ∨ t.seconds = u.seconds ∧
    t.nanos < u.nanos := by
  simp [before]

theorem before_eq_false_trans {t u v : Instant} (h : u.before t = false)
    (h' : v.before u = false) :
    v.before t = false := by
  rw [← Bool.not_eq_true, before_iff] at *
  omega

theorem comparable_of_nanos_lt {t u : Instant} (ht : t.nanos < nanosPerSecond)
    (hu : u.nanos < nanosPerSecond) : t.Comparable u := by
  constructor
  · rintro ⟨-, hover⟩
    omega
  · rintro ⟨-, hover⟩
    omega

theorem before_iff_totalNanos_lt {t u : Instant} :
    (t.before u = true ↔ t.totalNanos < u.totalNanos) ↔ t.Comparable u := by
  have ht := t.nanos_lt
  have hu := u.nanos_lt
  rw [before_iff]
  unfold Comparable Overtakes totalNanos
  simp only [nanosPerSecond] at *
  -- beyond one second the seconds alone decide both orders
  rcases Int.lt_trichotomy t.seconds u.seconds with hlt | heq | hgt
  · by_cases hnext : u.seconds = t.seconds + 1 <;> omega
  · omega
  · by_cases hnext : t.seconds = u.seconds + 1 <;> omega

/-- Every 64-bit count of nanoseconds lies within the calendar. -/
theorem seconds_inCalendar (n : Int64) :
    minSeconds ≤ n.toInt / nanosPerSecond ∧
    n.toInt / nanosPerSecond ≤ maxSeconds := by
  have lo := n.le_toInt
  have hi := n.toInt_lt
  simp only [minSeconds, maxSeconds, nanosPerSecond]
  omega

def ofEpochNanos (n : Int64) : Instant where
  seconds := n.toInt / nanosPerSecond
  nanos := (n.toInt % nanosPerSecond).toNat
  inCalendar := seconds_inCalendar n
  nanos_lt := by simp only [nanosPerSecond]; omega
  leap := by simp only [nanosPerSecond]; omega

theorem toInt_splitCount (n : Int64) :
    (splitCount n).1.toInt = n.toInt / nanosPerSecond ∧
      (splitCount n).2.toNat = n.toInt % nanosPerSecond := by
  have lo := n.le_toInt
  have hi := n.toInt_lt
  simp only [splitCount, nanosPerSecond]
  constructor
  · exact Int64.toInt_ofInt_of_le (by omega) (by omega)
  · rw [UInt32.ofInt, UInt32.toNat_ofNat']
    omega

theorem ofParts?_splitCount (n : Int64) :
    ofParts? (splitCount n).1.toInt (splitCount n).2.toNat =
      some (ofEpochNanos n) := by
  obtain ⟨hseconds, hnanos⟩ := toInt_splitCount n
  have hnat : (splitCount n).2.toNat = (n.toInt % nanosPerSecond).toNat := by
    rw [← hnanos, Int.toNat_natCast]
  rw [hseconds, hnat]
  exact dif_pos ⟨(ofEpochNanos n).inCalendar, (ofEpochNanos n).nanos_lt,
    (ofEpochNanos n).leap⟩

theorem totalNanos_ofEpochNanos (n : Int64) :
    (ofEpochNanos n).totalNanos = n.toInt := by
  change n.toInt / nanosPerSecond * nanosPerSecond +
    (n.toInt % nanosPerSecond).toNat = n.toInt
  unfold nanosPerSecond
  omega

theorem nanos_ofEpochNanos_lt (n : Int64) :
    (ofEpochNanos n).nanos < nanosPerSecond := by
  change (n.toInt % nanosPerSecond).toNat < nanosPerSecond
  unfold nanosPerSecond
  omega

theorem eq_of_totalNanos_eq {t u : Instant} (ht : t.nanos < nanosPerSecond)
    (hu : u.nanos < nanosPerSecond) (h : t.totalNanos = u.totalNanos) :
    t = u := by
  obtain ⟨seconds, nanos, _, _, _⟩ := t
  obtain ⟨seconds', nanos', _, _, _⟩ := u
  unfold totalNanos nanosPerSecond at h
  unfold nanosPerSecond at ht hu
  dsimp only at h ht hu
  obtain ⟨rfl, rfl⟩ : seconds = seconds' ∧ nanos = nanos' := by omega
  rfl

theorem epochNanos?_eq_some {t : Instant} {n : Int64} :
    t.epochNanos? = some n ↔ n.toInt = t.totalNanos := Number.int64?_eq_some

theorem epochNanos?_ofEpochNanos (n : Int64) :
    (ofEpochNanos n).epochNanos? = some n :=
  epochNanos?_eq_some.mpr (totalNanos_ofEpochNanos n).symm

theorem ofEpochNanos_eq_iff {t : Instant} {n : Int64}
    (h : t.epochNanos? = some n) :
    ofEpochNanos n = t ↔ t.nanos < nanosPerSecond := by
  constructor
  · intro heq
    rw [← heq]
    exact nanos_ofEpochNanos_lt n
  · intro hlt
    refine eq_of_totalNanos_eq (nanos_ofEpochNanos_lt n) hlt ?_
    rw [totalNanos_ofEpochNanos, epochNanos?_eq_some.mp h]

end Time.Instant

theorem Sql.Value.ofInstant_eq_ok {t : Instant} {v : Value} :
    ofInstant t = .ok v ↔ ∃ n, t.epochNanos? = some n ∧ v = .integer n := by
  unfold ofInstant
  cases t.epochNanos? with
  | none => simp
  | some n => simp [eq_comm]

theorem Sql.Value.ofInstant_ofEpochNanos (n : Int64) :
    ofInstant (.ofEpochNanos n) = .ok (.integer n) :=
  ofInstant_eq_ok.mpr ⟨n, Instant.epochNanos?_ofEpochNanos n, rfl⟩

theorem Sql.Row.instant_eq_map (r : Row) (column : Nat) :
    r.instant column = Instant.ofEpochNanos <$> r.int64 column := by
  unfold instant
  simp only [Instant.ofParts?_splitCount, map_eq_pure_bind]

theorem Sql.Row.instant_of_value {r : Row} {column : Nat} {n : Int64}
    (h : r.value column = .ok (.integer n)) :
    r.instant column = .ok (.ofEpochNanos n) := by
  rw [instant_eq_map]
  unfold int64
  rw [h]
  rfl

theorem Sql.Value.kind_of_ofInstant {t : Instant} {f : Failure}
    (h : ofInstant t = .error f) :
    f.kind = .invalidArgument ∧ f.operation = some "encode_timestamp" := by
  unfold ofInstant at h
  cases hcount : t.epochNanos? with
  | none =>
    rw [hcount] at h
    cases h
    exact ⟨rfl, rfl⟩
  | some n =>
    rw [hcount] at h
    cases h

theorem Sql.Value.exists_ofInstant_eq_ok {t : Instant} :
    (∃ v, ofInstant t = .ok v) ↔
      Int64.minValue.toInt ≤ t.totalNanos ∧
      t.totalNanos ≤ Int64.maxValue.toInt := by
  rw [Int64.toInt_minValue, Int64.toInt_maxValue]
  constructor
  · rintro ⟨v, hv⟩
    obtain ⟨n, hn, -⟩ := ofInstant_eq_ok.mp hv
    rw [← Instant.epochNanos?_eq_some.mp hn]
    exact ⟨n.le_toInt, Int.le_sub_one_of_lt n.toInt_lt⟩
  · rintro ⟨hlow, hhigh⟩
    have hcount : (Int64.ofInt t.totalNanos).toInt = t.totalNanos :=
      Int64.toInt_ofInt_of_le hlow (Int.lt_of_le_sub_one hhigh)
    exact ⟨_, ofInstant_eq_ok.mpr
      ⟨_, Instant.epochNanos?_eq_some.mpr hcount, rfl⟩⟩

/-- Every integer of 64 bits is read as an instant whose count it is: it always
splits into the parts of one, and neither of them is changed by the width in
which it is kept.  An instant has a count exactly when its nanoseconds since
1970 fit into 64 bits, and is what its count is read as unless it is a leap
second. -/
theorem counts_correspond :
    (∀ (n : Int64) (r : Row) (column : Nat), r.value column = .ok (.integer n) →
      (Instant.splitCount n).1.toInt = n.toInt / nanosPerSecond ∧
      (Instant.splitCount n).2.toNat = n.toInt % nanosPerSecond ∧
      ∃ t, r.instant column = .ok t ∧ t.nanos < nanosPerSecond ∧
        Value.ofInstant t = .ok (.integer n)) ∧
    ∀ t : Instant,
      ((∃ v, Value.ofInstant t = .ok v) ↔
        Int64.minValue.toInt ≤ t.seconds * nanosPerSecond + t.nanos ∧
          t.seconds * nanosPerSecond + t.nanos ≤ Int64.maxValue.toInt) ∧
      (∀ v, Value.ofInstant t = .ok v →
        ∃ n : Int64, v = .integer n ∧
          n.toInt = t.seconds * nanosPerSecond + t.nanos) ∧
      (∀ v, Value.ofInstant t = .ok v → t.nanos < nanosPerSecond →
        ∀ (r : Row) (column : Nat), r.value column = .ok v →
          r.instant column = .ok t) ∧
      ∀ f, Value.ofInstant t = .error f →
        f.kind = .invalidArgument ∧ f.operation = some "encode_timestamp" := by
  refine ⟨fun n r column hvalue => ?_, fun t => ⟨?_, ?_, ?_, ?_⟩⟩
  · obtain ⟨hseconds, hnanos⟩ := Instant.toInt_splitCount n
    exact ⟨hseconds, hnanos, .ofEpochNanos n, Row.instant_of_value hvalue,
      Instant.nanos_ofEpochNanos_lt n, Value.ofInstant_ofEpochNanos n⟩
  · exact Value.exists_ofInstant_eq_ok
  · intro v hv
    obtain ⟨n, hn, rfl⟩ := Value.ofInstant_eq_ok.mp hv
    exact ⟨n, rfl, Instant.epochNanos?_eq_some.mp hn⟩
  · intro v hv hlt r column hvalue
    obtain ⟨n, hn, rfl⟩ := Value.ofInstant_eq_ok.mp hv
    rw [Row.instant_of_value hvalue, (Instant.ofEpochNanos_eq_iff hn).mpr hlt]
  · intro f hf
    exact Value.kind_of_ofInstant hf

/-- Also the least and the greatest count, and one that lies before 1970 and
between two seconds. -/
theorem counts_correspond_extremes :
    ∀ n ∈ [Int64.minValue, Int64.maxValue, -1500000001],
      ∃ t, (⟨[.integer n]⟩ : Row).instant 0 = .ok t ∧
        Value.ofInstant t = .ok (.integer n) := by
  intro n _
  obtain ⟨-, -, t, hread, -, hcount⟩ :=
    counts_correspond.1 n ⟨[.integer n]⟩ 0 rfl
  exact ⟨t, hread, hcount⟩

namespace Database

/-- A row in a result that is ordered by a count. -/
def StoredTable.counted (t : StoredTable) (r : StoredRow)
    (n : Int64) : ResultRow :=
  { place := { rank := (n.toInt, 1), key := r.key }, cells := t.shownCells r }

namespace Contents

theorem less_counts (n m : Int64) :
    Place.less (n.toInt, 1) (m.toInt, 1) = decide (n.toInt < m.toInt) := by
  simp [Place.less]

theorem mem_window {t : StoredTable} {column : String} {n : Int64}
    {r : StoredRow} (hr : r ∈ t.rows) (hcell : t.cell r column = .integer n)
    (low high : Int64) :
    t.counted r n ∈ window t column [.integer low, .integer high] ↔ low ≤ n ∧
    n < high := by
  rw [Int64.le_iff_toInt_le, Int64.lt_iff_toInt_lt]
  change _ ∈ ordered _ ↔ _
  unfold ordered
  rw [List.mem_mergeSort, List.mem_filterMap]
  constructor
  · rintro ⟨r', -, h⟩
    obtain ⟨rank, -, h⟩ := Option.bind_eq_some_iff.mp h
    split at h
    case isTrue hwithin =>
      have hrank : rank = (n.toInt, 1) :=
        congrArg (·.place.rank) (Option.some.inj h)
      rw [hrank] at hwithin
      simpa [less_counts] using hwithin
    case isFalse => cases h
  · rintro ⟨hlow, hhigh⟩
    have hwithin : (!Place.less (n.toInt, 1) (low.toInt, 1) &&
        Place.less (n.toInt, 1) (high.toInt, 1)) = true := by
      simp [less_counts, hlow, hhigh]
    refine ⟨r, hr, ?_⟩
    rw [hcell]
    exact if_pos hwithin

end Contents

end Database

/-- A stored instant reads back as itself unless it is a leap second, and two
instants are ordered as their counts unless one of them overtakes the other.
The window that is read between two instants goes by the counts, and so holds
the commits from the first instant up to, but without, the second one as far as
none of them overtakes another. -/
theorem instants_as_counts {t start stop : Instant} {n low high : Int64}
    (ht : Value.ofInstant t = .ok (.integer n))
    (hstart : Value.ofInstant start = .ok (.integer low))
    (hstop : Value.ofInstant stop = .ok (.integer high)) :
    (∀ (r : Row) (column : Nat), r.value column = .ok (.integer n) →
      (r.instant column = .ok t ↔ t.nanos < nanosPerSecond)) ∧
    ((t.before start = true ↔ n < low) ↔ t.Comparable start) ∧
    ∀ (c : Contents) (table : StoredTable) (r : StoredRow)
      (rows : List ResultRow),
      c.table? commits.name = some table → r ∈ table.rows →
      table.cell r "committed_at" = .integer n →
      c.read (.select commits (.window "committed_at"))
        [.integer low, .integer high] = .ok rows →
        (table.counted r n ∈ rows ↔ low ≤ n ∧ n < high) ∧
        (t.Comparable start → t.Comparable stop →
          (table.counted r n ∈ rows ↔ t.before start = false ∧
            t.before stop = true)) := by
  obtain ⟨_, hn, ⟨⟩⟩ := Value.ofInstant_eq_ok.mp ht
  obtain ⟨_, hlow, ⟨⟩⟩ := Value.ofInstant_eq_ok.mp hstart
  obtain ⟨_, hhigh, ⟨⟩⟩ := Value.ofInstant_eq_ok.mp hstop
  have hbefore : ∀ {u v : Instant} {m k : Int64}, u.epochNanos? = some m →
      v.epochNanos? = some k →
      ((u.before v = true ↔ m < k) ↔ u.Comparable v) := by
    intro u v m k hu hv
    rw [Int64.lt_iff_toInt_lt, Instant.epochNanos?_eq_some.mp hu,
      Instant.epochNanos?_eq_some.mp hv]
    exact Instant.before_iff_totalNanos_lt
  refine ⟨fun r column hvalue => ?_, hbefore hn hlow,
    fun c table r rows htable hr hcell hread => ?_⟩
  · rw [Row.instant_of_value hvalue, Except.ok.injEq]
    exact Instant.ofEpochNanos_eq_iff hn
  · obtain ⟨_, hfound, hrows⟩ := bind_eq_ok.mp hread
    cases htable.symm.trans (Contents.table_eq_ok.mp hfound)
    cases hrows
    have hwindow := Contents.mem_window hr hcell low high
    refine ⟨hwindow, fun hfrom hto => ?_⟩
    rw [← Bool.not_eq_true, (hbefore hn hlow).mpr hfrom,
      (hbefore hn hhigh).mpr hto, Int64.not_lt]
    exact hwindow

/-- The leap second after the last second of a minute, half over, and the second
that follows it. -/
def leapSecond : Instant := ⟨59, 1500000000, by decide, by decide, by decide⟩

def followingSecond : Instant := ⟨60, 0, by decide, by decide, by decide⟩

theorem instants_as_counts_leapSecond :
    Value.ofInstant leapSecond = .ok (.integer 60500000000) ∧
      Value.ofInstant followingSecond = .ok (.integer 60000000000) ∧
      ¬((⟨[.integer 60500000000]⟩ : Row).instant 0 = .ok leapSecond) ∧
      ¬(leapSecond.before followingSecond = true ↔
        (60500000000 : Int64) < 60000000000) := by
  have ht : Value.ofInstant leapSecond = .ok (.integer 60500000000) := rfl
  have hu : Value.ofInstant followingSecond = .ok (.integer 60000000000) := rfl
  obtain ⟨hreads, horder, -⟩ := instants_as_counts ht hu hu
  refine ⟨ht, hu, ?_, ?_⟩
  · rw [hreads ⟨[.integer 60500000000]⟩ 0 rfl]
    decide
  · rw [horder]
    rintro ⟨hovertakes, -⟩
    exact hovertakes ⟨by decide, by decide⟩

/-- Half way through a leap second an instant is stored, but another one is
read. -/
theorem leapSecond_lost : ∃ v t, Value.ofInstant leapSecond = .ok v ∧
    (⟨[v]⟩ : Row).instant 0 = .ok t ∧ t ≠ leapSecond :=
  ⟨.integer 60500000000, .ofEpochNanos 60500000000, rfl, rfl, by decide⟩

end Annals
