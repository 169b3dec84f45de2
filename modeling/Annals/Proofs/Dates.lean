import Annals.Time.Instant
import Mathlib.Order.Monotone.Basic
import Mathlib.Tactic.IntervalCases

namespace Annals.Time

def daysBefore (year : Nat) : Nat :=
  365 * year + year / 4 - year / 100 + year / 400

/-- What is left of the days of an era without its leap days. -/
def commonDays (day : Nat) : Nat :=
  day - day / 1460 + day / 36524 - day / 146096

def yearOfEra (day : Nat) : Nat := commonDays day / 365

theorem commonDays_mono : Monotone commonDays := by
  apply monotone_nat_of_le_succ
  intro day
  unfold commonDays
  omega

theorem commonDays_bounds :
    ∀ year < 400, 365 * year ≤ commonDays (daysBefore year) ∧
    commonDays (daysBefore (year + 1) - 1) < 365 * (year + 1) := by
  decide +kernel

theorem yearOfEra_lt {day : Nat} (h : day < 146097) : yearOfEra day < 400 := by
  unfold yearOfEra commonDays
  omega

theorem within_yearOfEra {day : Nat} (h : day < 146097) :
    daysBefore (yearOfEra day) ≤ day ∧
    day < daysBefore (yearOfEra day + 1) := by
  have hyear := yearOfEra_lt h
  constructor
  · apply Nat.le_of_not_lt
    intro hlt
    obtain ⟨year, hprevious⟩ : ∃ year, yearOfEra day = year + 1 := by
      apply Nat.exists_eq_add_one_of_ne_zero
      intro hzero
      rw [hzero] at hlt
      exact Nat.not_lt_zero _ hlt
    have hmono := commonDays_mono (Nat.le_sub_one_of_lt hlt)
    have hbound := (commonDays_bounds year (by omega)).2
    rw [← hprevious] at hbound
    unfold yearOfEra at hmono hbound
    omega
  · apply Nat.lt_of_not_le
    intro hle
    by_cases hlast : yearOfEra day + 1 < 400
    · have hmono := commonDays_mono hle
      have hbound := (commonDays_bounds _ hlast).1
      unfold yearOfEra at hmono hbound
      omega
    · have hend : yearOfEra day + 1 = 400 := by omega
      rw [hend] at hle
      exact absurd h (Nat.not_lt.mpr hle)

def dateInYear (year : Int) (dayOfYear : Nat) : Date :=
  let months := (5 * dayOfYear + 2) / 153
  let month := if months < 10 then months + 3 else months - 9
  { year := if month ≤ 2 then year + 1 else year, month,
    day := dayOfYear - (153 * months + 2) / 5 + 1 }

theorem exists_parts (days : Int) :
    ∃ (era : Int) (year dayOfYear : Nat), year < 400 ∧
      dayOfYear + daysBefore year < daysBefore (year + 1) ∧
      days = era * 146097 + (daysBefore year + dayOfYear : Nat) - 719468 ∧
      dateOfDays days = dateInYear (year + era * 400) dayOfYear := by
  have hday : ((days + 719468) % 146097).toNat < 146097 := by omega
  obtain ⟨hle, hlt⟩ := within_yearOfEra hday
  have hyear := yearOfEra_lt hday
  refine ⟨(days + 719468) / 146097, yearOfEra ((days + 719468) % 146097).toNat,
    ((days + 719468) % 146097).toNat - daysBefore
      (yearOfEra ((days + 719468) % 146097).toNat),
    hyear, by omega, by omega, ?_⟩
  have hbefore : daysBefore (yearOfEra ((days + 719468) % 146097).toNat) =
      365 * yearOfEra ((days + 719468) % 146097).toNat +
        yearOfEra ((days + 719468) % 146097).toNat / 4 -
          yearOfEra ((days + 719468) % 146097).toNat / 100 := by
    unfold daysBefore
    omega
  rw [hbefore]
  rfl

theorem isLeapYear_natCast (year : Nat) :
    isLeapYear year = true ↔ year % 4 = 0 ∧
    (year % 100 ≠ 0 ∨ year % 400 = 0) := by
  unfold isLeapYear
  simp only [Bool.and_eq_true, Bool.or_eq_true, beq_iff_eq, bne_iff_ne]
  omega

theorem daysBefore_succ (year : Nat) :
    daysBefore (year + 1) =
      daysBefore year + if isLeapYear
        ((year + 1 : Nat) : Int) then 366 else 365 := by
  have hfour : (year + 1) / 4 = year / 4 + if (year + 1) % 4 =
      0 then 1 else 0 := by
    split <;> omega
  have hhundred : (year + 1) / 100 = year / 100 + if (year + 1) % 100 =
      0 then 1 else 0 := by
    split <;> omega
  have hcycle : (year + 1) / 400 = year / 400 + if (year + 1) % 400 =
      0 then 1 else 0 := by
    split <;> omega
  have hle : year / 100 ≤ year / 4 := by omega
  unfold daysBefore
  rw [hfour, hhundred, hcycle]
  simp only [isLeapYear_natCast]
  split_ifs <;> omega

theorem dayOfYear_le {year dayOfYear : Nat}
    (h : dayOfYear + daysBefore year < daysBefore (year + 1)) :
    dayOfYear ≤ 365 := by
  rw [daysBefore_succ] at h
  split at h <;> omega

theorem months_le {dayOfYear : Nat} (h : dayOfYear ≤ 365) :
    (5 * dayOfYear + 2) / 153 ≤ 11 ∧
    (153 * ((5 * dayOfYear + 2) / 153) + 2) / 5 ≤ dayOfYear := by
  omega

theorem month_dateInYear {year : Int} {dayOfYear : Nat} (h : dayOfYear ≤ 365) :
    ((dateInYear year dayOfYear).month + 9) % 12 =
      (5 * dayOfYear + 2) / 153 := by
  have hmonths := (months_le h).1
  unfold dateInYear
  dsimp only
  split <;> omega

theorem year_dateInYear (year : Int) (dayOfYear : Nat) :
    (if (dateInYear year dayOfYear).month ≤ 2 then
        (dateInYear year dayOfYear).year - 1
      else (dateInYear year dayOfYear).year) = year := by
  have hyear : (dateInYear year dayOfYear).year =
      if (dateInYear year dayOfYear).month ≤ 2 then year + 1 else year := rfl
  rw [hyear]
  split <;> omega

theorem daysFromDate_dateInYear (era : Int) {year dayOfYear : Nat}
    (hyear : year < 400) (hday : dayOfYear ≤ 365) :
    daysFromDate (dateInYear (year + era * 400) dayOfYear) =
      era * 146097 + (daysBefore year + dayOfYear : Nat) - 719468 := by
  obtain ⟨-, hrest⟩ := months_le hday
  have hdays : (dateInYear (year + era * 400) dayOfYear).day =
      dayOfYear - (153 * ((5 * dayOfYear + 2) / 153) + 2) / 5 + 1 := rfl
  have hera : (year + era * 400 : Int) / 400 = era := by omega
  have hyearOfEra : (year + era * 400 : Int) % 400 = year := by omega
  unfold daysFromDate daysBefore
  dsimp only
  rw [year_dateInYear, month_dateInYear hday, hdays, hera, hyearOfEra]
  generalize (5 * dayOfYear + 2) / 153 = months at hrest ⊢
  omega

theorem isLeapYear_era (year era : Int) :
    isLeapYear (year + era * 400) = isLeapYear year := by
  have hfour : (year + era * 400) % 4 = year % 4 := by omega
  have hhundred : (year + era * 400) % 100 = year % 100 := by omega
  have hcycle : (year + era * 400) % 400 = year % 400 := by omega
  unfold isLeapYear
  rw [hfour, hhundred, hcycle]

/-- All months of a year that starts in March have their length of the rule, but
for the last one. -/
theorem daysInMonth_of_lt (year : Int) {months : Nat} (h : months < 11) :
    daysInMonth year (if months < 10 then months + 3 else months - 9) =
      (153 * (months + 1) + 2) / 5 - (153 * months + 2) / 5 := by
  interval_cases months <;> rfl

theorem day_le (era : Int) {year dayOfYear : Nat}
    (h : dayOfYear + daysBefore year < daysBefore (year + 1)) :
    (dateInYear (year + era * 400) dayOfYear).day ≤
      daysInMonth (dateInYear (year + era * 400) dayOfYear).year
        (dateInYear (year + era * 400) dayOfYear).month := by
  have hday := dayOfYear_le h
  have hmonths := (months_le hday).1
  have hupper : 5 * dayOfYear + 2 < 153 * ((5 * dayOfYear + 2) / 153 + 1) :=
    Nat.lt_mul_div_succ _ (by decide)
  unfold dateInYear
  dsimp only
  generalize (5 * dayOfYear + 2) / 153 = months at hupper hmonths ⊢
  by_cases hlast : months = 11
  · subst hlast
    have hleap : isLeapYear (year + era * 400 + 1) =
        isLeapYear ((year + 1 : Nat) : Int) := by
      rw [← isLeapYear_era ((year + 1 : Nat) : Int) era]
      congr 1
      omega
    change dayOfYear - 337 + 1 ≤ if isLeapYear
      (year + era * 400 + 1) then 29 else 28
    rw [daysBefore_succ] at h
    rw [hleap]
    split_ifs at h ⊢ <;> omega
  · rw [daysInMonth_of_lt _ (by omega)]
    omega

theorem dateInYear_exists (era : Int) {year dayOfYear : Nat}
    (h : dayOfYear + daysBefore year < daysBefore (year + 1)) :
    (dateInYear (year + era * 400) dayOfYear).Exists := by
  have hmonths := (months_le (dayOfYear_le h)).1
  refine ⟨?_, ?_, Nat.le_add_left .., day_le era h⟩ <;> unfold dateInYear <;>
    dsimp only <;> split <;>
    omega

theorem daysFromDate_dateOfDays (days : Int) :
    daysFromDate (dateOfDays days) = days := by
  obtain ⟨era, year, dayOfYear, hyear, hday, hdays, hdate⟩ := exists_parts days
  rw [hdate, daysFromDate_dateInYear era hyear (dayOfYear_le hday), hdays]

theorem dateOfDays_exists (days : Int) : (dateOfDays days).Exists := by
  obtain ⟨era, year, dayOfYear, -, hday, -, hdate⟩ := exists_parts days
  rw [hdate]
  exact dateInYear_exists era hday

theorem year_dateInYear_eq (year : Int) {dayOfYear : Nat}
    (h : dayOfYear ≤ 365) :
    (dateInYear year dayOfYear).year =
      if dayOfYear < 306 then year else year + 1 := by
  have hmonths := (months_le h).1
  have hlate : (5 * dayOfYear + 2) / 153 < 10 ↔ dayOfYear < 306 := by omega
  unfold dateInYear
  dsimp only
  simp only [hlate]
  split_ifs <;> omega

theorem Instant.year_bounds (t : Instant) :
    minYear ≤ (dateOfDays (t.seconds / secondsPerDay)).year ∧
      (dateOfDays (t.seconds / secondsPerDay)).year ≤ maxYear := by
  obtain ⟨era, year, dayOfYear, hyear, hday, hdays, hdate⟩ :=
    exists_parts (t.seconds / secondsPerDay)
  obtain ⟨hmin, hmax⟩ := t.inCalendar
  have hle := dayOfYear_le hday
  have hlower : -96465292 ≤ t.seconds / secondsPerDay := by
    unfold minSeconds at hmin
    unfold secondsPerDay
    omega
  have hupper : t.seconds / secondsPerDay ≤ 95026236 := by
    unfold maxSeconds at hmax
    unfold secondsPerDay
    omega
  rw [hdays] at hlower hupper
  rw [hdate, year_dateInYear_eq _ hle]
  have hbefore : daysBefore year = 365 * year + year / 4 - year / 100 := by
    unfold daysBefore
    omega
  clear hmin hmax hday hdays hdate
  unfold minYear maxYear
  -- the calendar begins in the year 256 of one era, and ends in the year 142 of
  -- another one
  constructor
  · have hera : era < -656 ∨ era = -656 ∨ -656 < era := by omega
    rcases hera with hera | rfl | hera <;> split_ifs <;> omega
  · have hera : era < 655 ∨ era = 655 ∨ 655 < era := by omega
    rcases hera with hera | rfl | hera <;> split_ifs <;> omega

end Annals.Time
