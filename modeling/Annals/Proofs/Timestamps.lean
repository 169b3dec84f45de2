import Annals.Proofs.Dates
import Annals.Proofs.Numerals
import Annals.Time.Rfc3339
import Mathlib.Data.List.TakeWhile

namespace Annals.Time

open Annals.Text

namespace TextReader

variable {α β : Type} {text rest : List Char} {n : Nat} {digits : List Char}

/-- A reader takes a value off the front of a text and leaves the rest. -/
def Takes (reader : TextReader α) (text : List Char) (a : α)
    (rest : List Char) : Prop :=
  reader.run text = .ok (a, rest)

theorem Takes.bind {reader : TextReader α} {next : α → TextReader β}
    {a : α} {b : β} {middle : List Char} (h : Takes reader text a middle)
    (hnext : Takes (next a) middle b rest) :
    Takes (reader >>= next) text b rest := by
  unfold Takes at *
  rw [StateT.run_bind, h]
  exact hnext

theorem takes_get : Takes get text text text := rfl

theorem takes_set (rest : List Char) : Takes (set rest) text () rest := rfl

theorem takes_pure (a : α) : Takes (pure a) text a text := rfl

theorem isBlank_of_isDigit {c : Char} (h : c.isDigit = true) :
    isBlank c = false := by
  simp only [Char.isDigit, Bool.and_eq_true, decide_eq_true_eq, ge_iff_le,
    UInt32.le_iff_toNat_le] at h
  change 48 ≤ c.toNat ∧ c.toNat ≤ 57 at h
  unfold isBlank
  simp only [Bool.or_eq_false_iff, Bool.and_eq_false_iff,
    decide_eq_false_iff_not, beq_eq_false_iff_ne]
  omega

theorem takes_skipBlank {c : Char} (h : isBlank c = false) :
    Takes skipBlank (c :: rest) () (c :: rest) := by
  have hdrop : (c :: rest).dropWhile isBlank = c :: rest :=
    List.dropWhile_cons_of_neg (by rw [h]; exact Bool.false_ne_true)
  change Except.ok ((), (c :: rest).dropWhile isBlank) = _
  rw [hdrop]

theorem isNone_int64? {n : Nat} (h : n < 10 ^ 9) :
    (Number.int64? n).isNone = false := by
  have hfits : (Int64.ofInt n).toInt = n :=
    Int64.toInt_ofInt_of_le (by omega) (by omega)
  unfold Number.int64?
  rw [if_pos hfits]
  rfl

/-- The digits that a number of some width takes from a text. -/
def digitsOf (width : Option Nat) (text : List Char) : List Char :=
  (width.elim text text.take).takeWhile Char.isDigit

theorem takes_number {width : Option Nat} (hn : Numeral n digits)
    (hsmall : n < 10 ^ 9) (hdigits : digitsOf width (digits ++ rest) = digits) :
    Takes (number width) (digits ++ rest) n rest := by
  have hempty : digits.isEmpty = false := by
    rw [List.isEmpty_eq_false_iff]
    exact hn.nonempty
  unfold digitsOf at hdigits
  unfold Takes number
  cases width with
  | none | some w =>
      simp only [Option.elim] at hdigits
      simp only [StateT.run_bind, StateT.run_get, pure_bind, hdigits,
        hempty, hn.value, isNone_int64? hsmall, List.drop_left]
      rfl

theorem takes_padded {width : Nat} (hpositive : 0 < width) (hwidth : width ≤ 9)
    (h : n < 10 ^ width) (rest : List Char) :
    Takes (number (some width)) ((padded width n).toList ++ rest) n rest := by
  have hn := numeral_padded width n
  have hsmall : n < 10 ^ 9 :=
    Nat.lt_of_lt_of_le h (Nat.pow_le_pow_right (by decide) hwidth)
  refine takes_number hn hsmall ?_
  unfold digitsOf
  rw [Option.elim_some, List.take_left' (length_padded hpositive h)]
  exact List.takeWhile_eq_self_iff.mpr hn.all

theorem takes_blanks (hn : Numeral n digits) (rest : List Char) :
    Takes skipBlank (digits ++ rest) () (digits ++ rest) := by
  obtain ⟨c, digits, rfl⟩ := List.exists_cons_of_ne_nil hn.nonempty
  exact takes_skipBlank (isBlank_of_isDigit (hn.all c List.mem_cons_self))

theorem takes_field {low high : Nat} (hlow : low ≤ n) (hhigh : n ≤ high)
    (h : n < 100) (rest : List Char) :
    Takes (field low high) ((padded 2 n).toList ++ rest) n rest := by
  unfold field
  refine (takes_blanks (numeral_padded 2 n) rest).bind ?_
  refine (takes_padded (by decide) (by decide) h rest).bind ?_
  rw [if_pos ⟨hlow, hhigh⟩]
  exact takes_pure n

theorem takes_separator {c : Char} (h : isBlank c = false) (rest : List Char) :
    Takes (separator c) (c :: rest) () rest := by
  unfold separator
  refine (takes_skipBlank h).bind (takes_get.bind ?_)
  dsimp only
  rw [if_pos rfl]
  exact takes_set rest

theorem int32_of_small {year : Int} (h : year.natAbs < 10 ^ 9) :
    (Int32.ofInt year).toInt = year :=
  Int32.toInt_ofInt_of_le (by omega) (by omega)

theorem takes_small {year : Int} (h : year.natAbs < 10 ^ 9) (rest : List Char) :
    Takes (do
      unless (Int32.ofInt year).toInt = year do throw .outOfRange
      return year) rest year rest := by
  rw [int32_of_small h, if_pos rfl]
  exact takes_pure year

theorem takes_unsigned {size : Nat} (h : size < 10 ^ 4) (rest : List Char) :
    Takes TextReader.year ((padded 4 size).toList ++ '-' :: rest) size
      ('-' :: rest) := by
  have hn := numeral_padded 4 size
  obtain ⟨c, digits, hdigits⟩ := List.exists_cons_of_ne_nil hn.nonempty
  have hc := hn.all c (hdigits ▸ List.mem_cons_self)
  have hread := takes_padded (by decide) (by decide) h ('-' :: rest)
  unfold TextReader.year
  refine (takes_blanks hn ('-' :: rest)).bind (takes_get.bind ?_)
  rw [hdigits] at hread ⊢
  dsimp only
  split
  case h_1 hsign =>
    cases hsign
    exact absurd hc (by decide)
  case h_2 hsign =>
    cases hsign
    exact absurd hc (by decide)
  case h_3 =>
    exact hread.bind ((takes_pure _).bind
      (takes_small (by simpa using by omega) _))

theorem takes_signed {size : Nat} (h : size < 10 ^ 9) (rest : List Char) :
    Takes TextReader.year ('-' :: (padded 4 size).toList ++ '-' :: rest)
      (-(size : Int)) ('-' :: rest) ∧
      Takes TextReader.year ('+' :: (padded 4 size).toList ++ '-' :: rest) size
        ('-' :: rest) := by
  have hn := numeral_padded 4 size
  have hread : Takes (number none) ((padded 4 size).toList ++ '-' :: rest) size
      ('-' :: rest) := by
    refine takes_number hn h (takeWhile_digits hn.all ?_)
    rintro c ⟨rfl⟩
    decide
  unfold TextReader.year
  constructor
  · refine (takes_skipBlank (by decide)).bind (takes_get.bind ?_)
    exact (takes_set _).bind
      (hread.bind ((takes_pure _).bind (takes_small (by simpa using h) _)))
  · refine (takes_skipBlank (by decide)).bind (takes_get.bind ?_)
    exact (takes_set _).bind
      (hread.bind ((takes_pure _).bind (takes_small (by simpa using h) _)))

theorem takes_year {year : Int} (h : year.natAbs < 10 ^ 9) (rest : List Char) :
    Takes TextReader.year ((yearText year).toList ++ '-' :: rest) year
      ('-' :: rest) := by
  obtain ⟨hnegative, hpositive⟩ := takes_signed h rest
  unfold yearText
  split_ifs with hshort hsign
  · have hread := @takes_unsigned year.toNat (by omega) rest
    rwa [show (year.toNat : Int) = year by omega] at hread
  · rw [show -(year.natAbs : Int) = year by omega] at hnegative
    rw [String.toList_append]
    exact hnegative
  · rw [show (year.natAbs : Int) = year by omega] at hpositive
    rw [String.toList_append]
    exact hpositive

theorem takes_digits {width nanos : Nat} (hpositive : 0 < width)
    (hwidth : width ≤ 9) (h : n < 10 ^ width)
    (hexact : n * 10 ^ (9 - width) = nanos) :
    Takes fraction (("." ++ padded width n).toList ++ ['Z']) nanos ['Z'] := by
  have hn := numeral_padded width n
  have hlength := length_padded hpositive h
  have hsmall : n < 10 ^ 9 :=
    Nat.lt_of_lt_of_le h (Nat.pow_le_pow_right (by decide) hwidth)
  have hdigits : digitsOf (some 9) ((padded width n).toList ++ ['Z']) =
      (padded width n).toList := by
    unfold digitsOf
    rw [Option.elim_some, List.take_append, List.take_of_length_le (by omega)]
    refine takeWhile_digits hn.all fun c hc => ?_
    have hmem := List.mem_of_mem_take (List.mem_of_mem_head? hc)
    rw [List.mem_singleton.mp hmem]
    decide
  have hread : Takes (number (some 9)) ((padded width n).toList ++ ['Z']) n
      ['Z'] :=
    takes_number hn hsmall hdigits
  have hcount : ((padded width n).toList.append ['Z']).length - ['Z'].length =
      width := by
    change ((padded width n).toList ++ ['Z']).length - 1 = width
    rw [List.length_append, hlength]
    rfl
  have hpoint : ".".toList = ['.'] := rfl
  rw [String.toList_append, hpoint, List.singleton_append, ← hexact]
  unfold fraction
  refine takes_get.bind
    ((takes_set _).bind (hread.bind (takes_get.bind ((takes_set _).bind ?_))))
  rw [hcount]
  exact takes_pure _

theorem takes_fraction {nanos : Nat} (h : nanos < nanosPerSecond) :
    Takes fraction ((fractionText nanos).toList ++ ['Z']) nanos ['Z'] := by
  unfold nanosPerSecond at h
  unfold fractionText
  split_ifs with hzero hmillis hmicros
  · rw [hzero]
    rfl
  · apply takes_digits <;> omega
  · apply takes_digits <;> omega
  · apply takes_digits <;> omega

theorem takes_offset : Takes offset ['Z'] 0 [] := rfl

end TextReader

namespace Instant

/-- The second and its nanoseconds, as the clock shows them. -/
def shownSecond (t : Instant) : Nat × Nat :=
  if nanosPerSecond ≤ t.nanos then (t.secondOfDay % 60 + 1,
    t.nanos - nanosPerSecond)
  else (t.secondOfDay % 60, t.nanos)

theorem toList_toRfc3339 (t : Instant) : t.toRfc3339.toList =
    (yearText t.date.year).toList ++
      '-' :: ((padded 2 t.date.month).toList ++ '-' ::
      ((padded 2 t.date.day).toList ++
        'T' :: ((padded 2 (t.secondOfDay / 3600)).toList ++ ':' ::
        ((padded 2 (t.secondOfDay / 60 % 60)).toList ++
          ':' :: ((padded 2 t.shownSecond.1).toList ++
          ((fractionText t.shownSecond.2).toList ++ ['Z'])))))) := by
  have hparts : t.toRfc3339 = yearText t.date.year ++ "-" ++
      padded 2 t.date.month ++ "-" ++
      padded 2 t.date.day ++ "T" ++ padded 2 (t.secondOfDay / 3600) ++ ":" ++
        padded 2 (t.secondOfDay / 60 % 60) ++ ":" ++ padded 2 t.shownSecond.1 ++
          fractionText t.shownSecond.2 ++ "Z" := rfl
  have hdash : "-".toList = ['-'] := rfl
  have hcolon : ":".toList = [':'] := rfl
  have hmarks : "T".toList = ['T'] ∧ "Z".toList = ['Z'] := ⟨rfl, rfl⟩
  rw [hparts]
  simp only [String.toList_append, List.append_assoc, hdash, hcolon, hmarks,
    List.cons_append, List.nil_append]

theorem secondOfDay_eq (t : Instant) :
    t.secondOfDay = (t.seconds % 86400).toNat := rfl

theorem secondOfDay_lt (t : Instant) : t.secondOfDay < 86400 := by
  rw [secondOfDay_eq]
  omega

/-- Second sixty is read as the leap second behind second fifty-nine. -/
theorem shownSecond_read (t : Instant) :
    t.shownSecond.1 ≤ 60 ∧ t.shownSecond.2 < nanosPerSecond ∧
    (if t.shownSecond.1 = 60 then (59, nanosPerSecond + t.shownSecond.2)
      else t.shownSecond) = (t.secondOfDay % 60, t.nanos) := by
  have hnanos := t.nanos_lt
  unfold nanosPerSecond at hnanos
  unfold shownSecond nanosPerSecond
  split
  case isTrue hleap =>
    have hsecond : t.secondOfDay % 60 = 59 := by
      have hlast := t.leap hleap
      rw [secondOfDay_eq]
      omega
    dsimp only
    rw [hsecond, if_pos rfl]
    refine ⟨by decide, by omega, ?_⟩
    rw [Nat.add_sub_cancel' hleap]
  case isFalse hplain =>
    dsimp only
    rw [if_neg (by omega)]
    exact ⟨by omega, by omega, rfl⟩

theorem date_exists (t : Instant) : t.date.Exists := dateOfDays_exists _

theorem ofParts?_eq (t : Instant) : ofParts? t.seconds t.nanos = some t :=
  dif_pos ⟨t.inCalendar, t.nanos_lt, t.leap⟩

theorem seconds_eq (t : Instant) : daysFromDate t.date * secondsPerDay +
    (t.secondOfDay / 3600 * 3600 + t.secondOfDay / 60 % 60 * 60 +
      t.secondOfDay % 60 : Nat) - 0 = t.seconds := by
  have hdays : daysFromDate t.date = t.seconds / secondsPerDay :=
    daysFromDate_dateOfDays _
  have hsum : t.secondOfDay / 3600 * 3600 + t.secondOfDay / 60 % 60 * 60 +
      t.secondOfDay % 60 = t.secondOfDay := by
    omega
  rw [hdays, hsum, secondOfDay_eq]
  unfold secondsPerDay
  omega

end Instant

open TextReader in
theorem TextReader.takes_timestamp (t : Instant) :
    Takes timestamp t.toRfc3339.toList t [] := by
  obtain ⟨hsecond, hnanos, hread⟩ := t.shownSecond_read
  obtain ⟨hmonth, hmonth', hday, hday'⟩ := t.date_exists
  have hdays : daysInMonth t.date.year t.date.month ≤ 31 := by
    unfold daysInMonth
    split
    · split <;> decide
    all_goals decide
  have hyear : t.date.year.natAbs < 10 ^ 9 := by
    have hbounds := t.year_bounds
    unfold minYear maxYear at hbounds
    unfold Instant.date
    omega
  have hday'' := t.secondOfDay_lt
  rw [t.toList_toRfc3339]
  unfold timestamp
  refine (takes_year hyear _).bind ?_
  refine (takes_separator (by decide) _).bind ?_
  refine (takes_field hmonth hmonth' (by omega) _).bind ?_
  refine (takes_separator (by decide) _).bind ?_
  refine (takes_field hday (by omega) (by omega) _).bind ?_
  refine takes_get.bind ((takes_set _).bind ?_)
  refine (takes_field (Nat.zero_le _) (by omega) (by omega) _).bind ?_
  refine (takes_separator (by decide) _).bind ?_
  refine (takes_field (Nat.zero_le _) (by omega) (by omega) _).bind ?_
  refine (takes_separator (by decide) _).bind ?_
  refine (takes_field (Nat.zero_le _) hsecond (by omega) _).bind ?_
  refine (takes_fraction hnanos).bind ?_
  refine takes_offset.bind ?_
  refine Takes.bind (show Takes skipBlank [] () [] from rfl) (takes_get.bind ?_)
  rw [if_pos List.isEmpty_nil]
  dsimp only
  rw [if_pos ⟨t.date_exists, t.year_bounds⟩, if_pos (by decide), hread]
  dsimp only
  rw [t.seconds_eq, t.ofParts?_eq]
  exact takes_pure t

theorem Instant.ofRfc3339_toRfc3339 (t : Instant) :
    Instant.ofRfc3339 t.toRfc3339 = .ok t := by
  unfold Instant.ofRfc3339
  rw [show TextReader.timestamp.run t.toRfc3339.toList = .ok (t, []) from
    TextReader.takes_timestamp t]
  rfl

end Annals.Time
