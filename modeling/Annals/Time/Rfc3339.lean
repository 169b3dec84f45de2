import Annals.Text.Blank
import Annals.Text.Digits
import Annals.Time.Instant

/-!
`Instant.toRfc3339` writes the canonical form: Universal Time, marked `Z`, with
the fewest of no, three, six or nine fraction digits that are exact, and a
signed year outside 0 to 9999.  Reading is laxer: white space around the
separators, one-digit fields, any offset and longer fractions are accepted, as
`Instant.ofRfc3339` says piece by piece.
-/

namespace Annals.Time

open Annals.Text

/-- Four digits for the years 0 to 9999, and otherwise a sign and at least
four. -/
def yearText (year : Int) : String :=
  if 0 ≤ year ∧ year ≤ 9999 then padded 4 year.toNat
  else (if year < 0 then "-" else "+") ++ padded 4 year.natAbs

/-- The fraction of a second in the fewest of no, three, six or nine digits that
are exact. -/
def fractionText (nanos : Nat) : String :=
  if nanos = 0 then ""
  else if nanos % 1000000 = 0 then "." ++ padded 3 (nanos / 1000000)
  else if nanos % 1000 = 0 then "." ++ padded 6 (nanos / 1000)
  else "." ++ padded 9 nanos

namespace Instant

def date (t : Instant) : Date :=
  dateOfDays (t.seconds / secondsPerDay)

def secondOfDay (t : Instant) : Nat :=
  (t.seconds % secondsPerDay).toNat

/-- An instant with the given separator between date and time and the given mark
of the zone. -/
def render (t : Instant) (separator zone : String) : String :=
  let second := t.secondOfDay % 60
  -- in a leap second the clock shows one second more, and the fraction starts
  -- again
  let (second, nanos) :=
    if nanosPerSecond ≤ t.nanos then
      (second + 1, t.nanos - nanosPerSecond)
    else
      (second, t.nanos)
  let date := t.date
  yearText date.year ++ "-" ++ padded 2 date.month ++ "-" ++
    padded 2 date.day ++ separator ++
    padded 2 (t.secondOfDay / 3600) ++ ":" ++
      padded 2 (t.secondOfDay / 60 % 60) ++ ":" ++
    padded 2 second ++ fractionText nanos ++ zone

def toRfc3339 (t : Instant) : String := t.render "T" "Z"

def toText (t : Instant) : String := t.render " " " UTC"

end Instant

inductive ReadError where
  | outOfRange
  | impossible
  | invalid
  | tooShort
  | tooLong
  deriving DecidableEq, Repr

def ReadError.message : ReadError → String
  | outOfRange => "input is out of range"
  | impossible => "no possible date and time matching input"
  | invalid => "input contains invalid characters"
  | tooShort => "premature end of input"
  | tooLong => "trailing input"

abbrev TextReader (α : Type) := StateT (List Char) (Except ReadError) α

namespace TextReader

def skipBlank : TextReader Unit :=
  modify (List.dropWhile isBlank)

/-- Between one digit and `width` of them, read as a number of 64 bits. -/
def number (width : Option Nat) : TextReader Nat := do
  let text ← get
  let window := match width with
    | some n => text.take n
    | none => text
  let digits := window.takeWhile Char.isDigit
  if digits.isEmpty then
    throw (if text.isEmpty then .tooShort else .invalid)
  let value := valueOf 10 digits
  if (Number.int64? value).isNone then throw .outOfRange
  set (text.drop digits.length)
  return value

def field (low high : Nat) : TextReader Nat := do
  skipBlank
  let value ← number (some 2)
  unless low ≤ value ∧ value ≤ high do throw .outOfRange
  return value

def separator (c : Char) : TextReader Unit := do
  skipBlank
  match ← get with
  | [] => throw .tooShort
  | d :: rest => if d = c then set rest else throw .invalid

def year : TextReader Int := do
  skipBlank
  let value : Int ← match ← get with
    | '-' :: rest => do
      set rest
      pure (-Int.ofNat (← number none))
    | '+' :: rest => do
      set rest
      pure (Int.ofNat (← number none))
    | _ => pure (Int.ofNat (← number (some 4)))
  unless (Int32.ofInt value).toInt = value do throw .outOfRange
  return value

/-- An optional fraction of a second.  Digits after the ninth are skipped. -/
def fraction : TextReader Nat := do
  match ← get with
  | '.' :: rest =>
    set rest
    let before := rest.length
    let value ← number (some 9)
    let after ← get
    set (after.dropWhile Char.isDigit)
    return value * Nat.pow 10 (9 - (before - after.length))
  | _ => return 0

def twoDigits (s : List Char) : Except ReadError (Char × Char × List Char) :=
  match s with
  | [] => .error .tooShort
  | [c] => if c.utf8Size < 2 then .error .tooShort else .error .invalid
  | a :: b :: rest =>
    if a.isDigit && b.isDigit then .ok (a, b, rest) else .error .invalid

/-- The offset from Universal Time, in seconds: `UTC`, `Z`, or a sign, two
digits of hours, and two digits of minutes with an optional colon or white space
between. -/
def offset : TextReader Int := do
  skipBlank
  match ← get with
  | [] => throw .tooShort
  | c :: rest =>
    if lowerAscii ((c :: rest).take 3) = ['u', 't', 'c'] then
      set (rest.drop 2)
      return 0
    if c = 'Z' || c = 'z' then
      set rest
      return 0
    let negative ←
      if c = '+' then pure false
      else if c = '-' || c = '\u2212' then pure true
      else throw .invalid
    let (h₁, h₂, rest) ← twoDigits rest
    let (m₁, m₂, rest) ← twoDigits (rest.dropWhile fun c =>
      c == ':' || isBlank c)
    if 6 ≤ valueOf 10 [m₁] then throw .outOfRange
    set rest
    let seconds : Int := valueOf 10 [h₁, h₂] * 3600 + valueOf 10 [m₁, m₂] * 60
    return if negative then -seconds else seconds

def timestamp : TextReader Instant := do
  let year ← year
  separator '-'
  let month ← field 1 12
  separator '-'
  let day ← field 1 31
  match ← get with
  | [] => throw .tooShort
  | c :: rest =>
    if c = 'T' || c = 't' || c = ' ' then set rest else throw .invalid
  let hour ← field 0 23
  separator ':'
  let minute ← field 0 59
  separator ':'
  let second ← field 0 60
  let fraction ← fraction
  let offset ← offset
  skipBlank
  unless (← get).isEmpty do throw .tooLong
  let date : Date := { year, month, day }
  unless date.Exists ∧ minYear ≤ year ∧ year ≤ maxYear do throw .outOfRange
  unless offset.natAbs < secondsPerDay do throw .outOfRange
  -- second sixty is the leap second that follows second fifty-nine
  let (second, nanos) :=
    if second = 60 then (59, nanosPerSecond + fraction) else (second, fraction)
  let seconds :=
    daysFromDate date * secondsPerDay +
      (hour * 3600 + minute * 60 + second : Nat) - offset
  match Instant.ofParts? seconds nanos with
  | some t => return t
  | none => throw .impossible

end TextReader

def Instant.ofRfc3339 (s : String) : Except ReadError Instant :=
  (TextReader.timestamp.run s.toList).map Prod.fst

end Annals.Time
