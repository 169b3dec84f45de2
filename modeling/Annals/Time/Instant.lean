import Annals.Number.Bounded
import Annals.Time.Calendar

/-!
An `Instant` is a moment of Universal Time with a precision of one nanosecond.
It is kept as a count of whole seconds since 1970-01-01 and the nanoseconds
after that second; a leap second shows as nanoseconds from one thousand million
on, in the last second of a minute.
-/

namespace Annals.Time

def nanosPerSecond : Nat := 1000000000

def secondsPerDay : Int := 86400

def minYear : Int := -262143

def maxYear : Int := 262142

def minSeconds : Int := -8334601228800

def maxSeconds : Int := 8210266876799

structure Instant where
  seconds : Int
  nanos : Nat
  inCalendar : minSeconds ≤ seconds ∧ seconds ≤ maxSeconds
  nanos_lt : nanos < 2 * nanosPerSecond
  /-- Only the last second of a minute may be a leap second. -/
  leap : nanosPerSecond ≤ nanos → seconds % 60 = 59
  deriving DecidableEq

namespace Instant

/-- The instant with these parts, if there is one. -/
def ofParts? (seconds : Int) (nanos : Nat) : Option Instant :=
  if h : (minSeconds ≤ seconds ∧ seconds ≤ maxSeconds) ∧
    nanos < 2 * nanosPerSecond ∧
      (nanosPerSecond ≤ nanos → seconds % 60 = 59) then
    some ⟨seconds, nanos, h.1, h.2.1, h.2.2⟩
  else
    none

def before (a b : Instant) : Bool :=
  a.seconds < b.seconds || (a.seconds == b.seconds && a.nanos < b.nanos)

def totalNanos (t : Instant) : Int :=
  t.seconds * nanosPerSecond + t.nanos

/-- The count of nanoseconds as a 64-bit number, for the instants whose count
fits. -/
def epochNanos? (t : Instant) : Option Int64 :=
  Number.int64? t.totalNanos

/-- The second in which a count of nanoseconds lies, and how far into it,
narrowed to 32 bits. -/
def splitCount (n : Int64) : Int64 × UInt32 :=
  (Int64.ofInt (n.toInt / nanosPerSecond),
    UInt32.ofInt (n.toInt % nanosPerSecond))

end Instant

end Annals.Time
