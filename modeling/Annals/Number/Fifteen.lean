import Annals.Number.Extended
import Annals.Number.Shortest

/-!
`Binary64.toFifteen` writes a double with no more than fifteen digits.  The
double is divided by a power of ten, half a unit of the fifteenth digit is added
to it, and the digits are taken off from the front.  All of that is done with
`Extended` numbers, so that of two decimals which are nearly equally near the
farther one may be written.
-/

namespace Annals.Number

namespace Extended

/-- A constant that is known as a double: the one nearest to
`n * 10 ^ exponent`. -/
def ofDecimal (n : Nat) (exponent : Int) : Extended :=
  ofBinary64 (Binary64.ofDecimal false n exponent)

/-- Multiplies a scale by `10 ^ step` as long as it does not exceed a number, at
most so many times.  The second part counts the power of ten. -/
def climb (x : Extended) (step : Nat) : Nat → Extended × Int → Extended × Int
  | 0, scale => scale
  | n + 1, (scale, power) =>
    let next := (ofDecimal 1 step).mul scale
    if x.less next then (scale, power) else climb x step n (next, power + step)

/-- Multiplies a number by `10 ^ step` as long as it is less than a bound, at
most so many times.  The second part counts the power of ten that is left. -/
def lift (bound : Extended) (step : Nat) : Nat → Extended × Int → Extended × Int
  | 0, x => x
  | n + 1, (x, power) =>
    if x.less bound then
      lift bound step n (x.mul (ofDecimal 1 step), power - step)
    else
      (x, power)

/-- A positive number as one between one and ten, and a power of ten.  The steps
suffice for the size of every double. -/
def normalized (x : Extended) : Extended × Int :=
  let (scale, power) := climb x 1 12 (climb x 10 12 (climb x 100 4 (one, 0)))
  lift one 1 9 (lift (ofDecimal 1 (-8)) 8 48 (x.div scale, power))

def halfUnit : Extended :=
  ofBinary64 ((Binary64.ofDecimal false 5 (-5)).mul
    (Binary64.ofDecimal false 1 (-10)))

/-- So many digits from the front of a number below ten, behind those that have
been taken. -/
def digits : Nat → Nat → Extended → Nat
  | 0, taken, _ => taken
  | count + 1, taken, x =>
    let (digit, rest) := x.split
    digits count (10 * taken + digit) (rest.mul ten)

def fifteen (x : Extended) : Decimal :=
  let (x, power) := x.normalized
  let x := x.add halfUnit
  let (x, power) :=
    if x.less ten then (x, power) else (x.mul (ofDecimal 1 (-1)), power + 1)
  { digits := digits 15 0 x, exponent := power - 14 }

end Extended

/-- No more than fifteen digits, and a power of ten beyond a ten-thousandth and
fifteen digits before the point.  Zero has no sign. -/
def Binary64.toFifteen (x : Binary64) : String :=
  if x.isZero then "0.0"
  else
    x.write "Inf" fun m e =>
      let d := (Extended.fifteen { significand := m, exponent := e }).trimmed
      if -4 ≤ d.leading ∧ d.leading < 15 then d.positional else d.scientific 1 2

end Annals.Number
