import Annals.Number.Binary64
import Annals.Text.Digits

namespace Annals.Number

/-- The number `digits * 10 ^ exponent`. -/
structure Decimal where
  digits : Nat
  exponent : Int
  deriving DecidableEq, Repr

/-- Which of two decimals is taken that are equally near. -/
inductive Tie where
  | up
  /-- The one whose last digit is even. -/
  | even
  deriving DecidableEq, Repr

namespace Binary64

/-- The number `t` with `10 ^ t ≤ num / den < 10 ^ (t + 1)`. -/
def leadingPlace (num den : Nat) : Int :=
  if den ≤ num then ((toString (num / den)).length : Int) - 1
  else -((toString ((den - 1) / num)).length : Int)

/-- The decimals with `count` digits next to `m * 2 ^ e` that round to it, the
nearer one first.  The reals that round to it reach half a grid step to either
side, and a quarter below a power of two; the ends belong to them when `m` is
even. -/
def candidates (tie : Tie) (m : Nat) (e : Int) (count : Nat) : List Decimal :=
  let low := if m = 1 <<< 52 ∧ minExponent < e then 4 * m - 1 else 4 * m - 2
  let high := 4 * m + 2
  let (num, den) := scaled m 1 (-e)
  let place := leadingPlace num den + 1 - count
  -- both sides of every comparison are multiplied up to natural numbers
  let a := Nat.pow 10 (-place).toNat <<< (e - 2).toNat
  let b := Nat.pow 10 place.toNat <<< (2 - e).toNat
  let fits := fun (c : Nat) =>
    if m % 2 = 0 then decide (low * a ≤ c * b ∧ c * b ≤ high * a)
    else decide (low * a < c * b ∧ c * b < high * a)
  let below := 4 * m * a / b
  let options := [below, below + 1].filter fits
  let (twice, middle) := (2 * (4 * m * a), (2 * below + 1) * b)
  let nearerFirst :=
    if twice < middle ∨
      (twice = middle ∧ tie = .even ∧ below % 2 = 0) then options
    else options.reverse
  nearerFirst.map fun c =>
    -- a carry into a new place leaves a zero at the end
    if c = Nat.pow 10 count then { digits := c / 10, exponent := place + 1 }
    else { digits := c, exponent := place }

/-- The shortest decimal that rounds to `m * 2 ^ e`, where `m` is positive.
Seventeen digits always suffice. -/
def shortest (tie : Tie) (m : Nat) (e : Int) : Decimal :=
  let found := (List.range 17).findSome? fun n =>
    (candidates tie m e (n + 1)).head?
  found.getD { digits := m, exponent := 0 }

end Binary64

namespace Decimal

def trimmed (d : Decimal) : Decimal :=
  if d.digits ≠ 0 ∧ d.digits % 10 = 0 then
    trimmed { digits := d.digits / 10, exponent := d.exponent + 1 }
  else d
termination_by d.digits
decreasing_by grind

/-- All digits around a point, with at least one on either side. -/
def positional (d : Decimal) : String :=
  let text := toString d.digits
  if 0 ≤ d.exponent then
    text ++ String.ofList (List.replicate d.exponent.toNat '0') ++ ".0"
  else
    let places := d.exponent.natAbs
    let digits := List.replicate (places + 1 - text.length) '0' ++ text.toList
    String.ofList (digits.take (digits.length - places)) ++ "." ++
      String.ofList (digits.drop (digits.length - places))

/-- One digit, the others after a point, and the power of ten with its sign.  At
least `places` digits follow the point, and the power has at least `width`
digits. -/
def scientific (d : Decimal) (places width : Nat) : String :=
  let text := (toString d.digits).toList
  let power := d.exponent + (text.length - 1 : Nat)
  let others := text.drop 1 ++ List.replicate (places + 1 - text.length) '0'
  String.ofList (text.take 1) ++
    (if others.isEmpty then "" else "." ++ String.ofList others) ++
    "e" ++ (if power < 0 then "-" else "+") ++ Text.padded width power.natAbs

def leading (d : Decimal) : Int :=
  d.exponent + ((toString d.digits).length : Int) - 1

end Decimal

namespace Binary64

def signed (negative : Bool) (text : String) : String :=
  if negative then "-" ++ text else text

def write (infinity : String) (text : Nat → Int → String) : Binary64 → String
  | finite s m e => signed s (if m = 0 then "0.0" else text m e)
  | infinite s => signed s infinity
  | nan => "NaN"

def toPositional : Binary64 → String :=
  write "inf" fun m e => (shortest .up m e).positional

/-- All digits written out from a hundred-thousandth up to sixteen digits before
the point, and a power of ten beyond. -/
def toCompact : Binary64 → String :=
  write "inf" fun m e =>
    let d := shortest .even m e
    if -5 ≤ d.leading ∧ d.leading < 16 then d.positional else d.scientific 0 1

end Binary64

end Annals.Number
