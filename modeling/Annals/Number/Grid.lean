/-!
A grid is the set of all multiples of a power of two.  A quotient is brought
onto a grid by rounding it to the nearest multiple, and to the even one on a
tie; the precision of a format says which grid that is.
-/

namespace Annals.Number

/-- The quotient rounded to the nearest natural number, a tie to the even
one. -/
def roundDiv (num den : Nat) : Nat :=
  let q := num / den
  let r := num % den
  if den < 2 * r ∨ (2 * r = den ∧ q % 2 = 1) then q + 1 else q

/-- The quotient of `num * 2 ^ (-exponent)` by `den`, as a pair to be
divided. -/
def scaled (num den : Nat) (exponent : Int) : Nat × Nat :=
  if exponent ≤ 0 then
    (num <<< exponent.natAbs, den)
  else
    (num, den <<< exponent.natAbs)

/-- The exponent of the grid on which a positive quotient has a significand of
so many bits. -/
def gridExponent (bits num den : Nat) : Int :=
  let guess : Int := (num.log2 : Int) - den.log2 - bits
  let (n, d) := scaled num den guess
  if n / d < 1 <<< bits then guess else guess + 1

end Annals.Number
