import Annals.Number.Grid

/-!
Double-precision numbers as exact values: a finite one is a sign and a
significand times a power of two.  Every operation is exact on these and then
rounded once, to the nearest double and to the even significand on a tie, by
`Binary64.ofRatio`.
-/

namespace Annals.Number

inductive Binary64 where
  | finite (negative : Bool) (significand : Nat) (exponent : Int)
  | infinite (negative : Bool)
  | nan
  deriving DecidableEq, Repr

namespace Binary64

def minExponent : Int := -1074

def maxExponent : Int := 971

def zero (negative : Bool) : Binary64 := finite negative 0 minExponent

/-- The double nearest to `num / den`.  It lies on the grid on which its
significand has fifty-three bits, or on the finest one. -/
def ofRatio (negative : Bool) (num den : Nat) : Binary64 :=
  if num = 0 then zero negative else
    let exponent := max minExponent (gridExponent 53 num den)
    let (n, d) := scaled num den exponent
    let significand := roundDiv n d
    let (significand, exponent) :=
      if significand = 1 <<< 53 then
        (1 <<< 52, exponent + 1)
      else
        (significand, exponent)
    if maxExponent < exponent then
      infinite negative
    else
      finite negative significand exponent

def ofScaled (negative : Bool) (num den : Nat) (exponent : Int) : Binary64 :=
  let (n, d) := scaled num den (-exponent)
  ofRatio negative n d

def ofInt (n : Int) : Binary64 :=
  ofRatio (n < 0) n.natAbs 1

/-- The double nearest to `n * 10 ^ exponent`.  Powers that are too large or too
small for any double are not worked out. -/
def ofDecimal (negative : Bool) (n : Nat) (exponent : Int) : Binary64 :=
  if n = 0 then zero negative
  else if 400 < exponent then infinite negative
  else if exponent < -(400 + (n.log2 : Int)) then zero negative
  else if 0 ≤ exponent then ofRatio negative (n * Nat.pow 10 exponent.toNat) 1
  else ofRatio negative n (Nat.pow 10 exponent.natAbs)

def isFinite : Binary64 → Bool
  | finite .. => true
  | _ => false

def isZero : Binary64 → Bool
  | finite _ significand _ => significand == 0
  | _ => false

def neg : Binary64 → Binary64
  | finite s m e => finite (!s) m e
  | infinite s => infinite (!s)
  | nan => nan

def mul : Binary64 → Binary64 → Binary64
  | finite s m e, finite s' m' e' => ofScaled (s != s') (m * m') 1 (e + e')
  | _, _ => nan

def div : Binary64 → Binary64 → Binary64
  | finite s m e, finite s' m' e' =>
    if m' = 0 then nan else ofScaled (s != s') m m' (e - e')
  | _, _ => nan

def toFraction : Binary64 → Option (Int × Nat)
  | finite s m e =>
    let (n, d) := scaled m 1 (-e)
    some (if s then -Int.ofNat n else Int.ofNat n, d)
  | _ => none

/-- The integer that a double equals, if it is one. -/
def toInt? (x : Binary64) : Option Int :=
  match x.toFraction with
  | some (n, d) => if n % d = 0 then some (n / d) else none
  | none => none

def succ (x : Binary64) : Binary64 :=
  match x.toFraction with
  | some (n, d) =>
    let n' := n + d
    if n' = 0 then zero false else ofRatio (n' < 0) n'.natAbs d
  | none => x

/-- Equality of values: both zeros are equal and not-a-number equals nothing. -/
def same : Binary64 → Binary64 → Bool
  | nan, _ => false
  | _, nan => false
  | x, y => x == y || (x.isZero && y.isZero)

example : ofDecimal false 1 (-1) = finite false 7205759403792794 (-56) := by
  decide +kernel

end Binary64

end Annals.Number
