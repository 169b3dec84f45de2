import Annals.Number.Binary64

/-!
Where a double is made of a decimal or written as one, the embedded database
calculates with `Extended` numbers: not negative, with sixty-four bits of
significand, and with any exponent.  Every operation is exact and then rounded
once, to the nearest such number and to the even significand on a tie, by
`Extended.ofRatio`.  What comes out of several operations in a row need not be
the nearest one.
-/

namespace Annals.Number

/-- The number `significand * 2 ^ exponent`. -/
structure Extended where
  significand : Nat
  exponent : Int
  deriving DecidableEq, Repr

namespace Extended

/-- The number nearest to `num / den` with sixty-four bits of significand. -/
def ofRatio (num den : Nat) : Extended :=
  if num = 0 then { significand := 0, exponent := 0 } else
    let exponent := gridExponent 64 num den
    let (n, d) := scaled num den exponent
    { significand := roundDiv n d, exponent }

def ofScaled (num den : Nat) (exponent : Int) : Extended :=
  let (n, d) := scaled num den (-exponent)
  ofRatio n d

def ofNat (n : Nat) : Extended := ofRatio n 1

/-- The size of a double, which is exact.  What is not finite counts as zero. -/
def ofBinary64 : Binary64 → Extended
  | .finite _ significand exponent => { significand, exponent }
  | _ => ofNat 0

def toBinary64 (x : Extended) (negative : Bool) : Binary64 :=
  Binary64.ofScaled negative x.significand 1 x.exponent

def mul (x y : Extended) : Extended :=
  ofScaled (x.significand * y.significand) 1 (x.exponent + y.exponent)

def div (x y : Extended) : Extended :=
  ofScaled x.significand y.significand (x.exponent - y.exponent)

/-- The significands of two numbers on the finer one of their grids, and its
exponent. -/
def aligned (x y : Extended) : Nat × Nat × Int :=
  let exponent := min x.exponent y.exponent
  (x.significand <<< (x.exponent - exponent).toNat,
    y.significand <<< (y.exponent - exponent).toNat, exponent)

def add (x y : Extended) : Extended :=
  let (m, n, exponent) := aligned x y
  ofScaled (m + n) 1 exponent

def less (x y : Extended) : Bool :=
  let (m, n, _) := aligned x y
  m < n

def split (x : Extended) : Nat × Extended :=
  let (n, d) := scaled x.significand 1 (-x.exponent)
  (n / d, ofRatio (n % d) d)

def one : Extended := ofNat 1

def ten : Extended := ofNat 10

/-- The power of ten as a product of repeated squares, one for each bit of `n`
that is set. -/
def powerOfTen (n : Nat) : Extended :=
  let step := fun ((product, square) : Extended × Extended) (i : Nat) =>
    (if n.testBit i then product.mul square else product, square.mul square)
  ((List.range (n.log2 + 1)).foldl step (one, ten)).1

-- the powers are exact as long as their odd part fits
example : powerOfTen 27 = ofNat (10 ^ 27) := by decide +kernel

end Extended

end Annals.Number
