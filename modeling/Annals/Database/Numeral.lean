import Annals.Number.Extended
import Annals.Text.Digits

/-!
How the embedded database reads a text as a number.  The front of any text reads
as one: white space, a sign, digits around a point and an exponent, each of
which may be missing.

The double of a numeral is made of its first digits only, and by few operations:
a significand that fits into 64 bits, times a power of ten.
-/

namespace Annals.Database

open Annals.Number Annals.Text

/-- How a text reads as a number: what its front spells, and whether that is all
of it. -/
structure Numeral where
  negative : Bool
  whole : List Char
  hasPoint : Bool
  fraction : List Char
  hasMark : Bool
  /-- The exponent, if digits follow its mark. -/
  exponent : Option Int
  /-- Nothing but white space follows. -/
  complete : Bool

namespace Numeral

def isSpace (c : Char) : Bool := c == ' ' || (0x09 ≤ c.toNat && c.toNat ≤ 0x0D)

def splitSign : List Char → Bool × List Char
  | '-' :: rest => (true, rest)
  | '+' :: rest => (false, rest)
  | text => (false, text)

def splitMarked (mark : Char → Bool) (text : List Char) :
    Bool × List Char × List Char :=
  match text with
  | c :: rest =>
    if mark c then (true, rest.takeWhile Char.isDigit,
      rest.dropWhile Char.isDigit)
    else (false, [], text)
  | [] => (false, [], [])

/-- The size of an exponent.  One that has come to ten thousand stays there if
digits follow. -/
def exponentSize (digits : List Char) : Nat :=
  digits.foldl (fun size c => if size < 10000 then 10 * size + digitValue c
    else 10000) 0

def ofText (text : List Char) : Numeral :=
  let (negative, text) := splitSign (text.dropWhile isSpace)
  let whole := text.takeWhile Char.isDigit
  let (hasPoint, fraction, text) :=
    splitMarked (· == '.') (text.dropWhile Char.isDigit)
  let (hasMark, exponent, text) := match text with
    | c :: rest =>
      if c = 'e' ∨ c = 'E' then
        let (down, rest) := splitSign rest
        let digits := rest.takeWhile Char.isDigit
        let size : Int := exponentSize digits
        (true, if digits.isEmpty then none
          else some (if down then -size else size), rest.dropWhile Char.isDigit)
      else (false, none, text)
    | [] => (false, none, [])
  { negative, whole, hasPoint, fraction, hasMark, exponent,
    complete := (text.dropWhile isSpace).isEmpty }

/-- It has digits, and a mark for an exponent only with an exponent. -/
def isSound (n : Numeral) : Bool :=
  !(n.whole.isEmpty && n.fraction.isEmpty) && (!n.hasMark || n.exponent.isSome)

def isNumber (n : Numeral) : Bool := n.isSound && n.complete

/-- It is written without a point and without an exponent. -/
def isPlain (n : Numeral) : Bool := !n.hasPoint && !n.hasMark

def toInt (n : Numeral) : Int :=
  if n.negative then
    -Int.ofNat (valueOf 10 n.whole)
  else
    Int.ofNat (valueOf 10 n.whole)

/-- Takes digits into a significand as long as there is room for one more in 63
bits: the significand, and the digits that are left. -/
def gather : Nat → List Char → Nat × List Char
  | significand, [] => (significand, [])
  | significand, c :: digits =>
    if significand < (2 ^ 63 - 10) /
      10 then gather (10 * significand + digitValue c) digits
    else (significand, c :: digits)

/-- The significand of a numeral and the power of ten that goes with it.  Digits
in front of the point for which there is no room count as zeros, those behind it
not at all. -/
def decimal (n : Numeral) : Nat × Int :=
  let (significand, passed) := gather 0 n.whole
  let (significand, dropped) := gather significand n.fraction
  (significand, n.exponent.getD 0 + passed.length -
    (n.fraction.length - dropped.length : Nat))

/-- Moves tens from a power into a significand, as long as there is room for
them. -/
def grow : Nat → Nat → Nat × Nat
  | significand, 0 => (significand, 0)
  | significand, power + 1 =>
    if significand < (2 ^ 63 - 1) / 10 then grow (10 * significand) power
    else (significand, power + 1)

/-- Takes tens out of a significand against a power by which it is to be
divided. -/
def shrink : Nat → Nat → Nat × Nat
  | significand, 0 => (significand, 0)
  | significand, power + 1 =>
    if significand % 10 = 0 then
      shrink (significand / 10) power
    else
      (significand, power + 1)

def topPower : Binary64 := Binary64.ofDecimal false 1 308

/-- The double of `significand * 10 ^ power`.  A power beyond 307 is multiplied
in two steps, and one beyond 341 is too large. -/
def raised (negative : Bool) (significand power : Nat) : Binary64 :=
  let (significand, power) := grow significand power
  let multiplied (power : Nat) : Binary64 :=
    ((Extended.ofNat significand).mul (Extended.powerOfTen power)).toBinary64
      negative
  if power ≤ 307 then multiplied power
  else if power < 342 then (multiplied (power - 308)).mul topPower
  else .infinite negative

/-- The double of `significand / 10 ^ power`, in two steps beyond 307, and zero
beyond 341. -/
def lowered (negative : Bool) (significand power : Nat) : Binary64 :=
  let (significand, power) := shrink significand power
  let divided (power : Nat) : Binary64 :=
    ((Extended.ofNat significand).div (Extended.powerOfTen power)).toBinary64
      negative
  if power ≤ 307 then divided power
  else if power < 342 then (divided (power - 308)).div topPower
  else .zero negative

def toReal (n : Numeral) : Binary64 :=
  let (significand, power) := n.decimal
  if significand = 0 then .zero n.negative
  else if 0 ≤ power then raised n.negative significand power.toNat
  else lowered n.negative significand power.natAbs

end Numeral

end Annals.Database
