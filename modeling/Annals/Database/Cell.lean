import Annals.Database.Numeral
import Annals.Number.Bounded
import Annals.Number.Fifteen
import Annals.Sql.Row
import Annals.Sql.Table
import Annals.Text.Utf8

/-!
A cell is what the embedded database keeps of a value.  The type of a column
does not restrict its cells but draws them to a class: a numeral put into a
column of integers becomes an integer, a number put into a column of texts
becomes its text, and what cannot be drawn stays as it is.
-/

namespace Annals.Database

open Annals.Number Annals.Sql Annals.Text

inductive Cell where
  | null
  | integer (n : Int64)
  | real (x : Binary64)
  | text (s : String)
  | garbled (bytes : List UInt8)
  | blob (bytes : List UInt8)
  deriving DecidableEq, Repr

namespace Cell

/-- The cell of a value; what is not a number is nothing. -/
def ofValue : Value → Cell
  | .null => null
  | .integer n => integer n
  | .real .nan => null
  | .real x => real x
  | .text s => text s
  | .blob bytes => blob bytes

def toValue : Cell → Except Utf8Fault Value
  | null => .ok .null
  | integer n => .ok (.integer n)
  | real x => .ok (.real x)
  | text s => .ok (.text s)
  | garbled bytes => return .text (← decodeUtf8 bytes)
  | blob bytes => .ok (.blob bytes)

def ofTextBytes (bytes : List UInt8) : Cell :=
  match decodeUtf8 bytes with
  | .ok s => text s
  | .error _ => garbled bytes

def castText (v : Value) : Cell :=
  match v with
  | .blob bytes => ofTextBytes bytes
  | v => ofValue v

/-- A real that is an integer, and neither the least nor the greatest one,
becomes it. -/
def ofReal (x : Binary64) : Cell :=
  match x.toInt?.bind int64? with
  | some i =>
    if i = Int64.minValue ∨ i = Int64.maxValue then real x else integer i
  | none => real x

/-- The number that a text is from its start to its end, or else the cell as it
is. -/
def ofNumeral (chars : List Char) (otherwise : Cell) : Cell :=
  let n := Numeral.ofText chars
  if n.isNumber then
    match if n.isPlain then int64? n.toInt else none with
    | some i => integer i
    | none => ofReal n.toReal
  else otherwise

/-- Bytes as characters, of which only those of ASCII matter to a numeral. -/
def byteChars (bytes : List UInt8) : List Char :=
  bytes.map fun b => Char.ofNat b.toNat

def towardInteger : Cell → Cell
  | text s => ofNumeral s.toList (text s)
  | garbled bytes => ofNumeral (byteChars bytes) (garbled bytes)
  | real x => ofReal x
  | c => c

def towardText : Cell → Cell
  | integer n => text (toString n)
  | real x => text x.toFifteen
  | c => c

def toward : ColumnType → Cell → Cell
  | .id, c | .bigInt, c => c.towardInteger
  | .text, c | .longText, c => c.towardText

/-- The key that a cell is, if it is an integer or can be drawn to one. -/
def key? (c : Cell) : Option Int64 :=
  match c.towardInteger with
  | integer n => some n
  | _ => none

def fraction? : Cell → Option (Int × Nat)
  | integer n => some (n.toInt, 1)
  | real x => x.toFraction
  | _ => none

def equals (c : Cell) (n : Int64) : Bool :=
  match c.fraction? with
  | some (a, b) => a = n.toInt * b
  | none => false

def leadingNumber (chars : List Char) : Cell :=
  let n := Numeral.ofText chars
  let whole := int64? n.toInt
  if n.isNumber then
    match if n.isPlain then whole else none with
    | some i => integer i
    | none => real n.toReal
  else if !n.isPlain && ((n.hasPoint && n.hasMark) || n.exponent.isSome ||
    !n.hasMark) && !(n.whole.isEmpty && n.fraction.isEmpty) then
    real n.toReal
  else
    match whole with
    | some i => integer i
    | none => real n.toReal

/-- One more than a number.  Past the greatest integer the sum is a real. -/
def addOneToNumber : Cell → Cell
  | integer n =>
    if n = Int64.maxValue then
      real (Binary64.ofInt n.toInt).succ
    else
      integer (n + 1)
  | real x => real x.succ
  | c => c

def addOne : Cell → Cell
  | text s => addOneToNumber (leadingNumber s.toList)
  | garbled bytes | blob bytes =>
    addOneToNumber (leadingNumber (byteChars bytes))
  | c => addOneToNumber c

end Cell

end Annals.Database
