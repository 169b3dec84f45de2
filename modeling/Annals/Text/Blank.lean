namespace Annals.Text

/-- Whether a character has the White_Space property, within ASCII or not. -/
def isBlank (c : Char) : Bool :=
  let n := c.toNat
  (0x09 ≤ n && n ≤ 0x0D) || n == 0x20 || n == 0x85 || n == 0xA0 ||
    n == 0x1680 ||
    (0x2000 ≤ n && n ≤ 0x200A) || n == 0x2028 || n == 0x2029 || n == 0x202F ||
      n == 0x205F || n == 0x3000

def trimBlank (s : List Char) : List Char :=
  ((s.dropWhile isBlank).reverse.dropWhile isBlank).reverse

/-- Nothing but white space, or nothing at all. -/
def isAllBlank (s : String) : Bool :=
  s.toList.all isBlank

def lowerAscii (s : List Char) : List Char :=
  s.map Char.toLower

end Annals.Text
