import Annals.Text.Digits

namespace Annals.Text

def hexOfBytes (bytes : List UInt8) : List Char :=
  bytes.flatMap fun b => [hexDigit (b.toNat / 16), hexDigit (b.toNat % 16)]

/-- The bytes that digits stand for, if they are digits and come in pairs. -/
def bytesOfHex? : List Char → Option (List UInt8)
  | [] => some []
  | [_] => none
  | high :: low :: rest => do
    guard (isHexDigit high && isHexDigit low)
    return UInt8.ofNat (valueOf 16 [high, low]) :: (← bytesOfHex? rest)

end Annals.Text
