/-!
Bytes are read as text character by character.  Where they are not UTF-8, the
fault names the byte at which the offending sequence starts and, unless the
bytes merely end too early, how many bytes of it were recognised before the one
that cannot follow.
-/

namespace Annals.Text

/-- Where and how bytes fail to be UTF-8. -/
structure Utf8Fault where
  index : Nat
  /-- The bytes recognised before one that cannot follow; none if the bytes end
  inside the sequence. -/
  recognised : Option Nat
  deriving DecidableEq, Repr

def Utf8Fault.message (f : Utf8Fault) : String :=
  match f.recognised with
  | some n =>
    "invalid utf-8 sequence of " ++ toString n ++ " bytes from index " ++
      toString f.index
  | none => "incomplete utf-8 byte sequence from index " ++ toString f.index

def isContinuation (b : UInt8) : Bool := 0x80 ≤ b && b ≤ 0xBF

/-- The number of bytes that follow a first byte; none follow a byte that cannot
be first. -/
def followers (a : UInt8) : Nat :=
  if 0xC2 ≤ a && a ≤ 0xDF then 1
  else if 0xE0 ≤ a && a ≤ 0xEF then 2
  else if 0xF0 ≤ a && a ≤ 0xF4 then 3
  else 0

/-- Whether a second byte may follow a first one: overlong forms, surrogates and
code points beyond the last are left out. -/
def maySecond (a b : UInt8) : Bool :=
  if a = 0xE0 then 0xA0 ≤ b && b ≤ 0xBF
  else if a = 0xED then 0x80 ≤ b && b ≤ 0x9F
  else if a = 0xF0 then 0x90 ≤ b && b ≤ 0xBF
  else if a = 0xF4 then 0x80 ≤ b && b ≤ 0x8F
  else isContinuation b

def payload (b : UInt8) : Nat := b.toNat % 64

def decodeUtf8From (index : Nat) : List UInt8 → Except Utf8Fault (List Char)
  | [] => .ok []
  | a :: rest =>
    if a < 0x80 then
      (decodeUtf8From (index + 1) rest).map (Char.ofNat a.toNat :: ·)
    else if followers a = 0 then
      .error ⟨index, some 1⟩
    else
      match rest with
      | [] => .error ⟨index, none⟩
      | b :: rest =>
        if !maySecond a b then .error ⟨index, some 1⟩
        else if followers a = 1 then
          (decodeUtf8From (index + 2) rest).map
            (Char.ofNat (a.toNat % 32 * 64 + payload b) :: ·)
        else
          match rest with
          | [] => .error ⟨index, none⟩
          | c :: rest =>
            if !isContinuation c then .error ⟨index, some 2⟩
            else if followers a = 2 then
              (decodeUtf8From (index + 3) rest).map
                (Char.ofNat ((a.toNat % 16 * 64 + payload b) *
                  64 + payload c) :: ·)
            else
              match rest with
              | [] => .error ⟨index, none⟩
              | d :: rest =>
                if !isContinuation d then .error ⟨index, some 3⟩
                else
                  (decodeUtf8From (index + 4) rest).map
                    (Char.ofNat
                      (((a.toNat % 8 * 64 + payload b) * 64 + payload c) * 64 +
                      payload d) :: ·)

def decodeUtf8 (bytes : List UInt8) : Except Utf8Fault String :=
  (decodeUtf8From 0 bytes).map String.ofList

end Annals.Text
