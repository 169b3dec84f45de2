import Annals.Text.Shapeless

namespace Annals.Text

def hexDigits (n : Nat) : String :=
  String.ofList (Nat.toDigits 16 n)

def quotedChar (c : Char) : String :=
  if c = '"' then "\\\""
  else if c = '\\' then "\\\\"
  else if c = '\n' then "\\n"
  else if c = '\r' then "\\r"
  else if c = '\t' then "\\t"
  else if c.toNat = 0 then "\\0"
  else if 0x20 ≤ c.toNat ∧ c.toNat < 0x7F then c.toString
  else if isShapeless c then "\\u\x7b" ++ hexDigits c.toNat ++ "\x7d"
  else c.toString

def quoted (s : String) : String :=
  "\"" ++ String.join (s.toList.map quotedChar) ++ "\""

/-- A path between double quotes.  Single quotes are marked in it too. -/
def quotedPath (s : String) : String :=
  let inner := s.toList.map fun c => if c = '\'' then "\\'" else quotedChar c
  "\"" ++ String.join inner ++ "\""

def renderOption (render : String → String) : Option String → String
  | some s => "Some(" ++ render s ++ ")"
  | none => "None"

end Annals.Text
