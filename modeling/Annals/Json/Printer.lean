import Annals.Json.Basic

namespace Annals.Json

open Annals.Number Annals.Text

/-- The letter or mark that stands for a character behind a backslash, if there
is one. -/
def shortEscape? (c : Char) : Option Char :=
  match c with
  | '"' => some '"'
  | '\\' => some '\\'
  | '\x08' => some 'b'
  | '\x0c' => some 'f'
  | '\n' => some 'n'
  | '\r' => some 'r'
  | '\t' => some 't'
  | _ => none

def escapeChar (c : Char) : String :=
  match shortEscape? c with
  | some mark => String.ofList ['\\', mark]
  | none =>
    if c.toNat < 0x20 then
      let digits := hexDigits c.toNat
      "\\u" ++ String.ofList (List.replicate (4 - digits.length) '0') ++ digits
    else c.toString

def renderString (s : String) : String :=
  "\"" ++ String.join (s.toList.map escapeChar) ++ "\""

mutual

def render : Json → String
  | null => "null"
  | bool b => toString b
  | integer n => toString n
  | real x => x.toCompact
  | string s => renderString s
  | array items => "[" ++ renderItems items ++ "]"
  | object fields => "\x7b" ++ renderFields fields ++ "\x7d"

def renderItems : List Json → String
  | [] => ""
  | [item] => item.render
  | item :: rest => item.render ++ "," ++ renderItems rest

def renderFields : List (String × Json) → String
  | [] => ""
  | [(name, value)] => renderString name ++ ":" ++ value.render
  | (name, value) :: rest =>
    renderString name ++ ":" ++ value.render ++ "," ++ renderFields rest

end

end Annals.Json
