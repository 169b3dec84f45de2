import Annals.Json.Reader

/-!
A `Codec` ties a type to its JSON form: how a value is written, how it is read
from a JSON value, and how it is read straight from a document, where faults
have places.  Records are described field by field, and `Codec.record` derives
all three from the description: fields may come in any order, unknown ones are
passed over, and a record may also be given as the list of its fields.
-/

namespace Annals.Json

open Annals.Number

/-- How values of a type are written and read. -/
structure Codec (α : Type) where
  encode : α → Json
  /-- Reads a JSON value, or says in a message why it does not fit. -/
  decode : Json → Except String α
  read : Reader α

namespace Codec

def invalidType (json : Json) (expected : String) : String :=
  "invalid type: " ++ json.describe ++ ", expected " ++ expected

def invalidLength (count : Nat) (expected : String) : String :=
  "invalid length " ++ toString count ++ ", expected " ++ expected

def ofMessage {α : Type} : Except String α → Reader α
  | .ok a => pure a
  | .error message => Reader.reject message

/-- Refuses the value ahead because it has the wrong type; only as much of it is
read as the message shows. -/
def rejectAhead {α : Type} (expected : String) : Reader α := do
  match ← Reader.peek with
  | some '[' => Reader.reject (invalidType (.array []) expected)
  | some '{' => Reader.reject (invalidType (.object []) expected)
  | some c => do
    let json ← Reader.scalar c
    Reader.reject (invalidType json expected)
  | none => Reader.failAhead .expectedValue

/-- Reads the value ahead with `reader` if its first character is right, and
otherwise refuses it. -/
def readIf {α : Type} (starts : Char → Bool) (expected : String)
    (reader : Char → Reader α) :
    Reader α := do
  match ← Reader.peekToken with
  | none => Reader.failAhead .endInValue
  | some c =>
    Reader.placed (if starts c then reader c else rejectAhead expected)

def iso {α β : Type} (codec : Codec α) (parse : α → β)
    (write : β → α) : Codec β where
  encode b := codec.encode (write b)
  decode json := (codec.decode json).map parse
  read := parse <$> codec.read

def refine {α β : Type} (codec : Codec α) (parse : α → Except String β)
    (write : β → α) : Codec β where
  encode b := codec.encode (write b)
  decode json := codec.decode json >>= parse
  read := do ofMessage (parse (← codec.read))

def toInt64 (json : Json) : Except String Int64 :=
  match json with
  | .integer n =>
    match int64? n with
    | some i => .ok i
    | none => .error ("invalid value: " ++ json.describe ++ ", expected i64")
  | _ => .error (invalidType json "i64")

def int64 : Codec Int64 where
  encode n := .integer n.toInt
  decode := toInt64
  read :=
    readIf (fun c => c == '-' || c.isDigit) "i64" fun c => do
      if c = '-' then
        Reader.advance
        ofMessage (toInt64 (← Reader.number false))
      else
        ofMessage (toInt64 (← Reader.number true))

def text {α : Type} (expected : String) (write : α → String)
    (parse : String → Except String α) :
    Codec α where
  encode a := .string (write a)
  decode
    | .string s => parse s
    | json => .error (invalidType json expected)
  read :=
    readIf (· == '"') expected fun _ => do
      Reader.advance
      ofMessage (parse (← Reader.stringBody false))

def string : Codec String := text "a string" id .ok

def option {α : Type} (codec : Codec α) : Codec (Option α) where
  encode
    | some a => codec.encode a
    | none => .null
  decode
    | .null => .ok none
    | json => some <$> codec.decode json
  read := do
    match ← Reader.peekToken with
    | some 'n' =>
      Reader.advance
      Reader.word ['u', 'l', 'l']
      return none
    | _ => some <$> codec.read

def list {α : Type} (codec : Codec α) : Codec (List α) where
  encode l := .array (l.map codec.encode)
  decode
    | .array items => items.mapM codec.decode
    | json => .error (invalidType json "a sequence")
  read :=
    readIf (· == '[') "a sequence" fun _ => do
      Reader.advance
      Reader.enclosed (Reader.items codec.read true (← Reader.room))
        Reader.endList

end Codec

structure Field where
  name : String
  Carrier : Type
  codec : Codec Carrier
  /-- The value of the field in an object that does not have it. -/
  absent? : Option Carrier := none
  cutOff? : Option Carrier := none

namespace Field

def required (name : String) {α : Type} (codec : Codec α) : Field :=
  { name, Carrier := α, codec }

def optional (name : String) {α : Type} (codec : Codec α) : Field :=
  { name, Carrier := Option α, codec := codec.option, absent? := some none }

def defaulted (name : String) {α : Type} (codec : Codec α)
    (value : α) : Field :=
  { name, Carrier := α, codec, absent? := some value, cutOff? := some value }

end Field

def Values : List Field → Type
  | [] => Unit
  | f :: fs => f.Carrier × Values fs

def Found : List Field → Type
  | [] => Unit
  | f :: fs => Option f.Carrier × Found fs

namespace Codec

def nothing : (fs : List Field) → Found fs
  | [] => ()
  | _ :: fs => (none, nothing fs)

def missing (name : String) : String := "missing field \x60" ++ name ++ "\x60"

def duplicate (name : String) : String :=
  "duplicate field \x60" ++ name ++ "\x60"

/-- The record, if every field has been found or may be absent. -/
def complete : (fs : List Field) → Found fs → Except String (Values fs)
  | [], _ => .ok ()
  | f :: fs, (value?, rest) =>
    match value?, f.absent? with
    | some value, _ => (complete fs rest).map (value, ·)
    | none, some value => (complete fs rest).map (value, ·)
    | none, none => .error (missing f.name)

def takeField : (fs : List Field) → String → Json → Found fs →
    Except String (Found fs)
  | [], _, _, _ => .ok ()
  | f :: fs, name, json, (value?, rest) =>
    if f.name = name then (f.codec.decode json).map fun value => (some
      value, rest)
    else (takeField fs name json rest).map (value?, ·)

def takeFields (fs : List Field) (found : Found fs) :
    List (String × Json) → Except String (Found fs)
  | [] => .ok found
  | (name, json) :: rest => do
    takeFields fs (← takeField fs name json found) rest

/-- Takes the fields from a list; `index` counts those that came before. -/
def takeItems (expected : String) :
    (fs : List Field) → Nat → List Json → Except String (Values fs)
  | [], _, _ => .ok ()
  | f :: fs, index, item :: items => do
    let value ← f.codec.decode item
    (takeItems expected fs (index + 1) items).map (value, ·)
  | f :: fs, index, [] =>
    match f.cutOff? with
    | some value => (takeItems expected fs (index + 1) []).map (value, ·)
    | none => .error (invalidLength index expected)

/-- Reads the value of a field in a document, where it may have been read
before. -/
def readField : (fs : List Field) → String → Found fs → Reader (Found fs)
  | [], _, _ => do
    Reader.colon
    Reader.skipValue
  | f :: fs, name, (value?, rest) => do
    if f.name = name then
      if value?.isSome then Reader.reject (duplicate name)
      Reader.colon
      return (some (← f.codec.read), rest)
    else
      return (value?, ← readField fs name rest)

def readFields (fs : List Field) (found : Found fs) (first : Bool) :
    Nat → Reader (Found fs)
  | 0 => Reader.fail .endInObject
  | fuel + 1 => do
    match ← Reader.nextKey first with
    | some name => readFields fs (← readField fs name found) false fuel
    | none => return found

def readItems (expected : String) :
    (fs : List Field) → Nat → Bool → Reader (Values fs)
  | [], _, _ => pure ()
  | f :: fs, index, more => do
    let more ← if more then Reader.nextItem (index == 0) else pure false
    if more then
      let value ← f.codec.read
      return (value, ← readItems expected fs (index + 1) true)
    else
      match f.cutOff? with
      | some value => return (value, ← readItems expected fs (index + 1) false)
      | none => Reader.reject (invalidLength index expected)

def encodeFields : (fs : List Field) → Values fs → List (String × Json)
  | [], _ => []
  | f :: fs, (value, rest) =>
    (f.name, f.codec.encode value) :: encodeFields fs rest

def record (name : String) (fs : List Field) : Codec (Values fs) where
  encode values := .ofFields (encodeFields fs values)
  decode
    | .object fields => do complete fs (← takeFields fs (nothing fs) fields)
    | .array items => do
      let values ← takeItems whole fs 0 items
      if items.length ≤ fs.length then pure values
      else throw (invalidLength items.length "fewer elements in array")
    | json => .error (invalidType json struct)
  read :=
    readIf (fun c => c == '[' || c == '{') struct fun c => do
      Reader.advance
      if c = '[' then
        Reader.enclosed (readItems whole fs 0 true) Reader.endList
      else
        Reader.enclosed
          (do ofMessage (complete fs
            (← readFields fs (nothing fs) true (← Reader.room))))
          Reader.endObject
where
  struct := "struct " ++ name
  whole := "struct " ++ name ++ " with " ++ toString fs.length ++ " elements"

end Codec

end Annals.Json
