import Annals.Number.Bounded
import Annals.Text.Digits
import Annals.Time.Calendar
import Annals.Toml.Basic

namespace Annals.Toml

open Annals.Number Annals.Text Annals.Time

abbrev Reader := StateT (List Char) Option

namespace Reader

def peek : Reader (Option Char) := return (← get).head?

def one (kind : Char → Bool) : Reader Char := do
  match ← get with
  | c :: rest => if kind c then do set rest; return c else failure
  | [] => failure

def many (kind : Char → Bool) : Reader (List Char) := do
  let text ← get
  set (text.dropWhile kind)
  return text.takeWhile kind

def manyOrOne (kind : Char → Bool) : Reader (List Char) := do
  return (← one kind) :: (← many kind)

def exactly (count : Nat) (kind : Char → Bool) : Reader (List Char) := do
  let taken := (← get).take count
  if taken.length = count && taken.all kind then
    modify (·.drop count)
    return taken
  else failure

def word (s : String) : Reader Unit := do
  if s.toList.isPrefixOf (← get) then modify (·.drop s.length) else failure

def comes (s : String) : Reader Bool := return s.toList.isPrefixOf (← get)

def optional {α : Type} (reader : Reader α) : Reader (Option α) :=
  (some <$> reader) <|> pure none

def room : Reader Nat := return (← get).length + 1

/-- Reads something again and again until it is no longer there. -/
def repeated {α : Type} (reader : Reader α) : Nat → Reader (List α)
  | 0 => pure []
  | fuel + 1 => do
    match ← optional reader with
    | none => return []
    | some a => return a :: (← repeated reader fuel)

def separated {α : Type} (reader : Reader α) (mark : Char) :
    Reader (List α) := do
  let first ← reader
  let rest ← repeated (do let _ ← one (· == mark); reader) (← room)
  return first :: rest

def isBlank (c : Char) : Bool := c == ' ' || c == '\t'

/-- Characters beyond ASCII may stand in every text and comment. -/
def isWide (c : Char) : Bool := 0x80 ≤ c.toNat

def isPlain (c : Char) : Bool := 0x20 ≤ c.toNat && c.toNat ≤ 0x7E

/-- The characters that may stand in a text without escapes. -/
def isTextual (c : Char) : Bool := c == '\t' || isPlain c || isWide c

def blanks : Reader Unit := discard (many isBlank)

def newline : Reader Unit := word "\n" <|> word "\r\n"

def comment : Reader Unit := do
  let _ ← one (· == '#')
  let _ ← many isTextual

def endOfText : Reader Unit := do
  unless (← get).isEmpty do failure

/-- What may stand behind an entry or a header. -/
def restOfLine : Reader Unit := do
  blanks
  let _ ← optional comment
  newline <|> endOfText

def gap : Reader Unit := do
  let _ ← repeated (discard (manyOrOne isBlank) <|> newline <|> comment)
    (← room)

def codePoint (count : Nat) : Reader Char := do
  let n := valueOf 16 (← exactly count isHexDigit)
  if n < 0xD800 ∨ (0xDFFF < n ∧ n < 0x110000) then
    return Char.ofNat n
  else
    failure

def escape : Reader Char := do
  let _ ← one (· == '\\')
  match ← one fun _ => true with
  | 'b' => return '\x08'
  | 'f' => return '\x0c'
  | 'n' => return '\n'
  | 'r' => return '\r'
  | 't' => return '\t'
  | 'u' => codePoint 4
  | 'U' => codePoint 8
  | '\\' => return '\\'
  | '"' => return '"'
  | _ => failure

def isBasic (c : Char) : Bool := isTextual c && c != '"' && c != '\\'

def isLiteral (c : Char) : Bool := isTextual c && c != '\''

def basicString : Reader String := do
  let _ ← one (· == '"')
  let chars ← repeated (one isBasic <|> escape) (← room)
  let _ ← one (· == '"')
  return String.ofList chars

def literalString : Reader String := do
  let _ ← one (· == '\'')
  let chars ← many isLiteral
  let _ ← one (· == '\'')
  return String.ofList chars

def joinedLines : Reader Unit := do
  let _ ← one (· == '\\')
  blanks
  newline
  let _ ← repeated (discard (manyOrOne isBlank) <|> newline) (← room)

/-- Up to two quotes that do not end the text. -/
def innerQuotes (quote : Char) : Reader (List Char) := do
  let quotes := (← get).takeWhile (· == quote)
  if 0 < quotes.length ∧ quotes.length < 3 then
    modify (·.drop quotes.length)
    return quotes
  else failure

/-- The end of a text of several lines: three quotes, and up to two more that
belong to the text. -/
def closingQuotes (quote : Char) : Reader (List Char) := do
  let quotes := (← get).takeWhile (· == quote)
  if 3 ≤ quotes.length then
    let count := min quotes.length 5
    modify (·.drop count)
    return List.replicate (count - 3) quote
  else failure

/-- A text of several lines between three quotes of a kind, made of the given
pieces.  A line end right after the opening does not belong to it. -/
def longString (quote : Char) (piece : Reader (List Char)) : Reader String := do
  word (String.ofList [quote, quote, quote])
  let _ ← optional newline
  let pieces ← repeated (piece <|> innerQuotes quote) (← room)
  let last ← closingQuotes quote
  return String.ofList (pieces.flatten ++ last)

def lineEnd : Reader (List Char) := do newline; return ['\n']

def longBasicString : Reader String :=
  longString '"'
    ((do return [← one isBasic]) <|> (do joinedLines; return []) <|>
      (do return [← escape]) <|> lineEnd)

def longLiteralString : Reader String :=
  longString '\'' ((do return [← one isLiteral]) <|> lineEnd)

def string : Reader String :=
  longBasicString <|> basicString <|> longLiteralString <|> literalString

/-- Digits of a kind, where single underscores may stand between two of them. -/
def digits (kind : Char → Bool) : Reader (List Char) := do
  let first ← one kind
  let rest ← repeated (do let _ ← optional (one (· == '_')); one kind) (← room)
  return first :: rest

def sign : Reader Bool := do
  return (← optional (one fun c => c == '+' || c == '-')) == some '-'

def leadingDigits : Reader (List Char) := do
  match ← peek with
  | some '0' => return [← one Char.isDigit]
  | _ => digits Char.isDigit

def checked (n : Int) : Reader Item :=
  if (int64? n).isSome then return .integer n else failure

def based (mark : String) (base : Nat) (kind : Char → Bool) : Reader Item := do
  word mark
  checked (valueOf base (← digits kind))

def integer : Reader Item := do
  if ← comes "0x" then
    based "0x" 16 isHexDigit
  else if ← comes "0o" then based "0o" 8 fun c => '0' ≤ c && c ≤ '7'
  else if ← comes "0b" then based "0b" 2 fun c => c == '0' || c == '1'
  else
    let negative ← sign
    let n := valueOf 10 (← leadingDigits)
    checked (if negative then -Int.ofNat n else Int.ofNat n)

def exponent : Reader Int := do
  let _ ← one fun c => c == 'e' || c == 'E'
  let negative ← sign
  let n := valueOf 10 (← digits Char.isDigit)
  return if negative then -Int.ofNat n else Int.ofNat n

/-- A number with a fraction, an exponent or both.  One above all doubles is
refused; one below all of them becomes infinite. -/
def decimal : Reader Item := do
  let negative ← sign
  let whole ← leadingDigits
  let fraction ← optional (do let _ ← one (· == '.'); digits Char.isDigit)
  let power ← optional exponent
  if fraction.isNone && power.isNone then failure
  let places := fraction.getD []
  let x := Binary64.ofDecimal negative (valueOf 10 (whole ++ places))
    (power.getD 0 - places.length)
  if x = .infinite false then failure
  return .real x

def namedReal : Reader Item := do
  let negative ← sign
  (do word "inf"; return .real (.infinite negative)) <|>
    (do word "nan"; return .real .nan)

def field (width low high : Nat) : Reader Nat := do
  let n := valueOf 10 (← exactly width Char.isDigit)
  if low ≤ n ∧ n ≤ high then return n else failure

def date : Reader Unit := do
  let year ← field 4 0 9999
  word "-"
  let month ← field 2 1 12
  word "-"
  let _ ← field 2 1 (daysInMonth year month)

def timeOfDay : Reader Unit := do
  let _ ← field 2 0 23
  word ":"
  let _ ← field 2 0 59
  word ":"
  let _ ← field 2 0 60
  let _ ← optional (do let _ ← one (· == '.'); manyOrOne Char.isDigit)

def offset : Reader Unit :=
  discard (one fun c => c == 'Z' || c == 'z') <|> do
    let _ ← one fun c => c == '+' || c == '-'
    let _ ← field 2 0 23
    word ":"
    let _ ← field 2 0 59

def datetime : Reader Item := do
  (do
    date
    let _ ← optional do
      let _ ← one fun c => c == 'T' || c == 't' || c == ' '
      timeOfDay
      optional offset) <|> timeOfDay
  return .datetime

def bareKey : Reader String := do
  return String.ofList (← manyOrOne fun c =>
    c.isAlphanum || c == '-' || c == '_')

def name : Reader String := do
  blanks
  let s ← basicString <|> literalString <|> bareKey
  blanks
  return s

def maxDepth : Nat := 79

def key : Reader (List String × String) := do
  let names ← separated name '.'
  if maxDepth < names.length then failure
  match names.getLast? with
  | some last => return (names.dropLast, last)
  | none => failure

/-- A key with its value, read by `value`. -/
def entry (value : Reader Item) : Reader (List String × String × Item) := do
  let (path, last) ← key
  let _ ← one (· == '=')
  blanks
  let item ← value
  return (path, last, item)

def arrayItems (value : Reader Item) : Reader Item := do
  let item := do
    gap
    let item ← value
    gap
    return item
  let items ← optional (separated item ',')
  if items.isSome then let _ ← optional (one (· == ','))
  gap
  let _ ← one (· == ']')
  return .array (items.getD [])

def tableEntries (value : Reader Item) : Reader Item := do
  let entries ← optional
    (separated (do let e ← entry value; blanks; return e) ',')
  blanks
  let _ ← one (· == '\x7d')
  match (Table.empty .header).insertAll (entries.getD []) with
  | some t => return .table (.mk .inline t.entries)
  | none => failure

def value : (depth : Nat) → Reader Item
  | 0 => scalar
  | depth + 1 => do
    match ← peek with
    | some '[' => do
      let _ ← one (· == '[')
      arrayItems (value depth)
    | some '\x7b' => do
      let _ ← one (· == '\x7b')
      tableEntries (value depth)
    | _ => scalar
where
  scalar : Reader Item :=
    (.string <$> string) <|> datetime <|> decimal <|> namedReal <|> integer <|>
      (do word "true"; return .boolean true) <|>
        (do word "false"; return .boolean false)

/-- Lines without content, and the blanks in front of one that has some. -/
def emptyLines : Reader Unit := do
  let _ ← repeated (do blanks; (do comment; newline <|> endOfText) <|> newline)
    (← room)
  blanks

def entryLine : Reader (List String × String × Item) := do
  let e ← entry (value maxDepth)
  restOfLine
  emptyLines
  return e

def header : Reader Header := do
  let h ← if ← comes "[[" then do
      word "[["
      let (path, last) ← key
      word "]]"
      pure (Header.another path last)
    else do
      word "["
      let (path, last) ← key
      word "]"
      pure (Header.single path last)
  restOfLine
  emptyLines
  return h

def «section» : Reader Section := do
  let header ← header
  let entries ← repeated entryLine (← room)
  return { header, entries }

def document : Reader Document := do
  let _ ← optional (one (· == '\ufeff'))
  emptyLines
  let start ← repeated entryLine (← room)
  let sections ← repeated «section» (← room)
  endOfText
  return { start, sections }

end Reader

/-- The table that a text describes; none if it describes no table. -/
def Table.ofText (text : String) : Option Table := do
  let (document, _) ← Reader.document.run text.toList
  document.toTable

end Annals.Toml
