import Annals.Json.Basic
import Annals.Number.Bounded
import Annals.Text.Digits

/-!
A `Reader` consumes a document from the front and knows the line and the column
that it has reached, so that a fault can name its place.  The pieces below read
one token each; `value` reads a whole value and `skipValue` passes over one.  A
fault that concerns the content rather than the form has no place at first and
receives that of the end of the value around it, by `placed`.
-/

namespace Annals.Json

open Annals.Number Annals.Text

/-- What is wrong with a document. -/
inductive Problem where
  | endInList
  | endInObject
  | endInString
  | endInValue
  | expectedColon
  | expectedCommaInList
  | expectedCommaInObject
  | expectedIdent
  | expectedValue
  | invalidEscape
  | invalidNumber
  | numberOutOfRange
  | controlCharacter
  | keyNotString
  | loneSurrogate
  | trailingComma
  | trailingCharacters
  | unfinishedHexEscape
  | tooDeep
  /-- The form is right but the content does not fit. -/
  | content (message : String)
  deriving DecidableEq, Repr

def Problem.message : Problem → String
  | endInList => "EOF while parsing a list"
  | endInObject => "EOF while parsing an object"
  | endInString => "EOF while parsing a string"
  | endInValue => "EOF while parsing a value"
  | expectedColon => "expected \x60:\x60"
  | expectedCommaInList => "expected \x60,\x60 or \x60]\x60"
  | expectedCommaInObject => "expected \x60,\x60 or \x60\x7d\x60"
  | expectedIdent => "expected ident"
  | expectedValue => "expected value"
  | invalidEscape => "invalid escape"
  | invalidNumber => "invalid number"
  | numberOutOfRange => "number out of range"
  | controlCharacter =>
    "control character (\\u0000-\\u001F) found while parsing a string"
  | keyNotString => "key must be a string"
  | loneSurrogate => "lone leading surrogate in hex escape"
  | trailingComma => "trailing comma"
  | trailingCharacters => "trailing characters"
  | unfinishedHexEscape => "unexpected end of hex escape"
  | tooDeep => "recursion limit exceeded"
  | content message => message

/-- A place in a document: the line, counted from one, and the bytes read of
it. -/
structure Place where
  line : Nat
  column : Nat
  deriving DecidableEq, Repr

/-- A problem and, once it is known, its place. -/
structure Fault where
  problem : Problem
  place : Option Place := none
  deriving DecidableEq, Repr

def Fault.message (f : Fault) : String :=
  match f.place with
  | some p =>
    f.problem.message ++ " at line " ++ toString p.line ++ " column " ++
      toString p.column
  | none => f.problem.message

/-- What is left of a document, and the place of its front. -/
structure Source where
  rest : List Char
  place : Place := ⟨1, 0⟩

def Place.after (p : Place) (c : Char) : Place :=
  if c = '\n' then ⟨p.line + 1, 0⟩ else ⟨p.line, p.column + c.utf8Size⟩

def Place.into (p : Place) (c : Char) : Place :=
  if c = '\n' then ⟨p.line + 1, 0⟩ else ⟨p.line, p.column + 1⟩

def Place.bytesOn (place : Place) (count : Nat) : List Char → Place
  | [] => place
  | c :: rest =>
    if count < c.utf8Size then ⟨place.line, place.column + count⟩
    else (place.after c).bytesOn (count - c.utf8Size) rest

/-- A reader takes something off the front of a document; a fault leaves the
document where it is. -/
abbrev Reader (α : Type) := ExceptT Fault (StateM Source) α

namespace Reader

def peek : Reader (Option Char) := return (← get).rest.head?

def advance : Reader Unit :=
  modify fun s => match s.rest with
    | [] => s
    | c :: rest => { rest, place := s.place.after c }

def fail {α : Type} (problem : Problem) : Reader α := do
  throw { problem, place := some (← get).place }

def failAhead {α : Type} (problem : Problem) : Reader α := do
  let s ← get
  let place := match s.rest with
    | [] => s.place
    | c :: _ => s.place.into c
  throw { problem, place := some place }

def take (condition : Char → Bool) (atEnd otherwise : Problem) :
    Reader Char := do
  match ← peek with
  | none => fail atEnd
  | some c =>
    unless condition c do failAhead otherwise
    advance
    return c

def reject {α : Type} (message : String) : Reader α :=
  throw { problem := .content message }

/-- Gives a fault that has no place the one that has been reached when it
arrives here. -/
def placed {α : Type} (reader : Reader α) : Reader α :=
  tryCatch reader fun fault => do
    match fault.place with
    | some _ => throw fault
    | none => throw { fault with place := some (← get).place }

def isSpace (c : Char) : Bool := c == ' ' || c == '\n' || c == '\t' || c == '\r'

def skipSpaceFrom : List Char → Place → Source
  | [], place => ⟨[], place⟩
  | c :: rest, place =>
    if isSpace c then skipSpaceFrom rest (place.after c) else ⟨c :: rest, place⟩

def peekToken : Reader (Option Char) := do
  modify fun s => skipSpaceFrom s.rest s.place
  peek

def word : List Char → Reader Unit
  | [] => pure ()
  | c :: rest => do
    let _ ← take (· == c) .endInValue .expectedIdent
    word rest

def tenToThe (n : Nat) : Binary64 := Binary64.ofDecimal false 1 n

/-- The double made of a significand and a power of ten, by one multiplication
or division of doubles, and by divisions in steps of three hundred and eight
places when the power is very small. -/
def realOfParts (positive : Bool) (significand : Nat) (exponent : Int) :
    Reader Binary64 := do
  let start := Binary64.ofInt significand
  let value ← go start exponent (exponent.natAbs / 308 + 1)
  return if positive then value else value.neg
where
  go (x : Binary64) (exponent : Int) : Nat → Reader Binary64
    | 0 => pure x
    | steps + 1 => do
      if exponent.natAbs ≤ 308 then
        if 0 ≤ exponent then
          let y := x.mul (tenToThe exponent.toNat)
          if y.isFinite then return y else fail .numberOutOfRange
        else
          return x.div (tenToThe exponent.natAbs)
      else if x.isZero then
        return x
      else if 0 ≤ exponent then
        fail .numberOutOfRange
      else
        go (x.div (tenToThe 308)) (exponent + 308) steps

def maxSignificand : Nat := UInt64.size - 1

def peekDigit : Reader (Option Nat) := do
  match ← peek with
  | some c => return if c.isDigit then some (digitValue c) else none
  | none => return none

def skipDigits : Reader Unit :=
  modify fun s =>
    let digits := s.rest.takeWhile Char.isDigit
    { rest := s.rest.drop digits.length
      place := ⟨s.place.line, s.place.column + digits.length⟩ }

/-- Takes digits into a significand as long as it stays exact.  The answer is
the significand, the number of digits taken, and whether a digit was left that
did not fit. -/
def takeDigits (significand : Nat) : Reader (Nat × Nat × Bool) := do
  let s ← get
  let (value, count, full) := go significand 0 s.rest
  set { rest := s.rest.drop count,
        place := ⟨s.place.line, s.place.column + count⟩ : Source }
  return (value, count, full)
where
  go (value count : Nat) : List Char → Nat × Nat × Bool
    | [] => (value, count, false)
    | c :: rest =>
      if c.isDigit then
        if maxSignificand < value * 10 + digitValue c then (value, count, true)
        else go (value * 10 + digitValue c) (count + 1) rest
      else (value, count, false)

def maxExponent : Nat := 2147483647

/-- Takes the digits of an exponent, or none if it grows too large; the digit
that is too much has been taken then. -/
def takeExponent (first : Nat) : Reader (Option Nat) := do
  let s ← get
  let (value, count) := go first 0 s.rest
  set { rest := s.rest.drop count,
        place := ⟨s.place.line, s.place.column + count⟩ : Source }
  return value
where
  go (value count : Nat) : List Char → Option Nat × Nat
    | [] => (some value, count)
    | c :: rest =>
      if c.isDigit then
        if maxExponent < value * 10 + digitValue c then (none, count + 1)
        else go (value * 10 + digitValue c) (count + 1) rest
      else (some value, count)

def exponentPart (positive : Bool) (significand : Nat) (startingAt : Int) :
    Reader Binary64 := do
  advance
  let positiveExponent ← match ← peek with
    | some '+' => do advance; pure true
    | some '-' => do advance; pure false
    | _ => pure true
  let c ← take Char.isDigit .endInValue .invalidNumber
  match ← takeExponent (digitValue c) with
  | some exponent =>
    let exponent : Int :=
      if positiveExponent then startingAt + exponent else startingAt - exponent
    realOfParts positive significand exponent
  | none =>
    if significand ≠ 0 ∧ positiveExponent then fail .numberOutOfRange
    skipDigits
    return Binary64.zero (!positive)

/-- What may follow the digits of a number that is not an integer. -/
def afterDigits (positive : Bool) (significand : Nat) (exponent : Int) :
    Reader Binary64 := do
  match ← peek with
  | some 'e' | some 'E' => exponentPart positive significand exponent
  | _ => realOfParts positive significand exponent

def fractionPart (positive : Bool) (significand : Nat) (startingAt : Int) :
    Reader Binary64 := do
  advance
  let (significand, count, full) ← takeDigits significand
  if full then
    skipDigits
    afterDigits positive significand (startingAt - count)
  else if count = 0 then
    match ← peek with
    | some _ => failAhead .invalidNumber
    | none => failAhead .endInValue
  else
    afterDigits positive significand (startingAt - count)

/-- A number whose sign has been taken: an integer, or a double if it has a
fraction, an exponent or more digits than a 64-bit integer holds.  Minus zero is
a double. -/
def number (positive : Bool) : Reader Json := do
  let c ← take Char.isDigit .endInValue .invalidNumber
  if c = '0' ∧ (← peekDigit).isSome then failAhead .invalidNumber
  let (significand, _, full) ← takeDigits (digitValue c)
  if full then
    let before := (← get).rest.length
    skipDigits
    let exponent : Int := (before - (← get).rest.length : Nat)
    match ← peek with
    | some '.' => return .real (← fractionPart positive significand exponent)
    | _ => return .real (← afterDigits positive significand exponent)
  else
    match ← peek with
    | some '.' => return .real (← fractionPart positive significand 0)
    | some 'e' | some 'E' =>
      return .real (← exponentPart positive significand 0)
    | _ =>
      if positive then return .integer significand
      else if significand = 0 ∨ (int64? (-significand)).isNone then
        return .real (Binary64.ofInt significand).neg
      else return .integer (-significand)

def hexEscape : Reader Nat := do
  let s ← get
  let digits := s.rest.take 4
  let bytes : Nat := digits.foldl (· + ·.utf8Size) 0
  if bytes < 4 then
    set (digits.foldl
      (fun (s : Source) c => ⟨s.rest.drop 1, s.place.after c⟩) s)
    fail .endInString
  else
    unless digits.length = 4 && digits.all isHexDigit do
      throw { problem := .invalidEscape,
              place := some (s.place.bytesOn 4 s.rest) }
    set
      { rest := s.rest.drop 4,
        place := ⟨s.place.line, s.place.column + 4⟩ : Source }
    return valueOf 16 digits

def pairMark (mark : Char) : Reader Unit :=
  discard (take (· == mark) .endInString .unfinishedHexEscape)

/-- What may follow the backslash of an escape. -/
def isEscapeMark (c : Char) : Bool :=
  c ∈ ['"', '\\', '/', 'b', 'f', 'n', 'r', 't', 'u']

/-- The character that an escape stands for; its backslash has been taken.
Where the text is only passed over, halves of pairs are not looked at. -/
def escape (passing : Bool) : Reader Char := do
  match ← take isEscapeMark .endInString .invalidEscape with
  | 'b' => return '\x08'
  | 'f' => return '\x0c'
  | 'n' => return '\n'
  | 'r' => return '\r'
  | 't' => return '\t'
  | 'u' =>
    let n ← hexEscape
    if passing then return ' '
    if 0xDC00 ≤ n ∧ n ≤ 0xDFFF then fail .loneSurrogate
    if n < 0xD800 ∨ 0xDBFF < n then return Char.ofNat n
    pairMark '\\'
    pairMark 'u'
    let m ← hexEscape
    unless 0xDC00 ≤ m ∧ m ≤ 0xDFFF do fail .loneSurrogate
    return Char.ofNat ((n - 0xD800) * 0x400 + (m - 0xDC00) + 0x10000)
  | c => return c

/-- The rest of a string whose opening quote has been taken. -/
def stringBody (passing : Bool) : Reader String := do
  go [] ((← get).rest.length + 1)
where
  go (acc : List Char) : Nat → Reader String
    | 0 => fail .endInString
    | fuel + 1 => do
      match ← peek with
      | none => fail .endInString
      | some '"' => do
        advance
        return String.ofList acc.reverse
      | some '\\' => do
        advance
        go ((← escape passing) :: acc) fuel
      | some c => do
        if passing && c.toNat < 0x20 then fail .controlCharacter
        advance
        if c.toNat < 0x20 then fail .controlCharacter
        go (c :: acc) fuel

/-- Moves to the next item of a list whose opening bracket has been taken, or
finds that there is none; the closing bracket is not taken. -/
def nextItem (first : Bool) : Reader Bool := do
  match ← peekToken with
  | none => failAhead .endInList
  | some ']' => return false
  | some c =>
    if first then return true
    if c = ',' then
      advance
      match ← peekToken with
      | some ']' => failAhead .trailingComma
      | some _ => return true
      | none => failAhead .endInValue
    else failAhead .expectedCommaInList

def endList : Reader Unit := do
  match ← peekToken with
  | some ']' => advance
  | some ',' =>
    advance
    match ← peekToken with
    | some ']' => failAhead .trailingComma
    | _ => failAhead .trailingCharacters
  | some _ => failAhead .trailingCharacters
  | none => failAhead .endInList

/-- The name of the next field of an object whose opening brace has been taken,
and the colon after it; or none, and the closing brace is not taken. -/
def nextKey (first : Bool) : Reader (Option String) := do
  let ahead ← match ← peekToken with
    | some '}' => return none
    | none => failAhead .endInObject
    | some c =>
      if first then pure (some c)
      else if c = ',' then do
        advance
        peekToken
      else failAhead .expectedCommaInObject
  match ahead with
  | some '"' =>
    advance
    return some (← stringBody false)
  | some '}' => failAhead .trailingComma
  | some _ => failAhead .keyNotString
  | none => failAhead .endInValue

def colon : Reader Unit := do
  match ← peekToken with
  | some ':' => advance
  | some _ => failAhead .expectedColon
  | none => failAhead .endInObject

def endObject : Reader Unit := do
  match ← peekToken with
  | some '}' => advance
  | some ',' => failAhead .trailingComma
  | some _ => failAhead .trailingCharacters
  | none => failAhead .endInObject

/-- Runs the reader of what is inside brackets and then the one of the closing
bracket, also when the first has failed.  The first fault wins. -/
def enclosed {α : Type} (inside : Reader α) (close : Reader Unit) :
    Reader α := do
  let result ← (tryCatch (Except.ok <$> inside) fun fault =>
    pure (.error fault) :
      Reader (Except Fault α))
  match result with
  | .ok a => do
    close
    return a
  | .error fault => do
    tryCatch close fun _ => pure ()
    throw fault

/-- A value that is neither a list nor an object, if one stands ahead. -/
def scalar (ahead : Char) : Reader Json := do
  match ahead with
  | 'n' => advance; word ['u', 'l', 'l']; return .null
  | 't' => advance; word ['r', 'u', 'e']; return .bool true
  | 'f' => advance; word ['a', 'l', 's', 'e']; return .bool false
  | '-' => advance; number false
  | '"' => advance; return .string (← stringBody false)
  | c => if c.isDigit then number true else failAhead .expectedValue

def items {α : Type} (item : Reader α) (first : Bool) : Nat → Reader (List α)
  | 0 => fail .endInList
  | fuel + 1 => do
    if ← nextItem first then
      let head ← item
      return head :: (← items item false fuel)
    else return []

def fields (item : Reader Json) (first : Bool) :
    Nat → Reader (List (String × Json))
  | 0 => fail .endInObject
  | fuel + 1 => do
    match ← nextKey first with
    | some name =>
      colon
      let value ← item
      return (name, value) :: (← fields item false fuel)
    | none => return []

/-- More than the number of items or fields that what is left of the document
can hold. -/
def room : Reader Nat := return (← get).rest.length + 1

/-- Reads any value, to a depth of `depth` lists and objects. -/
def value (depth : Nat) : Reader Json := do
  match depth, ← peekToken with
  | _, none => failAhead .endInValue
  | 0, some '[' => failAhead .tooDeep
  | 0, some '{' => failAhead .tooDeep
  | depth + 1, some '[' =>
    advance
    return .array (← enclosed (items (value depth) true (← room)) endList)
  | depth + 1, some '{' =>
    advance
    return .ofFields (← enclosed (fields (value depth) true (← room)) endObject)
  | _, some c => scalar c

/-- Passes over a number whose sign has been taken. -/
def skipNumber : Reader Unit := do
  let c ← take Char.isDigit .invalidNumber .invalidNumber
  if c = '0' then
    if (← peekDigit).isSome then failAhead .invalidNumber
  else skipDigits
  match ← peek with
  | some '.' =>
    advance
    if (← peekDigit).isNone then failAhead .invalidNumber
    skipDigits
    match ← peek with
    | some 'e' | some 'E' => skipExponent
    | _ => pure ()
  | some 'e' | some 'E' => skipExponent
  | _ => pure ()
where
  skipExponent : Reader Unit := do
    advance
    match ← peek with
    | some '+' | some '-' => advance
    | _ => pure ()
    let _ ← take Char.isDigit .invalidNumber .invalidNumber
    skipDigits

/-- The kind of bracket that is open. -/
inductive Bracket where
  | list
  | object
  deriving DecidableEq

def skipKey : Reader Unit := do
  match ← peekToken with
  | some '"' => advance
  | some _ => failAhead .keyNotString
  | none => failAhead .endInObject
  let _ ← stringBody true
  colon

/-- Closes every bracket that ends here; the answer is the brackets still open,
of which the innermost expects another item.  `begun` says whether the innermost
one has had an item. -/
def closeBrackets (begun : Bool) : List Bracket → Reader (List Bracket)
  | [] => return []
  | bracket :: outer => do
    match bracket, ← peekToken with
    | .list, some ']' => advance; closeBrackets true outer
    | .object, some '}' => advance; closeBrackets true outer
    | .list, none => failAhead .endInList
    | .object, none => failAhead .endInObject
    | .list, some c =>
      if !begun then return bracket :: outer
      if c = ',' then advance; return bracket :: outer
      failAhead .expectedCommaInList
    | .object, some c =>
      if !begun then return bracket :: outer
      if c = ',' then advance; return bracket :: outer
      failAhead .expectedCommaInObject

def skipValue : Reader Unit := do
  go [] ((← get).rest.length + 1)
where
  go (open_ : List Bracket) : Nat → Reader Unit
    | 0 => fail .endInValue
    | fuel + 1 => do
      let (begun, brackets) ← match ← peekToken with
        | none => failAhead .endInValue
        | some c => match c with
          | '[' => do advance; pure (false, Bracket.list :: open_)
          | '{' => do advance; pure (false, Bracket.object :: open_)
          | 'n' => do advance; word ['u', 'l', 'l']; pure (true, open_)
          | 't' => do advance; word ['r', 'u', 'e']; pure (true, open_)
          | 'f' => do advance; word ['a', 'l', 's', 'e']; pure (true, open_)
          | '-' => do advance; skipNumber; pure (true, open_)
          | '"' => do advance; let _ ← stringBody true; pure (true, open_)
          | c => do
            if c.isDigit then skipNumber else failAhead .expectedValue
            pure (true, open_)
      match ← closeBrackets begun brackets with
      | [] => return ()
      | .list :: outer => go (.list :: outer) fuel
      | .object :: outer => do
        skipKey
        go (.object :: outer) fuel

def document {α : Type} (reader : Reader α) (text : String) : Except Fault α :=
  (whole.run { rest := text.toList }).1
where
  whole : Reader α := do
    let a ← reader
    match ← peekToken with
    | some _ => failAhead .trailingCharacters
    | none => return a

end Reader

def maxDepth : Nat := 127

def parse (text : String) : Except Fault Json :=
  Reader.document (Reader.value maxDepth) text

end Annals.Json
