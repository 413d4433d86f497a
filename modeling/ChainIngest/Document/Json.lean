import ChainIngest.Document.Value
import ChainIngest.Number.Numeral

/-!
Documents in JSON. Reading goes in two steps: the text is cut into tokens, and the tokens are put
together from left to right on a stack of unfinished lists and tables.
-/

namespace ChainIngest.Json

/-- Why a text is not JSON. -/
inductive ReadError where
  | unexpectedCharacter (c : Char)
  | unfinished
  | unexpectedToken
  | numberOutOfRange
  | tooDeep
  deriving DecidableEq, Repr

inductive Token where
  | openList
  | closeList
  | openTable
  | closeTable
  | comma
  | colon
  /-- A value that is neither a list nor a table. -/
  | atom (value : Document)

/-! ### Numbers

An integer is kept if it fits 64 bits. Any other number becomes a double: the digits that fit 64
bits, multiplied or divided by a power of ten; the digits after them only count. -/

/-- Bound of the digits that are kept. -/
def maxSignificand : Nat := UInt64.size - 1

/-- Bound of an exponent's digits. -/
def maxExponent : Nat := Nat.pow 2 31 - 1

/-- Digits read so far, and how many digits after them were left out. -/
structure Significand where
  digits : Nat
  skipped : Nat
  full : Bool

/-- Takes one more digit, or counts it once the digits are full. -/
def Significand.push (s : Significand) (digit : Nat) : Significand :=
  if s.full then { s with skipped := s.skipped + 1 }
  else if s.digits * 10 + digit ≤ maxSignificand then { s with digits := s.digits * 10 + digit }
  else { s with skipped := s.skipped + 1, full := true }

def readDigits (s : Significand) (cs : List Char) : Significand × List Char :=
  let (digits, rest) := cs.span Char.isDigit
  (digits.foldl (fun s c => s.push (c.toNat - '0'.toNat)) s, rest)

/-- The double `significand * 10 ^ exponent`, made by one multiplication or division where the
power of ten is a double, and by several where it is not. Too large a number is refused. -/
def scaleFloat : (fuel : Nat) → Float → Int → Option Float
  | 0, x, _ => some x
  | fuel + 1, x, exponent =>
    if 308 < exponent then if x == 0 then some x else none
    else if 0 ≤ exponent then
      let y := x * Float.ofScientific 1 false exponent.toNat
      if y.isInf then none else some y
    else if -308 ≤ exponent then some (x / Float.ofScientific 1 false (-exponent).toNat)
    else if x == 0 then some x
    else scaleFloat fuel (x / Float.ofScientific 1 false 308) (exponent + 308)

def float (negative : Bool) (significand : Nat) (exponent : Int) : Except ReadError Document :=
  -- A double reaches zero after three divisions by the greatest power of ten.
  match scaleFloat 8 (UInt64.ofNat significand).toFloat exponent with
  | some x => .ok (.float (if negative then -x else x))
  | none => .error .numberOutOfRange

/-- An exponent after its letter, added to `exponent`. -/
def readExponent (negative : Bool) (s : Significand) (exponent : Int) (cs : List Char) :
    Except ReadError (Document × List Char) := do
  let (down, cs) := match cs with
    | '+' :: rest => (false, rest)
    | '-' :: rest => (true, rest)
    | _ => (false, cs)
  let (digits, rest) := cs.span Char.isDigit
  if digits.isEmpty then throw .unfinished
  let size := digits.foldl (fun n c => n * 10 + (c.toNat - '0'.toNat)) 0
  if maxExponent < size then
    if s.digits ≠ 0 ∧ !down then throw .numberOutOfRange
    return (.float (if negative then -0.0 else 0.0), rest)
  return (← float negative s.digits (if down then exponent - size else exponent + size), rest)

/-- What follows the integer part of a number. -/
def finishNumber (negative : Bool) (s : Significand) (cs : List Char) :
    Except ReadError (Document × List Char) := do
  match cs with
  | '.' :: rest =>
    let (digits, rest) := rest.span Char.isDigit
    if digits.isEmpty then throw .unfinished
    let t := digits.foldl (fun s c => s.push (c.toNat - '0'.toNat)) { s with full := false }
    let kept := digits.length - (t.skipped - s.skipped)
    let exponent : Int := s.skipped - kept
    match rest with
    | 'e' :: rest | 'E' :: rest => readExponent negative t exponent rest
    | _ => return (← float negative t.digits exponent, rest)
  | 'e' :: rest | 'E' :: rest => readExponent negative s s.skipped rest
  | _ =>
    if s.full then return (← float negative s.digits s.skipped, cs)
    else if !negative then return (.integer s.digits, cs)
    else if 0 < s.digits ∧ s.digits ≤ Nat.pow 2 63 then return (.integer (-(s.digits : Int)), cs)
    else return (← float true s.digits 0, cs)

def readNumber (negative : Bool) (cs : List Char) : Except ReadError (Document × List Char) :=
  match cs with
  | '0' :: d :: rest =>
    if d.isDigit then .error (.unexpectedCharacter d)
    else finishNumber negative ⟨0, 0, false⟩ (d :: rest)
  | c :: _ =>
    if c.isDigit then
      let (s, rest) := readDigits ⟨0, 0, false⟩ cs
      finishNumber negative s rest
    else .error (.unexpectedCharacter c)
  | [] => .error .unfinished

/-! ### Texts -/

/-- The character of four hexadecimal digits. -/
def hex4? (a b c d : Char) : Option Nat := do
  let digit (c : Char) : Option Nat :=
    if c.isDigit then some (c.toNat - '0'.toNat)
    else if 'a' ≤ c ∧ c ≤ 'f' then some (c.toNat - 'a'.toNat + 10)
    else if 'A' ≤ c ∧ c ≤ 'F' then some (c.toNat - 'A'.toNat + 10)
    else none
  return (((← digit a) * 16 + (← digit b)) * 16 + (← digit c)) * 16 + (← digit d)

/-- The character of an escape with one letter. -/
def escape? : Char → Option Char
  | '"' => some '"'
  | '\\' => some '\\'
  | '/' => some '/'
  | 'b' => some '\x08'
  | 'f' => some '\x0c'
  | 'n' => some '\n'
  | 'r' => some '\r'
  | 't' => some '\t'
  | _ => none

/-- The rest of a text up to its closing quote. Characters outside the basic plane may be written
as two escapes, and neither of the two may stand alone. -/
def readText (done : List Char) : List Char → Except ReadError (String × List Char)
  | [] => .error .unfinished
  | '"' :: rest => .ok (String.ofList done.reverse, rest)
  | '\\' :: 'u' :: a :: b :: c :: d :: rest =>
    match hex4? a b c d with
    | none => .error (.unexpectedCharacter 'u')
    | some high =>
      if 0xD800 ≤ high ∧ high < 0xDC00 then
        match rest with
        | '\\' :: 'u' :: e :: f :: g :: h :: rest =>
          match hex4? e f g h with
          | none => .error (.unexpectedCharacter 'u')
          | some low =>
            if 0xDC00 ≤ low ∧ low < 0xE000 then
              let code := 0x10000 + (high - 0xD800) * 0x400 + (low - 0xDC00)
              readText (Char.ofNat code :: done) rest
            else .error (.unexpectedCharacter 'u')
        | _ => .error .unfinished
      else if 0xDC00 ≤ high ∧ high < 0xE000 then .error (.unexpectedCharacter 'u')
      else readText (Char.ofNat high :: done) rest
  | '\\' :: c :: rest =>
    match escape? c with
    | some e => readText (e :: done) rest
    | none => .error (.unexpectedCharacter c)
  | c :: rest =>
    if c.toNat < 0x20 then .error (.unexpectedCharacter c) else readText (c :: done) rest

/-! ### Tokens -/

/-- Takes a word off the front. -/
def stripWord : List Char → List Char → Option (List Char)
  | [], cs => some cs
  | w :: word, c :: cs => if w = c then stripWord word cs else none
  | _ :: _, [] => none

def readWord (word : String) (value : Document) (cs : List Char) :
    Except ReadError (Token × List Char) :=
  match stripWord word.toList cs with
  | some rest => .ok (.atom value, rest)
  | none => .error .unfinished

/-- The token that begins with `c`. -/
def readToken (c : Char) (rest : List Char) : Except ReadError (Token × List Char) := do
  match c with
  | '[' => return (.openList, rest)
  | ']' => return (.closeList, rest)
  | '{' => return (.openTable, rest)
  | '}' => return (.closeTable, rest)
  | ',' => return (.comma, rest)
  | ':' => return (.colon, rest)
  | '"' =>
    let (text, rest) ← readText [] rest
    return (.atom (.text text), rest)
  | 't' => readWord "true" (.bool true) (c :: rest)
  | 'f' => readWord "false" (.bool false) (c :: rest)
  | 'n' => readWord "null" .null (c :: rest)
  | '-' =>
    let (value, rest) ← readNumber true rest
    return (.atom value, rest)
  | _ =>
    let (value, rest) ← readNumber false (c :: rest)
    return (.atom value, rest)

def isSpace (c : Char) : Bool := c == ' ' || c == '\t' || c == '\n' || c == '\r'

/-- The tokens of a text; every token takes at least one character, so `fuel` is the number of
characters. A fault of a token shows only where the tokens before it are put together. -/
def tokens : (fuel : Nat) → List Char → List (Except ReadError Token)
  | 0, _ => []
  | _ + 1, [] => []
  | fuel + 1, c :: rest =>
    if isSpace c then tokens fuel rest
    else
      match readToken c rest with
      | .error e => [.error e]
      | .ok (token, rest) => .ok token :: tokens fuel rest

/-! ### Structure -/

/-- A list or a table that has not been closed yet. -/
inductive Frame where
  /-- The items so far, the last one first. -/
  | list (items : List Document)
  /-- The entries so far, and the key whose value comes next. -/
  | table (entries : List (String × Document)) (key : String)

/-- What may come next. -/
inductive Expect where
  | value
  /-- A first item, or the end of the list. -/
  | valueOrClose
  | key
  /-- A first key, or the end of the table. -/
  | keyOrClose
  | colon
  /-- A comma, or the end of what is open. -/
  | more
  /-- Nothing: this is the document. -/
  | finished (document : Document)

structure State where
  stack : List Frame
  expect : Expect

/-- How many lists and tables may stand inside one another. -/
def maxDepth : Nat := 127

def State.start : State := ⟨[], .value⟩

/-- Puts a finished value where it belongs. -/
def State.put (stack : List Frame) (value : Document) : State :=
  match stack with
  | [] => ⟨[], .finished value⟩
  | .list items :: rest => ⟨.list (value :: items) :: rest, .more⟩
  | .table entries key :: rest =>
    ⟨.table (Document.putEntry key value entries) key :: rest, .more⟩

/-- Opens a list or a table. -/
def State.open (stack : List Frame) (frame : Frame) (expect : Expect) :
    Except ReadError State :=
  if stack.length < maxDepth then .ok ⟨frame :: stack, expect⟩ else .error .tooDeep

def State.step (s : State) (token : Token) : Except ReadError State :=
  match s.expect, token, s.stack with
  | .value, .atom value, stack => .ok (State.put stack value)
  | .valueOrClose, .atom value, stack => .ok (State.put stack value)
  | .value, .openList, stack => State.open stack (.list []) .valueOrClose
  | .valueOrClose, .openList, stack => State.open stack (.list []) .valueOrClose
  | .value, .openTable, stack => State.open stack (.table [] "") .keyOrClose
  | .valueOrClose, .openTable, stack => State.open stack (.table [] "") .keyOrClose
  | .valueOrClose, .closeList, .list items :: stack =>
    .ok (State.put stack (.list items.reverse))
  | .more, .closeList, .list items :: stack => .ok (State.put stack (.list items.reverse))
  | .more, .comma, .list items :: stack => .ok ⟨.list items :: stack, .value⟩
  | .keyOrClose, .atom (.text key), .table entries _ :: stack =>
    .ok ⟨.table entries key :: stack, .colon⟩
  | .key, .atom (.text key), .table entries _ :: stack =>
    .ok ⟨.table entries key :: stack, .colon⟩
  | .colon, .colon, stack => .ok ⟨stack, .value⟩
  | .keyOrClose, .closeTable, .table entries _ :: stack =>
    .ok (State.put stack (.table entries))
  | .more, .closeTable, .table entries _ :: stack => .ok (State.put stack (.table entries))
  | .more, .comma, .table entries key :: stack => .ok ⟨.table entries key :: stack, .key⟩
  | _, _, _ => .error .unexpectedToken

/-- Reads a text that holds one document. -/
def read (text : String) : Except ReadError Document := do
  let cs := text.toList
  let final ← (tokens cs.length cs).foldlM (fun s token => token >>= s.step) State.start
  match final.expect with
  | .finished document => return document
  | _ => throw .unfinished

/-! ### Writing -/

/-- The escapes that texts are written with. -/
def writeChar (c : Char) : List Char :=
  match c with
  | '"' => ['\\', '"']
  | '\\' => ['\\', '\\']
  | '\n' => ['\\', 'n']
  | '\r' => ['\\', 'r']
  | '\t' => ['\\', 't']
  | '\x08' => ['\\', 'b']
  | '\x0c' => ['\\', 'f']
  | c =>
    if c.toNat < 0x20 then
      let digit (n : Nat) : Char := (Nat.toDigits 16 n).headD '0'
      ['\\', 'u', '0', '0', digit (c.toNat / 16), digit (c.toNat % 16)]
    else [c]

def writeText (s : String) : String :=
  String.ofList ('"' :: (s.toList.flatMap writeChar ++ ['"']))

mutual

/-- A document on one line without spaces. -/
def write : Document → String
  | .null => "null"
  | .bool value => if value then "true" else "false"
  | .integer value => toString value
  | .float value => toString value
  | .text value => writeText value
  | .list items => "[" ++ ",".intercalate (writeItems items) ++ "]"
  | .table entries => "\x7b" ++ ",".intercalate (writeEntries entries) ++ "\x7d"

def writeItems : List Document → List String
  | [] => []
  | item :: rest => write item :: writeItems rest

def writeEntries : List (String × Document) → List String
  | [] => []
  | (key, value) :: rest => (writeText key ++ ":" ++ write value) :: writeEntries rest

end

end ChainIngest.Json
