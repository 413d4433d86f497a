import ChainIngest.Document.Value
import ChainIngest.Document.Yaml.Line
import ChainIngest.Number.Binary64.Reader

/-!
Single values in YAML: what unquoted words stand for, and texts in quotes, over one line or many.
-/

namespace ChainIngest.Yaml

/-- Why a text is not YAML, or not a document. -/
inductive ReadError where
  | unexpected (rest : List Char)
  | badIndentation
  | badEscape
  | unfinished
  | notANumber
  | keyIsNoText
  | repeatedKey (key : String)
  | unknownAnchor (name : String)
  | severalDocuments
  | tooDeep
  deriving DecidableEq, Repr

/-! ### Unquoted words -/

/-- The value of a hexadecimal digit. -/
def hexDigit? (c : Char) : Option Nat :=
  if c.isDigit then some (c.toNat - '0'.toNat)
  else if 'a' ≤ c ∧ c ≤ 'f' then some (c.toNat - 'a'.toNat + 10)
  else if 'A' ≤ c ∧ c ≤ 'F' then some (c.toNat - 'A'.toNat + 10)
  else none

/-- The value of digits in a base. -/
def digitsIn? (base : Nat) (value : Nat) : List Char → Option Nat
  | [] => some value
  | c :: rest => do
    let d ← hexDigit? c
    if d < base then digitsIn? base (value * base + d) rest else none

def fitsInt64 (n : Int) : Bool := -(Int.pow 2 63) ≤ n && n < Int.pow 2 63

/-- An integer of 64 bits in a base, with an optional sign. -/
def integerIn? (base : Nat) (cs : List Char) : Option Int := do
  let (negative, digits) := match cs with
    | '-' :: digits => (true, digits)
    | '+' :: digits => (false, digits)
    | digits => (false, digits)
  if digits.isEmpty then none
  let n ← digitsIn? base 0 digits
  let value : Int := if negative then -n else n
  if fitsInt64 value then some value else none

/-- An integer of 64 bits: hexadecimal, octal or decimal. -/
def integer? (cs : List Char) : Option Int :=
  let special := match cs with
    | '0' :: 'x' :: digits => integerIn? 16 digits
    | '0' :: 'o' :: digits => integerIn? 8 digits
    | '+' :: digits => integerIn? 10 digits
    | _ => none
  special <|> integerIn? 10 cs

/-- The words for numbers that are not finite. -/
def unboundedWords : List String := [
  ".inf", ".Inf", ".INF", "+.inf", "+.Inf", "+.INF", "-.inf", "-.Inf", "-.INF",
  ".nan", ".NaN", ".NAN"]

/-- What an unquoted text stands for. Documents hold finite numbers only. -/
def resolve (text : String) : Except ReadError Document :=
  match text with
  | "" | "~" | "null" => .ok .null
  | "true" => .ok (.bool true)
  | "false" => .ok (.bool false)
  | _ =>
    match integer? text.toList with
    | some n => .ok (.integer n)
    | none =>
      if unboundedWords.contains text then .error .notANumber
      else
        match Binary64.read? text.toList with
        | some x => .ok (.float x)
        | none => .ok (.text text)

/-- What an unquoted text with a tag stands for. A text that is not what its tag says is null. -/
def resolveAs (tag text : String) : Except ReadError Document :=
  match tag with
  | "!!bool" =>
    .ok (match text with
      | "true" => .bool true
      | "false" => .bool false
      | _ => .null)
  | "!!int" =>
    .ok (match integerIn? 10 text.toList with
      | some n => .integer n
      | none => .null)
  | "!!float" =>
    if unboundedWords.contains text then .error .notANumber
    else
      .ok (match Binary64.read? text.toList with
        | some x => .float x
        | none => .null)
  | "!!null" => .ok .null
  | _ => .ok (.text text)

/-- Where an unquoted text may end. -/
inductive Context where
  | block
  /-- Inside brackets or braces. -/
  | flow
  deriving DecidableEq, Repr

def isFlowMark (c : Char) : Bool := [',', '[', ']', '{', '}'].contains c

/-- Cuts an unquoted text off the rest of its line. It ends before a colon with a blank behind it,
before a comment, and inside brackets before a bracket or a comma. -/
def scanPlain (context : Context) (afterBlank : Bool) : List Char → List Char × List Char
  | [] => ([], [])
  | c :: rest =>
    let closing := context == .flow && (rest.head?.map isFlowMark).getD false
    if c == ':' && (endsWord rest || closing) then ([], c :: rest)
    else if c == '#' && afterBlank then ([], c :: rest)
    else if context == .flow && isFlowMark c then ([], c :: rest)
    else
      let (text, rest) := scanPlain context (isBlank c) rest
      (c :: text, rest)

def trimEnd (cs : List Char) : List Char := (cs.reverse.dropWhile isBlank).reverse

/-- Whether an unquoted text can begin here. -/
def startsPlain (context : Context) : List Char → Bool
  | [] => false
  | c :: rest =>
    if c == '-' || c == '?' || c == ':' then
      !endsWord rest && (context == .block || !(rest.head?.map isFlowMark).getD false)
    else
      !isBlank c && !([',', '[', ']', '{', '}', '#', '&', '*', '!', '|', '>', '\'', '"', '%', '@',
        Char.ofNat 0x60].contains c)

/-- Puts lines together: a single line break becomes a space, and of several all but the first
are kept. -/
def joinLines (first : List Char) (emptyLines : Nat) (second : List Char) : List Char :=
  first ++ (if emptyLines = 0 then [' '] else List.replicate emptyLines '\n') ++ second

/-! ### Texts in quotes -/

/-- The character of an escape with one letter. -/
def escape? : Char → Option Char
  | '0' => some (Char.ofNat 0)
  | 'a' => some (Char.ofNat 7)
  | 'b' => some (Char.ofNat 8)
  | 't' => some '\t'
  | '\t' => some '\t'
  | 'n' => some '\n'
  | 'v' => some (Char.ofNat 11)
  | 'f' => some (Char.ofNat 12)
  | 'r' => some '\r'
  | 'e' => some (Char.ofNat 27)
  | ' ' => some ' '
  | '"' => some '"'
  | '/' => some '/'
  | '\\' => some '\\'
  | 'N' => some (Char.ofNat 0x85)
  | '_' => some (Char.ofNat 0xA0)
  | 'L' => some (Char.ofNat 0x2028)
  | 'P' => some (Char.ofNat 0x2029)
  | _ => none

/-- The character with a code, if there is one. -/
def charOfCode (digits : List Char) : Except ReadError Char := do
  match digitsIn? 16 0 digits with
  | some code =>
    if code.isValidChar then return Char.ofNat code else throw .badEscape
  | none => throw .badEscape

/-- How the part of a quoted text on one line ends. -/
inductive QuotedEnd where
  | closed (rest : List Char)
  | open
  /-- Nothing stands for the line break. -/
  | openEscaped

/-- A quoted text up to its quote or the end of the line. `done` is what has been read, the last
character first, and `blanks` counts the blanks that end it and fall away with a line break. -/
def scanQuoted (double : Bool) (done : List Char) (blanks : Nat) :
    List Char → Except ReadError (List Char × QuotedEnd)
  | [] => .ok ((done.drop blanks).reverse, .open)
  | '\'' :: '\'' :: rest =>
    if double then scanQuoted double ('\'' :: '\'' :: done) 0 rest
    else scanQuoted double ('\'' :: done) 0 rest
  | c :: rest =>
    if c == (if double then '"' else '\'') then .ok (done.reverse, .closed rest)
    else if c == '\\' && double then
      match rest with
      | [] => .ok (done.reverse, .openEscaped)
      | 'x' :: d :: e :: rest => do
        let c ← charOfCode [d, e]
        scanQuoted double (c :: done) 0 rest
      | 'u' :: d :: e :: f :: g :: rest => do
        let c ← charOfCode [d, e, f, g]
        scanQuoted double (c :: done) 0 rest
      | 'U' :: d :: e :: f :: g :: h :: i :: j :: k :: rest => do
        let c ← charOfCode [d, e, f, g, h, i, j, k]
        scanQuoted double (c :: done) 0 rest
      | e :: rest =>
        match escape? e with
        | some c => scanQuoted double (c :: done) 0 rest
        | none => .error .badEscape
    else scanQuoted double (c :: done) (if isBlank c then blanks + 1 else 0) rest

end ChainIngest.Yaml
