import ChainIngest.Bytes.Hex

/-!
Addresses of nodes: which texts are absolute URLs. Only acceptance matters here; whoever connects
takes the text as it is.
-/

namespace ChainIngest.Rpc.Url

/-- The schemes whose URLs must name a host. -/
def hostSchemes : List String := ["http", "https", "ws", "wss", "ftp"]

def isControlOrSpace (c : Char) : Bool := c.toNat ≤ 0x20

/-- The text that counts: blanks at its ends, tabs and line breaks do not. -/
def significant (cs : List Char) : List Char :=
  let trimmed := ((cs.dropWhile isControlOrSpace).reverse.dropWhile isControlOrSpace).reverse
  trimmed.filter fun c => c != '\t' && c != '\n' && c != '\r'

def isSchemeChar (c : Char) : Bool := c.isAlphanum || c == '+' || c == '-' || c == '.'

/-- The scheme of a URL in lower case, and what follows its colon. -/
def scheme? (cs : List Char) : Option (String × List Char) :=
  match cs.span isSchemeChar with
  | (c :: name, ':' :: rest) =>
    if c.isAlpha then some (String.ofList ((c :: name).map Char.toLower), rest) else none
  | _ => none

/-- Up to where a host and its port stand. -/
def authority (slashes : List Char) (cs : List Char) : List Char :=
  cs.takeWhile fun c => !(slashes.contains c || c == '?' || c == '#')

/-- What follows the last at sign, if there is one. -/
def withoutUser (cs : List Char) : List Char :=
  (cs.reverse.takeWhile (· != '@')).reverse

/-- A host without its port, and the port. A colon in brackets belongs to the host. -/
def splitPort (cs : List Char) : List Char × List Char :=
  let afterBracket := cs.reverse.takeWhile (· != ']')
  if afterBracket.contains ':' then
    let port := (cs.reverse.takeWhile (· != ':')).reverse
    (cs.take (cs.length - port.length - 1), port)
  else (cs, [])

/-- Decimal digits of a number of at most 16 bits, or nothing. -/
def isPort (cs : List Char) : Bool :=
  cs.all Char.isDigit && cs.foldl (fun n c => n * 10 + (c.toNat - '0'.toNat)) 0 < UInt16.size

/-- Bytes written as a percent sign and two digits, as characters. -/
def decodePercent : List Char → List Char
  | '%' :: a :: b :: rest =>
    match Hex.value? a, Hex.value? b with
    | some high, some low => Char.ofNat (high * 16 + low) :: decodePercent rest
    | _, _ => '%' :: decodePercent (a :: b :: rest)
  | c :: rest => c :: decodePercent rest
  | [] => []

/-- The characters that no host holds. -/
def isForbidden (c : Char) : Bool :=
  c.toNat ≤ 0x20 || c.toNat == 0x7F ||
    ['#', '/', ':', '<', '>', '?', '@', '[', '\\', ']', '^', '|'].contains c

/-- The number that a part of an IPv4 address writes: decimal, octal or hexadecimal. -/
def ipv4Number? (part : List Char) : Option Nat :=
  let (base, digits) := match part with
    | '0' :: 'x' :: digits | '0' :: 'X' :: digits => (16, digits)
    | '0' :: d :: digits => (8, d :: digits)
    | digits => (10, digits)
  digits.foldlM
    (fun value c => (Hex.value? c).bind fun d => if d < base then some (value * base + d) else none)
    0

/-- The parts of a text between points. -/
def splitPoints (part : List Char) : List Char → List (List Char)
  | [] => [part.reverse]
  | '.' :: rest => part.reverse :: splitPoints [] rest
  | c :: rest => splitPoints (c :: part) rest

/-- Whether the parts write an IPv4 address: all but the last a byte each, the last one the rest. -/
def isIpv4 (parts : List (List Char)) : Bool :=
  parts.length ≤ 4 && parts.all (!·.isEmpty) &&
    match parts.mapM ipv4Number? with
    | none => false
    | some numbers =>
      numbers.dropLast.all (· ≤ 255) &&
        (numbers.getLast?.getD 0) < Nat.pow 256 (5 - numbers.length)

/-- A host whose last part is a number must be an IPv4 address. -/
def endsInNumber (parts : List (List Char)) : Bool :=
  match parts.getLast? with
  | some last =>
    !last.isEmpty && (last.all Char.isDigit ||
      ((last.take 2 == ['0', 'x'] || last.take 2 == ['0', 'X']) && (ipv4Number? last).isSome))
  | none => false

/-- The parts of a text between colons. -/
def splitColons (part : List Char) : List Char → List (List Char)
  | [] => [part.reverse]
  | ':' :: rest => part.reverse :: splitColons [] rest
  | c :: rest => splitColons (c :: part) rest

/-- Whether a part of an IPv6 address writes 16 bits. -/
def isPiece (part : List Char) : Bool :=
  !part.isEmpty && part.length ≤ 4 && part.all fun c => (Hex.value? c).isSome

/-- Whether a text writes four bytes in decimal, as at the end of an IPv6 address. -/
def isDottedQuad (cs : List Char) : Bool :=
  let parts := splitPoints [] cs
  parts.length == 4 && parts.all fun part =>
    !part.isEmpty && part.all Char.isDigit && (part.length == 1 || part.head? != some '0') &&
      part.foldl (fun n c => n * 10 + (c.toNat - '0'.toNat)) 0 ≤ 255

/-- The number of 16-bit pieces that parts write, if they all do. -/
def pieceCount? (parts : List (List Char)) (last : Bool) : Option Nat :=
  match parts with
  | [] => some 0
  | [part] =>
    if isPiece part then some 1 else if last && isDottedQuad part then some 2 else none
  | part :: rest => if isPiece part then (· + 1) <$> pieceCount? rest last else none

/-- The parts before and after two colons in a row. -/
def splitGap (before : List Char) : List Char → Option (List Char × List Char)
  | ':' :: ':' :: rest => some (before.reverse, rest)
  | c :: rest => splitGap (c :: before) rest
  | [] => none

def partsOf (cs : List Char) : List (List Char) := if cs.isEmpty then [] else splitColons [] cs

def isIpv6 (cs : List Char) : Bool :=
  match splitGap [] cs with
  | none => pieceCount? (partsOf cs) true == some 8
  | some (before, after) =>
    match pieceCount? (partsOf before) false, pieceCount? (partsOf after) true with
    | some n, some m => n + m ≤ 7
    | _, _ => false

/-- Whether a text names a host. -/
def isHost (cs : List Char) : Bool :=
  match cs with
  | '[' :: rest => rest.getLast? == some ']' && isIpv6 rest.dropLast
  | _ =>
    let decoded := decodePercent cs
    let parts := splitPoints [] decoded
    let named := if parts.getLast? == some [] && 1 < parts.length then parts.dropLast else parts
    !decoded.isEmpty && !decoded.any (fun c => isForbidden c || c == '%') &&
      (!endsInNumber named || isIpv4 named)

/-- Whether a host with a scheme of another kind may be so named. It may be empty. -/
def isOpaqueHost (cs : List Char) : Bool :=
  match cs with
  | '[' :: rest => rest.getLast? == some ']' && isIpv6 rest.dropLast
  | _ => !cs.any isForbidden

/-- Whether a text is an absolute URL. -/
def isValid (text : String) : Bool :=
  match scheme? (significant text.toList) with
  | none => false
  | some (scheme, rest) =>
    if hostSchemes.contains scheme then
      let (host, port) := splitPort (withoutUser
        (authority ['/', '\\'] (rest.dropWhile fun c => c == '/' || c == '\\')))
      isHost host && isPort port
    else if scheme == "file" then
      match rest with
      | '/' :: '/' :: rest =>
        let host := authority ['/', '\\'] rest
        host.isEmpty || isHost host
      | _ => true
    else
      match rest with
      | '/' :: '/' :: rest =>
        let (host, port) := splitPort (withoutUser (authority ['/'] rest))
        isOpaqueHost host && isPort port && (!host.isEmpty || port.isEmpty)
      | _ => true

end ChainIngest.Rpc.Url
