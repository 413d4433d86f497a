import ChainIngest.Bytes

/-!
Hexadecimal texts of byte strings.
-/

namespace ChainIngest.Hex

/-- The lower-case digit of a value below sixteen. -/
def digit (value : Nat) : Char :=
  if value < 10 then Char.ofNat ('0'.toNat + value) else Char.ofNat ('a'.toNat + (value - 10))

/-- The value of a digit of either case. -/
def value? (c : Char) : Option Nat :=
  if '0' ≤ c ∧ c ≤ '9' then some (c.toNat - '0'.toNat)
  else if 'a' ≤ c ∧ c ≤ 'f' then some (c.toNat - 'a'.toNat + 10)
  else if 'A' ≤ c ∧ c ≤ 'F' then some (c.toNat - 'A'.toNat + 10)
  else none

/-- The two digits of a byte. -/
def byteDigits (byte : UInt8) : List Char := [digit (byte.toNat / 16), digit (byte.toNat % 16)]

/-- The digits of bytes, without a prefix. -/
def digits (bytes : List UInt8) : List Char := bytes.flatMap byteDigits

/-- Bytes as lower-case digits after `0x`. -/
def encode (bytes : List UInt8) : String := String.ofList ('0' :: 'x' :: digits bytes)

/-- The bytes that pairs of digits write. -/
def bytes? : List Char → Option (List UInt8)
  | [] => some []
  | [_] => none
  | high :: low :: rest => do
    let h ← value? high
    let l ← value? low
    return UInt8.ofNat (h * 16 + l) :: (← bytes? rest)

/-- Digits without an optional prefix, `0x` or `0X`. -/
def stripPrefix : List Char → List Char
  | '0' :: 'x' :: rest => rest
  | '0' :: 'X' :: rest => rest
  | cs => cs

/-- Why a text is not a byte string of the wanted length. -/
inductive ReadError where
  | oddLength
  | wrongLength
  | invalidCharacter (c : Char) (position : Nat)
  deriving DecidableEq, Repr

def ReadError.message : ReadError → String
  | .oddLength => "odd number of digits"
  | .wrongLength => "invalid string length"
  | .invalidCharacter c position => s!"invalid character '{c}' at position {position}"

/-- The first byte that is no digit, as the character with that code, and its position. -/
def firstInvalid (position : Nat) : List UInt8 → Option (Char × Nat)
  | [] => none
  | byte :: rest =>
    let c := Char.ofNat byte.toNat
    if (value? c).isSome then firstInvalid (position + 1) rest else some (c, position)

/-- Reads `n` bytes from an optional prefix and their digits. Lengths and positions count the
bytes of the text's encoding, and the length is looked at before the digits. -/
def read (n : Nat) (text : String) : Except ReadError (Bytes n) :=
  let chars := stripPrefix text.toList
  let encoded := (String.ofList chars).toUTF8.toList
  if encoded.length % 2 = 1 then .error .oddLength
  else if encoded.length ≠ 2 * n then .error .wrongLength
  else
    match firstInvalid 0 encoded with
    | some (c, position) => .error (.invalidCharacter c position)
    | none =>
      match (bytes? chars).bind (Bytes.ofList? n) with
      | some bytes => .ok bytes
      | none => .error .wrongLength

end ChainIngest.Hex
