import ChainIngest.Bytes.Hex
import ChainIngest.Document.Value
import ChainIngest.Number.Numeral

/-!
Numbers and bytes in messages: hexadecimal texts after `0x`, numbers without leading zeros.
-/

namespace ChainIngest.Rpc

/-- The digits of a number. -/
def quantityDigits (n : Nat) : List Char := Nat.toDigits 16 n

/-- A number as a message has it. -/
def quantity (n : Nat) : Document := .text (String.ofList ('0' :: 'x' :: quantityDigits n))

/-- The value of hexadecimal digits. -/
def hexValue? (value : Nat) : List Char → Option Nat
  | [] => some value
  | c :: rest => do hexValue? (value * 16 + (← Hex.value? c)) rest

/-- A number of at most `bits` bits. Nodes write it as a text, and some as a number. -/
def quantity? (bits : Nat) (d : Document) : Option Nat :=
  let value := match d with
    | .text s =>
      match s.toList with
      | '0' :: 'x' :: digits => hexValue? 0 digits
      | digits => (Number.readUnsigned (Nat.pow 2 bits - 1) digits).toOption
    | .integer n => if 0 ≤ n then some n.toNat else none
    | _ => none
  value.filter (· < Nat.pow 2 bits)

def height? (d : Document) : Option UInt64 := UInt64.ofNat <$> quantity? 64 d

/-- A byte string of a fixed length. -/
def bytes? (n : Nat) : Document → Option (Bytes n)
  | .text s => (Hex.read n s).toOption
  | _ => none

/-- Bytes of any number. -/
def data? : Document → Option (List UInt8)
  | .text s => Hex.bytes? (Hex.stripPrefix s.toList)
  | _ => none

def showBytes (bytes : List UInt8) : Document := .text (Hex.encode bytes)

end ChainIngest.Rpc
