import ChainIngest.Bytes.Hex
import ChainIngest.Bytes.Keccak
import ChainIngest.Text.Blank

/-!
Addresses in configuration and in messages. Messages show an address with a checksum: a letter
is upper case where the hash of the lower-case digits has a digit of at least eight.
-/

namespace ChainIngest.Address

/-- A text that is no address, and why. -/
structure ReadError where
  text : String
  reason : Hex.ReadError
  deriving DecidableEq, Repr

/-- What is wrong with an address, outermost first. -/
def ReadError.causes (e : ReadError) : List String :=
  [s!"Invalid address '{e.text}'", e.reason.message]

/-- An address written in hexadecimal, with blanks around it or a prefix before it. -/
def read (text : String) : Except ReadError Address :=
  (Hex.read 20 (Text.trim text)).mapError (ReadError.mk text)

/-- Lower-case digits with letters raised where the digit of `checksum` is at least eight. -/
def raiseLetters (digits checksum : List Char) : List Char :=
  List.zipWith
    (fun digit check => if 8 ≤ (Hex.value? check).getD 0 then digit.toUpper else digit)
    digits checksum

/-- An address with its checksum. -/
def display (a : Address) : String :=
  let digits := Hex.digits a.toList
  let checksum := Keccak.hash (digits.map fun c => UInt8.ofNat c.toNat)
  String.ofList ('0' :: 'x' :: raiseLetters digits (Hex.digits checksum.toList))

end ChainIngest.Address
