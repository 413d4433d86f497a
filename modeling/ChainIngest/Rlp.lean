import ChainIngest.Bytes

/-!
Recursive length prefixes: the encoding in which transactions are signed. An item is a byte string
or a list of items, and each begins with its length.
-/

namespace ChainIngest

inductive Rlp where
  | bytes (content : List UInt8)
  | list (items : List Rlp)

namespace Rlp

/-- The fewest bytes of a number; none for zero. -/
def numberBytes (n : Nat) : List UInt8 := Bytes.natBytes ((Nat.log2 n + 8) / 8) n |>.dropWhile (· == 0)

/-- A number as an item. -/
def number (n : Nat) : Rlp := .bytes (numberBytes n)

/-- The length of a content of up to 55 bytes is in one byte; otherwise that byte counts the bytes
of the length. -/
def lengthPrefix (offset length : Nat) : List UInt8 :=
  if length ≤ 55 then [UInt8.ofNat (offset + length)]
  else
    let lengthBytes := numberBytes length
    UInt8.ofNat (offset + 55 + lengthBytes.length) :: lengthBytes

/-- A byte below 128 is its own encoding. -/
def encodeBytes (content : List UInt8) : List UInt8 :=
  match content with
  | [byte] => if byte < 0x80 then [byte] else [0x81, byte]
  | _ => lengthPrefix 0x80 content.length ++ content

mutual

def encode : Rlp → List UInt8
  | .bytes content => encodeBytes content
  | .list items =>
    let content := encodeAll items
    lengthPrefix 0xC0 content.length ++ content

/-- Encodings of items, one after the other. -/
def encodeAll : List Rlp → List UInt8
  | [] => []
  | item :: rest => encode item ++ encodeAll rest

end

end Rlp

end ChainIngest
