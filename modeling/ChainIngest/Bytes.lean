/-!
Byte strings of a fixed length, and numbers written in them with the most significant byte first.
-/

namespace ChainIngest

/-- A string of exactly `n` bytes. -/
structure Bytes (n : Nat) where
  toList : List UInt8
  length_eq : toList.length = n
  deriving DecidableEq, Repr

/-- An account or a contract. -/
abbrev Address := Bytes 20

/-- A transaction hash, a block hash or a log topic. -/
abbrev Hash := Bytes 32

namespace Bytes

/-- All bytes zero. -/
def zero (n : Nat) : Bytes n := ⟨List.replicate n 0, List.length_replicate⟩

instance : Inhabited (Bytes n) := ⟨zero n⟩

/-- A list as a byte string, if its length is right. -/
def ofList? (n : Nat) (bytes : List UInt8) : Option (Bytes n) :=
  if h : bytes.length = n then some ⟨bytes, h⟩ else none

/-- The number that bytes write, the first byte being the most significant. -/
def natOf (bytes : List UInt8) : Nat :=
  bytes.foldl (fun value byte => value * 256 + byte.toNat) 0

/-- The last `count` bytes of a number. -/
def natBytes : Nat → Nat → List UInt8
  | 0, _ => []
  | count + 1, value => natBytes count (value / 256) ++ [UInt8.ofNat value]

theorem length_natBytes (count value : Nat) : (natBytes count value).length = count := by
  induction count generalizing value with
  | zero => rfl
  | succ count ih => simp [natBytes, ih]

/-- A number as `n` bytes, cut to its last `n`. -/
def ofNat (n value : Nat) : Bytes n := ⟨natBytes n value, length_natBytes n value⟩

def toNat (b : Bytes n) : Nat := natOf b.toList

end Bytes

/-- An address in a log topic: twelve zero bytes come first. -/
def Address.toTopic (a : Address) : Hash :=
  ⟨List.replicate 12 0 ++ a.toList, by simp [a.length_eq]⟩

/-- The address in a log topic: its last twenty bytes, whatever comes first. -/
def Address.ofTopic (topic : Hash) : Address :=
  ⟨topic.toList.drop 12, by simp [topic.length_eq]⟩

end ChainIngest
