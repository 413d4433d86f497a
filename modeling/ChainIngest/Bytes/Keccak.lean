import ChainIngest.Bytes

/-!
The hash Keccak-256: a sponge over twenty-five 64-bit lanes with a rate of 136 bytes, padding
that starts with the byte `0x01`, and a digest of 32 bytes.
-/

namespace ChainIngest.Keccak

/-- The lanes of a state, row by row. -/
abbrev Lanes := Vector UInt64 25

/-- One constant for each of the twenty-four rounds. -/
def roundConstants : List UInt64 := [
  0x0000000000000001, 0x0000000000008082, 0x800000000000808A, 0x8000000080008000,
  0x000000000000808B, 0x0000000080000001, 0x8000000080008081, 0x8000000000008009,
  0x000000000000008A, 0x0000000000000088, 0x0000000080008009, 0x000000008000000A,
  0x000000008000808B, 0x800000000000008B, 0x8000000000008089, 0x8000000000008003,
  0x8000000000008002, 0x8000000000000080, 0x000000000000800A, 0x800000008000000A,
  0x8000000080008081, 0x8000000000008080, 0x0000000080000001, 0x8000000080008008]

/-- How far each lane is rotated. -/
def rotations : Vector Nat 25 := #v[
  0, 1, 62, 28, 27, 36, 44, 6, 55, 20, 3, 10, 43, 25, 39, 41, 45, 15, 21, 8, 18, 2, 61, 56, 14]

def rotate (lane : UInt64) (amount : Nat) : UInt64 :=
  if amount % 64 = 0 then lane
  else (lane <<< UInt64.ofNat (amount % 64)) ||| (lane >>> UInt64.ofNat (64 - amount % 64))

/-- The lane in column `x` and row `y`, both taken modulo five. -/
def lane (a : Lanes) (x y : Nat) : UInt64 :=
  have : x % 5 + 5 * (y % 5) < 25 := by omega
  a[x % 5 + 5 * (y % 5)]

def generate (f : Nat → Nat → UInt64) : Lanes := Vector.ofFn fun i => f (i.val % 5) (i.val / 5)

/-- Adds to each lane the parities of the columns beside it. -/
def theta (a : Lanes) : Lanes :=
  let parity (x : Nat) := lane a x 0 ^^^ lane a x 1 ^^^ lane a x 2 ^^^ lane a x 3 ^^^ lane a x 4
  generate fun x y => lane a x y ^^^ parity (x + 4) ^^^ rotate (parity (x + 1)) 1

/-- Rotates every lane and moves it to its new place. -/
def rhoPi (a : Lanes) : Lanes :=
  generate fun x y =>
    have : (x + 3 * y) % 5 + 5 * (x % 5) < 25 := by omega
    rotate (lane a (x + 3 * y) x) rotations[(x + 3 * y) % 5 + 5 * (x % 5)]

/-- The only step that is not linear: it combines each lane with the next two of its row. -/
def chi (a : Lanes) : Lanes :=
  generate fun x y => lane a x y ^^^ (~~~ lane a (x + 1) y &&& lane a (x + 2) y)

def round (a : Lanes) (constant : UInt64) : Lanes :=
  let a := chi (rhoPi (theta a))
  a.set 0 (a[0] ^^^ constant)

def permute (a : Lanes) : Lanes := roundConstants.foldl round a

/-- Bytes taken in by one permutation. -/
def rate : Nat := 136

/-- Eight bytes, the first being the least significant. -/
def laneOf (bytes : List UInt8) : UInt64 :=
  bytes.foldr (fun byte lane => (lane <<< 8) ||| byte.toUInt64) 0

def laneBytes (lane : UInt64) : List UInt8 :=
  (List.range 8).map fun i => (lane >>> UInt64.ofNat (8 * i)).toUInt8

/-- Takes one block of `rate` bytes into the state. -/
def absorb (a : Lanes) (block : List UInt8) : Lanes :=
  permute (Vector.ofFn fun i =>
    if i.val < rate / 8 then a[i] ^^^ laneOf ((block.drop (8 * i.val)).take 8) else a[i])

/-- The message filled up to a whole number of blocks. -/
def pad (message : List UInt8) : List UInt8 :=
  let missing := rate - message.length % rate
  if missing = 1 then message ++ [0x81]
  else message ++ 0x01 :: List.replicate (missing - 2) 0x00 ++ [0x80]

/-- The Keccak-256 digest of a message. -/
def hash (message : List UInt8) : Hash :=
  let padded := pad message
  let blocks := (List.range (padded.length / rate)).map fun i => (padded.drop (i * rate)).take rate
  let final := blocks.foldl absorb (Vector.replicate 25 0)
  (Bytes.ofList? 32 ((final.toList.take 4).flatMap laneBytes)).getD (Bytes.zero 32)

end ChainIngest.Keccak
