import ChainIngest.Bytes.Keccak
import ChainIngest.Signature.Curve

/-!
Signatures, and the signer that a signature tells.
-/

namespace ChainIngest

structure Signature where
  r : Nat
  s : Nat
  /-- Whether the second coordinate of the point that `r` is from is odd. -/
  odd : Bool
  deriving DecidableEq, Repr

namespace Signature

open Curve

/-- Whether both numbers are in range, and `s` in the lower half of it. -/
def isWellFormed (sig : Signature) : Bool :=
  0 < sig.r && sig.r < order && 0 < sig.s && sig.s ≤ order / 2

/-- The address of a public key: the end of its hash. -/
def addressOf (x y : Nat) : Address :=
  Address.ofTopic (Keccak.hash (Bytes.natBytes 32 x ++ Bytes.natBytes 32 y))

/-- The signer of a message with a hash. -/
def signer? (sig : Signature) (message : Hash) : Option Address := do
  if !sig.isWellFormed then none
  let point ← lift? sig.r sig.odd
  let scale := inverse sig.r order
  let u := (order - message.toNat % order) * scale % order
  match (generator.multiply u).add (point.multiply (sig.s * scale % order)) with
  | .infinity => none
  | .affine x y => some (addressOf x y)

end Signature

end ChainIngest
