/-!
The curve `y² = x³ + 7` over a prime field, on which transactions are signed.
-/

namespace ChainIngest.Curve

/-- The size of the field of coordinates. -/
def fieldSize : Nat := Nat.pow 2 256 - Nat.pow 2 32 - 977

/-- The number of points. -/
def order : Nat := 0xFFFFFFFFFFFFFFFFFFFFFFFFFFFFFFFEBAAEDCE6AF48A03BBFD25E8CD0364141

/-- `base ^ exponent` modulo `m`, for an exponent of at most 256 bits. -/
def powMod (base exponent m : Nat) : Nat :=
  (List.range 256).reverse.foldl
    (fun value i =>
      let square := value * value % m
      if exponent.testBit i then square * base % m else square)
    1

/-- The inverse of a number modulo a prime. -/
def inverse (a p : Nat) : Nat := powMod a (p - 2) p

/-- A point, or the point at infinity. -/
inductive Point where
  | infinity
  | affine (x y : Nat)
  deriving DecidableEq, Repr

/-- The difference modulo the field's size. -/
def subMod (a b : Nat) : Nat := (a + fieldSize - b % fieldSize) % fieldSize

namespace Point

/-- The third point on the line through two points, negated. -/
def reflect (slope x₁ y₁ x₂ : Nat) : Point :=
  let x := subMod (subMod (slope * slope % fieldSize) x₁) x₂
  .affine x (subMod (slope * subMod x₁ x % fieldSize) y₁)

def double : Point → Point
  | .infinity => .infinity
  | .affine x y =>
    if y = 0 then .infinity
    else reflect (3 * x * x * inverse (2 * y) fieldSize % fieldSize) x y x

def add : Point → Point → Point
  | .infinity, q => q
  | p, .infinity => p
  | .affine x₁ y₁, .affine x₂ y₂ =>
    if x₁ = x₂ then if y₁ = y₂ then double (.affine x₁ y₁) else .infinity
    else reflect (subMod y₂ y₁ * inverse (subMod x₂ x₁) fieldSize % fieldSize) x₁ y₁ x₂

/-- A multiple of a point, by a number of at most 256 bits. -/
def multiply (n : Nat) (p : Point) : Point :=
  (List.range 256).reverse.foldl
    (fun sum i => if n.testBit i then (sum.double).add p else sum.double)
    .infinity

end Point

/-- The point that generates all others. -/
def generator : Point := .affine
  0x79BE667EF9DCBBAC55A06295CE870B07029BFCDB2DCE28D959F2815B16F81798
  0x483ADA7726A3C4655DA4FBFC0E1108A8FD17B448A68554199C47D08FFB10D4B8

/-- The point with a coordinate `x` and a `y` of the wanted parity, if there is one. -/
def lift? (x : Nat) (odd : Bool) : Option Point :=
  if fieldSize ≤ x then none
  else
    let square := (x * x * x + 7) % fieldSize
    let y := powMod square ((fieldSize + 1) / 4) fieldSize
    if y * y % fieldSize ≠ square then none
    else if (y % 2 == 1) == odd then some (.affine x y) else some (.affine x (subMod 0 y))

end ChainIngest.Curve
