/-!
Decimal numbers: an integer mantissa and a power of ten. A number keeps the scale it was made
with, so one value has many representations, and texts show which one it is.
-/

namespace ChainIngest

/-- The number `mantissa * 10 ^ (-scale)`. -/
structure Decimal where
  mantissa : Int
  scale : Int
  deriving DecidableEq, Repr, Inhabited

namespace Decimal

/-- The integer `n`, with no fractional digits. -/
def ofInt (n : Int) : Decimal := ⟨n, 0⟩

def zero : Decimal := ofInt 0

def isZero (x : Decimal) : Bool := x.mantissa == 0

/-- The exact product. -/
def mul (x y : Decimal) : Decimal := ⟨x.mantissa * y.mantissa, x.scale + y.scale⟩

/-- How many decimal digits a magnitude has; zero has one. -/
def digitCount (n : Nat) : Nat :=
  if n < 10 then 1 else digitCount (n / 10) + 1
termination_by n
decreasing_by omega

/-- Whether the value is one, at whatever scale. -/
def isOne (x : Decimal) : Bool :=
  0 ≤ x.scale && x.scale.toNat < digitCount x.mantissa.natAbs &&
    x.mantissa == Int.pow 10 x.scale.toNat

end Decimal

end ChainIngest
