import ChainIngest.Decimal.Basic

/-!
Division of decimals by long division. Digits are produced until the quotient is exact or has
`quotientDigits` significant digits; the last one is then rounded by what remains.
-/

namespace ChainIngest.Decimal

/-- Significant digits of an inexact quotient. -/
def quotientDigits : Nat := 100

/-- Long division under way: `quotient` is what has been divided out, at `scale` fractional
digits, and `remainder` is what is left of the dividend. -/
structure LongDivision where
  quotient : Nat
  remainder : Nat
  scale : Int
  deriving DecidableEq, Repr

namespace LongDivision

/-- A dividend grown by zeros until it reaches the divisor, with the scale that makes up for
them. -/
def grow (dividend divisor : Nat) (scale : Int) : Nat × Int :=
  if dividend = 0 ∨ divisor ≤ dividend then (dividend, scale)
  else grow (dividend * 10) divisor (scale + 1)
termination_by divisor - dividend
decreasing_by omega

def start (dividend divisor : Nat) (scale : Int) : LongDivision :=
  let (dividend, scale) := grow dividend divisor scale
  ⟨dividend / divisor, dividend % divisor, scale⟩

/-- Produces further digits, at most `room` of them, until nothing remains. -/
def extend (divisor : Nat) : Nat → LongDivision → LongDivision
  | 0, d => d
  | room + 1, d =>
    if d.remainder = 0 then d
    else extend divisor room
      ⟨d.quotient * 10 + d.remainder * 10 / divisor, d.remainder * 10 % divisor, d.scale + 1⟩

/-- The quotient, rounded up when at least half a unit of its last digit remains. -/
def rounded (divisor : Nat) (d : LongDivision) : Nat :=
  if d.remainder ≠ 0 ∧ divisor ≤ 2 * d.remainder then d.quotient + 1 else d.quotient

end LongDivision

/-- The quotient of two positive integers, with the scale of an exact quotient given. -/
def divMagnitudes (dividend divisor : Nat) (scale : Int) : Nat × Int :=
  let first := LongDivision.start dividend divisor scale
  let last := first.extend divisor (quotientDigits - digitCount first.quotient)
  (last.rounded divisor, last.scale)

/-- The quotient of `x` by `y`, for `y` not zero. Division of zero and division by one give `x`
itself, equal mantissas give one, at the scale of the quotient. -/
def div (x y : Decimal) : Decimal :=
  if x.isZero || y.isOne then x
  else if x.mantissa = y.mantissa then ⟨1, x.scale - y.scale⟩
  else
    let (quotient, scale) :=
      divMagnitudes x.mantissa.natAbs y.mantissa.natAbs (x.scale - y.scale)
    ⟨x.mantissa.sign * y.mantissa.sign * quotient, scale⟩

end ChainIngest.Decimal
