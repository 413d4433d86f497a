import ChainIngest.Decimal.Division
import ChainIngest.Decimal.Precision

/-!
Prices, in cents, from oracle answers and the state of a liquidity pool.
-/

namespace ChainIngest.Price

/-- Decimal places by which an oracle answer is shifted. Answers carry eight places of a dollar,
so six leave cents. -/
def oracleScale : Int := 6

/-- Significant digits of a derived price. -/
def derivedDigits : Nat := 18

/-- The price an oracle reports, from its signed 256-bit answer. -/
def ofOracleAnswer (answer : BitVec 256) : Decimal := ⟨answer.toInt, oracleScale⟩

/-- The square of the factor by which a pool's square-root price is scaled. -/
def poolUnit : Decimal := .ofInt (Int.pow 2 192)

/-- What one unit of a pool's second asset costs in units of its first: the square of the
square-root price, unscaled. -/
def ofPool (sqrtPrice : BitVec 256) : Decimal :=
  let root := Decimal.ofInt sqrtPrice.toNat
  (root.mul root).div poolUnit

/-- The token's price from the native asset's price and the pool price. It is zero only when one
of them is: a pool without a price is not divided by. -/
def derive (native pool : Decimal) : Decimal :=
  if pool.isZero || native.isZero then .zero
  else (native.div pool).withPrecision derivedDigits

/-- `fallback` in place of a price that is exactly zero. -/
def orFallback (fallback price : Decimal) : Decimal :=
  if price.isZero then fallback else price

end ChainIngest.Price
