import ChainIngest.Decimal.Basic

/-!
A decimal at a given number of significant digits.
-/

namespace ChainIngest.Decimal

/-- `x` with `digits` significant digits. Zeros are appended to a shorter mantissa. Of a longer
one the rest is dropped, and a positive number is rounded up when the rest is at least half; a
carry out of the leading digit leaves one digit more. -/
def withPrecision (digits : Nat) (x : Decimal) : Decimal :=
  let count := digitCount x.mantissa.natAbs
  if digits < count then
    let dropped := count - digits
    let unit := Int.pow 10 dropped
    let kept := x.mantissa.tdiv unit
    let rest := x.mantissa.tmod unit
    ⟨if unit ≤ 2 * rest then kept + 1 else kept, x.scale - dropped⟩
  else
    let added := digits - count
    ⟨x.mantissa * Int.pow 10 added, x.scale + added⟩

end ChainIngest.Decimal
