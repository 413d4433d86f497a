import ChainIngest.Decimal.Basic

/-!
The text of a decimal. Plain notation shows every digit of the mantissa, trailing zeros too;
numbers with many zeros after the point or at the end are written with an exponent.
-/

namespace ChainIngest.Decimal

/-- Zeros between the point and the first digit that plain notation may show. -/
def maxLeadingZeros : Nat := 5

/-- Zeros that may be written after the digits of an integer. -/
def maxTrailingZeros : Nat := 15

/-- The digits of a magnitude as text, `scale` of them fractional. -/
def showFraction (digits : List Char) (scale : Nat) : List Char :=
  let count := digits.length
  if scale < count then
    digits.take (count - scale) ++ '.' :: digits.drop (count - scale)
  else if scale - count ≤ maxLeadingZeros then
    '0' :: '.' :: (List.replicate (scale - count) '0' ++ digits)
  else
    let significand :=
      match digits with
      | lead :: next :: rest => lead :: '.' :: next :: rest
      | short => short
    significand ++ 'E' :: '-' :: (Nat.repr (scale - count + 1)).toList

/-- The digits of a magnitude as text, followed by `zeros` zeros. -/
def showInteger (digits : List Char) (zeros : Nat) : List Char :=
  if zeros ≤ maxTrailingZeros then digits ++ List.replicate zeros '0'
  else digits ++ 'e' :: '+' :: (Nat.repr zeros).toList

/-- The characters of a magnitude at a scale. Zero is `0` at every scale. -/
def showMagnitude (magnitude : Nat) (scale : Int) : List Char :=
  if magnitude = 0 then ['0']
  else
    let digits := (Nat.repr magnitude).toList
    if 0 < scale then showFraction digits scale.toNat else showInteger digits (-scale).toNat

protected def toChars (x : Decimal) : List Char :=
  let magnitude := showMagnitude x.mantissa.natAbs x.scale
  if x.mantissa < 0 then '-' :: magnitude else magnitude

protected def toString (x : Decimal) : String := String.ofList x.toChars

instance : ToString Decimal := ⟨Decimal.toString⟩

end ChainIngest.Decimal
