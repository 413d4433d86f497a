import ChainIngest.Number.Numeral

/-!
Double-precision numbers from decimal texts: a sign, digits with a point somewhere, and an exponent.
-/

namespace ChainIngest.Binary64

/-- The value of decimal digits. -/
def valueOfDigits (digits : List Char) : Nat :=
  digits.foldl (fun n c => n * 10 + (c.toNat - '0'.toNat)) 0

/-- Decimals from `10 ^ 310` on are infinite. -/
def greatestMagnitude : Int := 310

/-- Decimals below `10 ^ -330` are zero. -/
def leastMagnitude : Int := -330

/-- The double nearest to `digits * 10 ^ exponent`. -/
def ofDecimal (digits : Nat) (exponent : Int) : Float :=
  let magnitude : Int := (Nat.repr digits).length + exponent
  if digits = 0 ∨ magnitude < leastMagnitude then 0.0
  else if greatestMagnitude < magnitude then 1.0 / 0.0
  else Float.ofScientific digits (exponent < 0) exponent.natAbs

/-- The exponent after the digits of a number, zero if there is none. -/
def readExponent? : List Char → Option Int
  | [] => some 0
  | e :: rest =>
    if e ≠ 'e' ∧ e ≠ 'E' then none
    else
      let (negative, digits) := match rest with
        | '-' :: digits => (true, digits)
        | '+' :: digits => (false, digits)
        | digits => (false, digits)
      if digits.isEmpty || !digits.all Char.isDigit then none
      else some (if negative then -valueOfDigits digits else valueOfDigits digits)

/-- A number without its sign. -/
def readMagnitude? (cs : List Char) : Option Float := do
  let (whole, rest) := cs.span Char.isDigit
  let (fraction, rest) := match rest with
    | '.' :: rest => rest.span Char.isDigit
    | _ => ([], rest)
  if whole.isEmpty && fraction.isEmpty then none
  let exponent ← readExponent? rest
  return ofDecimal (valueOfDigits (whole ++ fraction)) (exponent - fraction.length)

/-- Reads a whole text as a number. -/
def read? : List Char → Option Float
  | '-' :: rest => (-·) <$> readMagnitude? rest
  | '+' :: rest => readMagnitude? rest
  | cs => readMagnitude? cs

end ChainIngest.Binary64
