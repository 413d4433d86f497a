/-!
Double-precision numbers as texts and as integers. A number is taken apart into an integer and a
power of two, and everything else is exact arithmetic on natural numbers.
-/

namespace ChainIngest.Binary64

/-- What the bits of a number say. -/
inductive Parts where
  /-- `mantissa * 2 ^ exponent`, negated if so marked. -/
  | finite (negative : Bool) (mantissa : Nat) (exponent : Int)
  | infinite (negative : Bool)
  | notANumber
  deriving DecidableEq, Repr

/-- The exponent of the least significant bit of the smallest numbers. -/
def leastExponent : Int := -1074

/-- The mantissa of numbers whose lower neighbour is nearer than the upper one. -/
def thresholdMantissa : Nat := Nat.pow 2 52

def parts (x : Float) : Parts :=
  let bits : Nat := x.toBits.toNat
  let negative := bits / Nat.pow 2 63 = 1
  let field : Nat := bits / Nat.pow 2 52 % Nat.pow 2 11
  let fraction : Nat := bits % Nat.pow 2 52
  if field = Nat.pow 2 11 - 1 then if fraction = 0 then .infinite negative else .notANumber
  else if field = 0 then .finite negative fraction leastExponent
  else .finite negative (fraction + thresholdMantissa) (leastExponent + field - 1)

/-- A positive fraction. -/
structure Fraction where
  numerator : Nat
  denominator : Nat

/-- `n` quarters of the unit `2 ^ exponent`. -/
def quarters (n : Nat) (exponent : Int) : Fraction :=
  if 0 ≤ exponent - 2 then ⟨n * Nat.pow 2 (exponent - 2).toNat, 1⟩
  else ⟨n, Nat.pow 2 (2 - exponent).toNat⟩

namespace Fraction

/-- `f * 10 ^ k`. -/
def shift (f : Fraction) (k : Int) : Fraction :=
  if 0 ≤ k then ⟨f.numerator * Nat.pow 10 k.toNat, f.denominator⟩
  else ⟨f.numerator, f.denominator * Nat.pow 10 (-k).toNat⟩

/-- The least power of ten, up to `fuel` below `10 ^ k`, that is above the fraction. -/
def magnitudeBelow (f : Fraction) : (fuel : Nat) → (k : Int) → Int
  | 0, k => k
  | fuel + 1, k =>
    let tenth := f.shift (1 - k)
    if tenth.numerator < tenth.denominator then f.magnitudeBelow fuel (k - 1) else k

/-- The power of ten next above a double-precision fraction. -/
def magnitude (f : Fraction) : Int := f.magnitudeBelow 640 310

end Fraction

/-- The decimals that are read as the same number lie between two bounds, which are themselves
read as it if `closed`. -/
structure Interval where
  lower : Fraction
  upper : Fraction
  closed : Bool

/-- Whether an integer lies in an interval shifted by `10 ^ k`. -/
def Interval.holds (i : Interval) (k : Int) (n : Nat) : Bool :=
  let lower := i.lower.shift k
  let upper := i.upper.shift k
  if i.closed then
    lower.numerator ≤ n * lower.denominator && n * upper.denominator ≤ upper.numerator
  else lower.numerator < n * lower.denominator && n * upper.denominator < upper.numerator

/-- The interval of a positive number. -/
def interval (mantissa : Nat) (exponent : Int) : Interval where
  lower :=
    if mantissa = thresholdMantissa ∧ leastExponent < exponent then
      quarters (4 * mantissa - 1) exponent
    else quarters (4 * mantissa - 2) exponent
  upper := quarters (4 * mantissa + 2) exponent
  closed := mantissa % 2 = 0

/-- The fewest digits, from `count` on and at most `fuel` more, that are read back as the number;
of two such decimals the nearer. The answer is the digits and their scale. -/
def searchDigits (value : Fraction) (i : Interval) (magnitude : Int) :
    (fuel count : Nat) → Nat × Int
  | 0, count =>
    let scale := count - magnitude
    let grid := value.shift scale
    (grid.numerator / grid.denominator, scale)
  | fuel + 1, count =>
    let scale := count - magnitude
    let grid := value.shift scale
    let below := grid.numerator / grid.denominator
    let nearerBelow := 2 * (grid.numerator % grid.denominator) ≤ grid.denominator
    match i.holds scale below, i.holds scale (below + 1) with
    | true, true => (if nearerBelow then below else below + 1, scale)
    | true, false => (below, scale)
    | false, true => (below + 1, scale)
    | false, false => searchDigits value i magnitude fuel (count + 1)

/-- The shortest digits of a positive number, with their scale. The search finds a power of ten
just above the number as the digits `10`. -/
def shortest (mantissa : Nat) (exponent : Int) : Nat × Int :=
  let value := quarters (4 * mantissa) exponent
  match searchDigits value (interval mantissa exponent) value.magnitude 17 1 with
  | (10, scale) => (1, scale - 1)
  | found => found

/-- Digits at a scale in positional notation, without zeros that say nothing. -/
def positional (digits : Nat) (scale : Int) : String :=
  let chars := (Nat.repr digits).toList
  if scale ≤ 0 then String.ofList (chars ++ List.replicate (-scale).toNat '0')
  else
    let filled := List.replicate (scale.toNat + 1 - chars.length) '0' ++ chars
    let whole := filled.take (filled.length - scale.toNat)
    let fraction := filled.drop (filled.length - scale.toNat)
    String.ofList (whole ++ '.' :: fraction)

/-- The text of a number: the fewest digits that are read back as it, never with an exponent. -/
def toText (x : Float) : String :=
  match parts x with
  | .notANumber => "NaN"
  | .infinite negative => if negative then "-inf" else "inf"
  | .finite negative mantissa exponent =>
    let magnitude :=
      if mantissa = 0 then "0"
      else
        let (digits, scale) := shortest mantissa exponent
        positional digits scale
    if negative then "-" ++ magnitude else magnitude

/-- The nearest integer from zero to `bound`; a half goes up. -/
def toNat (bound : Nat) (x : Float) : Nat :=
  match parts x with
  | .notANumber => 0
  | .infinite negative => if negative then 0 else bound
  | .finite negative mantissa exponent =>
    if negative then 0
    else if 0 ≤ exponent then min bound (mantissa * Nat.pow 2 exponent.toNat)
    else
      let unit := Nat.pow 2 (-exponent).toNat
      min bound ((2 * mantissa + unit) / (2 * unit))

/-- Whether the number is zero, of either sign. -/
def isZero (x : Float) : Bool :=
  match parts x with
  | .finite _ mantissa _ => mantissa == 0
  | _ => false

end ChainIngest.Binary64
