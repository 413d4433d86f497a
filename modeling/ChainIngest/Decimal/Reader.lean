import ChainIngest.Decimal.Basic
import ChainIngest.Number.Numeral

/-!
Reading decimals: an optional sign, digits with at most one point, and an optional exponent.
Underscores may separate digits, except before the first one.
-/

namespace ChainIngest.Decimal

open Number (NumeralError)

/-- Why a text is not a decimal. -/
inductive ReadError where
  | empty
  | numeral (e : NumeralError)
  | exponentOverflow (text : String)
  deriving DecidableEq, Repr

def ReadError.message : ReadError → String
  | .empty => "Failed to parse empty string"
  | .numeral e => e.message
  | .exponentOverflow text => s!"Exponent overflow when parsing '{text}'"

/-- Bound of the exponent's numeral, a signed 128-bit number. -/
def exponentBound : Nat := Nat.pow 2 127 - 1

/-- Bound of the scale, a signed 64-bit number. -/
def scaleBound : Int := Int.pow 2 63

def isExponentMark (c : Char) : Bool := c == 'e' || c == 'E'

/-- The value of digits that may be separated by underscores. -/
def readSeparatedDigits : Nat → List Char → Except NumeralError Nat
  | value, [] => .ok value
  | value, '_' :: rest => readSeparatedDigits value rest
  | value, c :: rest =>
    match Number.digit? c with
    | some d => readSeparatedDigits (value * 10 + d) rest
    | none => .error .invalidDigit

/-- An unsigned mantissa; an underscore must not come first. -/
def readMantissaMagnitude : List Char → Except NumeralError Nat
  | [] => .error .empty
  | '_' :: _ => .error .invalidDigit
  | cs => readSeparatedDigits 0 cs

/-- A mantissa with an optional sign. -/
def readMantissa : List Char → Except NumeralError Int
  | '-' :: rest => (fun n : Nat => -(n : Int)) <$> readMantissaMagnitude rest
  | '+' :: rest => Int.ofNat <$> readMantissaMagnitude rest
  | cs => Int.ofNat <$> readMantissaMagnitude cs

/-- Splits a mantissa at its first point: the text without the point, and how many fractional
digits it has. A point at the very end counts for nothing. -/
def splitPoint (cs : List Char) : List Char × Nat :=
  let lead := cs.takeWhile (· != '.')
  match cs.dropWhile (· != '.') with
  | [] => (cs, 0)
  | _ :: trail => (lead ++ trail, (trail.filter (· != '_')).length)

/-- Reads a decimal. The exponent is read first, then the scale is checked, then the digits. -/
def ofString? (text : String) : Except ReadError Decimal := do
  let cs := text.toList
  let base := cs.takeWhile (!isExponentMark ·)
  let exponent ← match cs.dropWhile (!isExponentMark ·) with
    | [] => pure 0
    | _ :: digits => (Number.readSigned exponentBound digits).mapError .numeral
  if base.isEmpty then throw .empty
  let (digits, fractional) := splitPoint base
  let scale : Int := fractional - exponent
  if scale < -scaleBound ∨ scaleBound ≤ scale then throw (.exponentOverflow text)
  let mantissa ← (readMantissa digits).mapError .numeral
  return ⟨mantissa, scale⟩

end ChainIngest.Decimal
