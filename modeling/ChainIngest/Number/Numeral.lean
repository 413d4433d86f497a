/-!
Integers written in decimal digits, with bounds. Reading stops at the first character that makes
the text unreadable, so a text with two faults reports the leftmost one.
-/

namespace ChainIngest.Number

/-- Why a text is not an integer within bounds. -/
inductive NumeralError where
  | empty
  | invalidDigit
  | tooLarge
  | tooSmall
  deriving DecidableEq, Repr

def NumeralError.message : NumeralError → String
  | .empty => "cannot parse integer from empty string"
  | .invalidDigit => "invalid digit found in string"
  | .tooLarge => "number too large to fit in target type"
  | .tooSmall => "number too small to fit in target type"

/-- The value of a decimal digit. -/
def digit? (c : Char) : Option Nat :=
  if '0' ≤ c ∧ c ≤ '9' then some (c.toNat - '0'.toNat) else none

/-- Continues a magnitude with digits as long as it stays within `bound`. -/
def extendMagnitude (bound : Nat) (overflow : NumeralError) :
    Nat → List Char → Except NumeralError Nat
  | value, [] => .ok value
  | value, c :: rest =>
    match digit? c with
    | none => .error .invalidDigit
    | some d =>
      if value * 10 + d ≤ bound then extendMagnitude bound overflow (value * 10 + d) rest
      else .error overflow

/-- Digits after a sign. -/
def readMagnitude (bound : Nat) (overflow : NumeralError) :
    List Char → Except NumeralError Nat
  | [] => .error .invalidDigit
  | cs => extendMagnitude bound overflow 0 cs

/-- An unsigned integer of at most `bound`, with an optional plus sign. -/
def readUnsigned (bound : Nat) : List Char → Except NumeralError Nat
  | [] => .error .empty
  | '+' :: rest => readMagnitude bound .tooLarge rest
  | cs => extendMagnitude bound .tooLarge 0 cs

/-- An integer from `-(bound + 1)` to `bound`, with an optional sign. -/
def readSigned (bound : Nat) : List Char → Except NumeralError Int
  | [] => .error .empty
  | '+' :: rest => Int.ofNat <$> readMagnitude bound .tooLarge rest
  | '-' :: rest => (fun n : Nat => -(n : Int)) <$> readMagnitude (bound + 1) .tooSmall rest
  | cs => Int.ofNat <$> extendMagnitude bound .tooLarge 0 cs

/-- A 64-bit block height, index or count. -/
def readUInt64 (text : String) : Except NumeralError UInt64 :=
  UInt64.ofNat <$> readUnsigned (UInt64.size - 1) text.toList

/-- The decimal text of a 64-bit number. -/
def showUInt64 (n : UInt64) : String := Nat.repr n.toNat

end ChainIngest.Number
