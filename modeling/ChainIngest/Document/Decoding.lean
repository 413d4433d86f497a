import ChainIngest.Document.Value
import ChainIngest.Number.Binary64
import ChainIngest.Number.Numeral
import ChainIngest.Text.Casing

/-!
Structures from documents. A structure is written as a table of its fields or as a list of them in
their order. What counts as a text, a number or a truth value is a matter of the dialect.
-/

namespace ChainIngest.Document

/-- A step from a document to a part of it. -/
inductive Step where
  | field (name : String)
  | item (index : Nat)
  deriving DecidableEq, Repr

/-- A path as it is shown: names are parted by points, and an index stands in brackets. -/
def showPath : List Step → String
  | [] => ""
  | .field name :: .field next :: rest => name ++ "." ++ showPath (.field next :: rest)
  | .field name :: rest => name ++ showPath rest
  | .item index :: rest => s!"[{index}]" ++ showPath rest

/-- Why a document is not a structure. -/
inductive DecodeError where
  | missing (path : List Step)
  | invalid (path : List Step)
  deriving DecidableEq, Repr

/-- The error as seen from the document that the step starts at. -/
def DecodeError.inside (step : Step) : DecodeError → DecodeError
  | .missing path => .missing (step :: path)
  | .invalid path => .invalid (step :: path)

/-- Reads a document as an `α`. -/
abbrev Decoder (α : Type) := Document → Except DecodeError α

/-- What single values may look like. -/
structure Dialect where
  text? : Document → Option String
  natural? : Document → Option Nat
  bool? : Document → Option Bool
  /-- What may be written beside the name of an alternative. -/
  isPayload : Document → Bool
  /-- Whether a list may go on after the last field of a structure. -/
  allowsExtraItems : Bool

/-- Every value is written as what it is. -/
def Dialect.strict : Dialect where
  text?
    | .text s => some s
    | _ => none
  natural?
    | .integer n => if 0 ≤ n then some n.toNat else none
    | _ => none
  bool?
    | .bool b => some b
    | _ => none
  isPayload
    | .null => true
    | _ => false
  allowsExtraItems := false

/-- The greatest number that is read from a text or a double. -/
def maxNatural : Nat := UInt64.size - 1

/-- Words for truth values are one and zero; other texts are numerals. -/
def naturalOfText (s : String) : Option Nat :=
  match Text.lowercase s with
  | "true" | "on" | "yes" => some 1
  | "false" | "off" | "no" => some 0
  | _ => (Number.readUnsigned maxNatural s.toList).toOption

/-- Numbers and words for truth values, in any case. -/
def boolOfText (s : String) : Option Bool :=
  match Text.lowercase s with
  | "1" | "true" | "on" | "yes" => some true
  | "0" | "false" | "off" | "no" => some false
  | _ => none

/-- Texts, numbers and truth values stand for one another where that makes sense: doubles are
rounded to numbers, and a number is true unless it is zero. -/
def Dialect.lenient : Dialect where
  text?
    | .text s => some s
    | .bool b => some (if b then "true" else "false")
    | .integer n => some (toString n)
    | .float x => some (Binary64.toText x)
    | _ => none
  natural?
    | .integer n => if 0 ≤ n then some n.toNat else none
    | .text s => naturalOfText s
    | .bool b => some (if b then 1 else 0)
    | .float x => some (Binary64.toNat maxNatural x)
    | _ => none
  bool?
    | .bool b => some b
    | .integer n => some (n != 0)
    | .float x => some (!Binary64.isZero x)
    | .text s => boolOfText s
    | _ => none
  isPayload _ := true
  allowsExtraItems := true

/-- The value, or an error at this very place. -/
def orInvalid : Option α → Except DecodeError α
  | some value => .ok value
  | none => .error (.invalid [])

namespace Dialect

variable (δ : Dialect)

def text : Decoder String := fun d => orInvalid (δ.text? d)

def bool : Decoder Bool := fun d => orInvalid (δ.bool? d)

/-- A number of at most `bound`. -/
def natural (bound : Nat) : Decoder Nat := fun d =>
  orInvalid ((δ.natural? d).filter (· ≤ bound))

def word8 : Decoder UInt8 := fun d => UInt8.ofNat <$> δ.natural (UInt8.size - 1) d

def word16 : Decoder UInt16 := fun d => UInt16.ofNat <$> δ.natural (UInt16.size - 1) d

def word64 : Decoder UInt64 := fun d => UInt64.ofNat <$> δ.natural (UInt64.size - 1) d

/-- One of several named alternatives: its name, or a table with its name as the only key. -/
def alternative (cases : List (String × α)) : Decoder α
  | .text name => orInvalid (cases.lookup name)
  | .table [(name, payload)] =>
    if δ.isPayload payload then orInvalid (cases.lookup name) else .error (.invalid [])
  | _ => .error (.invalid [])

end Dialect

/-- A value that may be left out by writing null. -/
def optional (decode : Decoder α) : Decoder (Option α)
  | .null => .ok none
  | d => some <$> decode d

/-- The items of a list, from number `index` on. -/
def decodeItems (decode : Decoder α) (index : Nat) : List Document → Except DecodeError (List α)
  | [] => .ok []
  | item :: rest => do
    let value ← (decode item).mapError (.inside (.item index))
    return value :: (← decodeItems decode (index + 1) rest)

def listOf (decode : Decoder α) : Decoder (List α)
  | .list items => decodeItems decode 0 items
  | _ => .error (.invalid [])

/-- Accepts what can hold the fields of a structure. -/
def checkShape (δ : Dialect) (fieldCount : Nat) : Decoder Unit
  | .table _ => .ok ()
  | .list items =>
    if δ.allowsExtraItems || items.length ≤ fieldCount then .ok () else .error (.invalid [])
  | _ => .error (.invalid [])

/-- A field of a structure if it is there, by its name or its place. -/
def field? (d : Document) (index : Nat) (name : String) (decode : Decoder α) :
    Except DecodeError (Option α) :=
  match d with
  | .table entries =>
    match entries.lookup name with
    | some value => some <$> (decode value).mapError (.inside (.field name))
    | none => .ok none
  | .list items =>
    match items[index]? with
    | some value => some <$> (decode value).mapError (.inside (.item index))
    | none => .ok none
  | _ => .ok none

/-- A field that must be there. A list that is too short is invalid as a whole. -/
def required (d : Document) (name : String) : Option α → Except DecodeError α
  | some value => .ok value
  | none =>
    match d with
    | .list _ => .error (.invalid [])
    | _ => .error (.missing [.field name])

end ChainIngest.Document
