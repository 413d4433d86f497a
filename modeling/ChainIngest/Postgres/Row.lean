import ChainIngest.Bytes.Address
import ChainIngest.Decimal.Reader
import ChainIngest.Decimal.Display
import ChainIngest.Engine.Query

/-!
Rows of the database: how transfers and price snapshots are written to columns, and how they are
read back. Columns hold signed numbers, so the upper half of the 64-bit numbers is stored as
negative ones.
-/

namespace ChainIngest.Postgres

/-- A transfer's columns. -/
structure TransferRow where
  block : Int64
  logIndex : Int64
  chainId : Int64
  contract : String
  symbol : String
  decimals : Int16
  tx : String
  sender : String
  recipient : String
  /-- The digits of the amount. -/
  amount : String
  timestamp : Int64
  deriving DecidableEq

/-- Why a row's amount is no 256-bit number. -/
inductive AmountError where
  | invalidDigit (c : Char)
  | tooLarge
  deriving DecidableEq, Repr

def AmountError.message : AmountError → String
  | .invalidDigit c => s!"invalid digit: {c}"
  | .tooLarge => "the value is too large to fit the target type"

/-- Why a row cannot be read. -/
inductive RowError where
  | bytes (e : Hex.ReadError)
  | amount (text : String) (e : AmountError)
  | decimal (text : String) (e : Decimal.ReadError)
  | recipient (text : String) (e : Hex.ReadError)
  deriving DecidableEq, Repr

def RowError.causes : RowError → List String
  | .bytes e => [e.message]
  | .amount text e =>
    -- Numbers that are too large are reported by the parser and by the digits it is made of.
    let reasons := match e with
      | .invalidDigit c => [(AmountError.invalidDigit c).message]
      | .tooLarge => [AmountError.tooLarge.message, AmountError.tooLarge.message]
    s!"Invalid transfer amount '{text}'" :: reasons
  | .decimal text e => [s!"Invalid decimal '{text}'", e.message]
  | .recipient text e => [s!"Invalid whitelisted address '{text}'", e.message]

/-- The digits of an amount. -/
def amountText (amount : BitVec 256) : String := Nat.repr amount.toNat

/-- Continues an amount with digits; underscores part them. -/
def extendAmount (value : Nat) : List UInt8 → Except AmountError Nat
  | [] => .ok value
  | byte :: rest =>
    let c := Char.ofNat byte.toNat
    if c = '_' then extendAmount value rest
    else
      match Number.digit? c with
      | none => .error (.invalidDigit c)
      | some d =>
        if value * 10 + d < Nat.pow 2 256 then extendAmount (value * 10 + d) rest
        else .error .tooLarge

/-- Reads an amount, byte by byte. No digits are zero. -/
def readAmount (text : String) : Except AmountError (BitVec 256) :=
  BitVec.ofNat 256 <$> extendAmount 0 text.toUTF8.toList

namespace TransferRow

/-- The columns that a transfer is written to. -/
def ofTransfer (t : Transfer) : TransferRow where
  block := t.block.toInt64
  logIndex := t.index.toInt64
  chainId := t.chainId.toInt64
  contract := Hex.encode t.contract.toList
  symbol := t.symbol
  decimals := Int16.ofNat t.decimals.toNat
  tx := Hex.encode t.tx.toList
  sender := Hex.encode t.sender.toList
  recipient := Hex.encode t.recipient.toList
  amount := amountText t.amount
  timestamp := t.timestamp.toInt64

/-- The transfer in a row. -/
def toTransfer (r : TransferRow) : Except RowError Transfer := do
  let contract ← (Hex.read 20 r.contract).mapError .bytes
  let tx ← (Hex.read 32 r.tx).mapError .bytes
  let sender ← (Hex.read 20 r.sender).mapError .bytes
  let recipient ← (Hex.read 20 r.recipient).mapError .bytes
  let amount ← (readAmount r.amount).mapError (.amount r.amount)
  return {
    block := r.block.toUInt64
    index := r.logIndex.toUInt64
    chainId := r.chainId.toUInt64
    contract
    symbol := r.symbol
    decimals := r.decimals.toUInt16.toUInt8
    tx
    sender
    recipient
    amount
    timestamp := r.timestamp.toUInt64 }

end TransferRow

/-- A snapshot and when it was made. -/
structure DatedSnapshot extends Snapshot where
  /-- In microseconds since 1970. -/
  createdAt : Int
  deriving DecidableEq, Repr

/-- The columns of a snapshot. -/
structure PriceRow where
  createdAt : Int
  /-- The prices, as texts. -/
  token : String
  native : String
  reference : String
  deriving DecidableEq, Repr

namespace PriceRow

def ofSnapshot (s : DatedSnapshot) : PriceRow where
  createdAt := s.createdAt
  token := s.token.toString
  native := s.native.toString
  reference := s.reference.toString

/-- The decimal in a column. -/
def readPrice (text : String) : Except RowError Decimal :=
  (Decimal.ofString? text).mapError (.decimal text)

def toSnapshot (r : PriceRow) : Except RowError DatedSnapshot := do
  let token ← readPrice r.token
  let native ← readPrice r.native
  let reference ← readPrice r.reference
  return { createdAt := r.createdAt, token, native, reference }

end PriceRow

/-- A recipient as the whitelist's table holds it. -/
def readRecipient (text : String) : Except RowError Address :=
  (Hex.read 20 text).mapError (.recipient text)

end ChainIngest.Postgres
