import ChainIngest.Bytes
import ChainIngest.Text.Casing

/-!
Transfers of value, and what makes two records of one the same.
-/

namespace ChainIngest

/-- What a transfer is known by: no ledger holds two rows with one identity. -/
structure TransferId where
  chainId : UInt64
  tx : Hash
  index : UInt64
  deriving DecidableEq, Repr

/-- One transfer of a native asset or a token. -/
structure Transfer where
  block : UInt64
  /-- The log's index, or a native transfer's position in its block. -/
  index : UInt64
  chainId : UInt64
  /-- The token's contract; the zero address for a native asset. -/
  contract : Address
  symbol : String
  decimals : UInt8
  tx : Hash
  sender : Address
  recipient : Address
  amount : BitVec 256
  /-- When the block was made, in seconds since 1970. -/
  timestamp : UInt64
  deriving DecidableEq, Repr

/-- The values of a transfer event. -/
structure TransferEvent where
  sender : Address
  recipient : Address
  amount : BitVec 256
  deriving DecidableEq, Repr

namespace Transfer

def id (t : Transfer) : TransferId := ⟨t.chainId, t.tx, t.index⟩

/-- The asset that a record names. -/
structure AssetName where
  chainId : UInt64
  symbol : String
  decimals : UInt8

/-- Where a transfer stands on its chain, and when it was made. -/
structure Position where
  block : UInt64
  index : UInt64
  tx : Hash
  timestamp : UInt64

/-- A native transfer. Without a recipient it goes to the zero address. -/
def ofNative (asset : AssetName) (place : Position) (sender : Address)
    (recipient : Option Address) (amount : BitVec 256) : Transfer where
  block := place.block
  index := place.index
  chainId := asset.chainId
  contract := Bytes.zero 20
  symbol := Text.uppercase asset.symbol
  decimals := asset.decimals
  tx := place.tx
  sender
  recipient := recipient.getD (Bytes.zero 20)
  amount
  timestamp := place.timestamp

/-- A token transfer, from an event of the token's contract. -/
def ofEvent (asset : AssetName) (contract : Address) (place : Position)
    (event : TransferEvent) : Transfer where
  block := place.block
  index := place.index
  chainId := asset.chainId
  contract
  symbol := Text.uppercase asset.symbol
  decimals := asset.decimals
  tx := place.tx
  sender := event.sender
  recipient := event.recipient
  amount := event.amount
  timestamp := place.timestamp

/-- Blocks built on top of the transfer's block, given the head. -/
def confirmations (t : Transfer) (head : UInt64) : UInt64 :=
  if t.block ≤ head then head - t.block else 0

end Transfer

end ChainIngest
