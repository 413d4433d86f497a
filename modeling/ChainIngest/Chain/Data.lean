import ChainIngest.Bytes

/-!
What a chain tells: blocks with their transactions, event logs and new headers.
-/

namespace ChainIngest

/-- A transaction of a block. -/
structure Transaction where
  hash : Hash
  position : UInt64
  /-- Missing when the signature gives no signer. -/
  sender : Option Address
  /-- Missing when the transaction creates a contract. -/
  recipient : Option Address
  value : BitVec 256
  deriving DecidableEq, Repr

structure Block where
  number : UInt64
  timestamp : UInt64
  transactions : List Transaction
  deriving DecidableEq, Repr

/-- An event log. Nodes leave the position of pending logs out. -/
structure EventLog where
  block : Option UInt64
  blockHash : Option Hash
  timestamp : Option UInt64
  index : Option UInt64
  tx : Option Hash
  topics : List Hash
  data : List UInt8
  deriving DecidableEq, Repr

end ChainIngest
