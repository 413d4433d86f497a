import ChainIngest.Checkpoint.Map
import ChainIngest.Engine.Query
import ChainIngest.Ledger

/-!
The store in memory: checkpoints, the ledger of transfers, the ledger of prices, and the
recipients stored for each chain.
-/

namespace ChainIngest

structure Store where
  checkpoints : Checkpoints
  ledger : Ledger
  prices : List Snapshot
  /-- Stored recipients with their chain ids, in the order they were added. -/
  recipients : List (UInt64 × Address)
  deriving DecidableEq, Repr

namespace Store

def empty : Store := ⟨.empty, .empty, [], []⟩

def read (s : Store) (key default : String) : String × Store :=
  let (value, checkpoints) := s.checkpoints.getOrCreate key default
  (value, { s with checkpoints })

def write (s : Store) (key value : String) : Store :=
  { s with checkpoints := s.checkpoints.put key value }

def insertTransfer (s : Store) (t : Transfer) : Bool × Store :=
  let (added, ledger) := s.ledger.insert t
  (added, { s with ledger })

def insertSnapshot (s : Store) (snapshot : Snapshot) : Store :=
  { s with prices := s.prices ++ [snapshot] }

def latestSnapshot (s : Store) : Option Snapshot := s.prices.getLast?

def addRecipient (s : Store) (chainId : UInt64) (address : Address) : Store :=
  { s with recipients := s.recipients ++ [(chainId, address)] }

def whitelist (s : Store) (chainId : UInt64) : List Address :=
  (s.recipients.filter (·.1 == chainId)).map (·.2)

end Store

end ChainIngest
