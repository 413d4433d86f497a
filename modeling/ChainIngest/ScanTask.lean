import ChainIngest.Settings
import ChainIngest.Bytes.Address
import ChainIngest.Checkpoint.Key

/-!
Scan tasks: one stream of transfers, of one asset on one chain.
-/

namespace ChainIngest

/-- What a task looks for. -/
inductive Asset where
  /-- Transactions with a value, to recipients on the whitelist. -/
  | native
  /-- Transfer events of a contract. -/
  | token (contract : Address)
  deriving DecidableEq, Repr

/-- A stream to keep scanned. Range, overlap and start block are the first values of the
task's checkpoints; what the store holds already goes before them. -/
structure ScanTask where
  chain : String
  chainId : UInt64
  symbol : String
  asset : Asset
  decimals : UInt8
  enabled : Bool
  scanRange : UInt64
  overlap : UInt64
  startBlock : UInt64
  deriving DecidableEq, Repr

namespace ScanTask

def ofNative (chain : ChainSettings) (native : NativeAssetSettings) : ScanTask where
  chain := chain.name
  chainId := chain.chainId
  symbol := Text.uppercase native.symbol
  asset := .native
  decimals := native.decimals
  enabled := native.enabled
  scanRange := native.scanRange
  overlap := native.overlap
  startBlock := chain.startBlock

def ofToken (chain : ChainSettings) (token : TokenSettings) : Except Address.ReadError ScanTask := do
  let contract ← Address.read token.address
  return {
    chain := chain.name
    chainId := chain.chainId
    symbol := Text.uppercase token.symbol
    asset := .token contract
    decimals := token.decimals
    enabled := token.enabled
    scanRange := token.scanRange
    overlap := token.overlap
    startBlock := chain.startBlock }

/-- The tasks of a chain: the native asset first, then the tokens in their order. -/
def ofChain (chain : ChainSettings) : Except Address.ReadError (List ScanTask) := do
  let tokens ← chain.tokens.mapM (ofToken chain)
  return (chain.native.map (ofNative chain)).toList ++ tokens

/-- The contract of a token task. -/
def contract? (t : ScanTask) : Option Address :=
  match t.asset with
  | .native => none
  | .token contract => some contract

/-- What messages call the task. -/
def label (t : ScanTask) : String := s!"{t.chain}/{t.symbol}"

def lastBlockKey (t : ScanTask) : String := CheckpointKey.lastBlock t.chain t.symbol

def scanRangeKey (t : ScanTask) : String := CheckpointKey.scanRange t.chain t.symbol

def overlapKey (t : ScanTask) : String := CheckpointKey.overlap t.chain t.symbol

def headKey (t : ScanTask) : String := CheckpointKey.head t.chain

end ScanTask

end ChainIngest
