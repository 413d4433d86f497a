import ChainIngest.Chain.Event
import ChainIngest.Chain.SignedTransaction
import ChainIngest.Rpc.Quantity

/-!
Blocks, transactions and logs in a node's messages. A message that lacks a field it must have, or
has one that cannot be read, is refused as a whole.
-/

namespace ChainIngest.Rpc

/-- A field that must be there. -/
def need (d : Document) (key : String) (read : Document → Option α) : Option α :=
  (d.get? key).bind read

/-- A field that may be missing or null. -/
def may (d : Document) (key : String) (read : Document → Option α) : Option (Option α) :=
  match d.get? key with
  | none | some .null => some none
  | some value => some <$> read value

def listOf? (read : Document → Option α) : Document → Option (List α)
  | .list items => items.mapM read
  | _ => none

/-- A list that may be missing or null. -/
def mayList (d : Document) (key : String) (read : Document → Option α) : Option (List α) :=
  (·.getD []) <$> may d key (listOf? read)

/-! ### Transactions -/

def accessEntry? (d : Document) : Option AccessEntry := do
  return ⟨← need d "address" (bytes? 20), ← need d "storageKeys" (listOf? (bytes? 32))⟩

def authorization? (d : Document) : Option Authorization := do
  return {
    chainId := ← need d "chainId" (quantity? 256)
    contract := ← need d "address" (bytes? 20)
    nonce := ← need d "nonce" height?
    odd := ← need d "yParity" (quantity? 8)
    r := ← need d "r" (quantity? 256)
    s := ← need d "s" (quantity? 256) }

/-- A parity that is written as a number. -/
def parity? : Nat → Option Bool
  | 0 => some false
  | 1 => some true
  | _ => none

/-- The parity of the oldest kind of signature, and the chain it is bound to. -/
def plainParity? (v : Nat) : Option (Bool × Option Nat) :=
  if v = 27 ∨ v = 28 then some (v == 28, none)
  else if 35 ≤ v then some ((v - 35) % 2 == 1, some ((v - 35) / 2))
  else none

/-- The parity of a signature; if it is written twice, both must agree. -/
def signatureParity? (d : Document) : Option Bool := do
  let odd ← may d "yParity" (quantity? 64)
  let v ← may d "v" (quantity? 64)
  match odd, v with
  | some odd, some v => if odd = v then parity? odd else none
  | some n, none | none, some n => parity? n
  | none, none => none

def dynamicFee? (d : Document) : Option DynamicFee := do
  return ⟨← need d "maxPriorityFeePerGas" (quantity? 128), ← need d "maxFeePerGas" (quantity? 128)⟩

/-- The kind of a transaction that is not of the oldest kind. -/
def laterKind? (d : Document) (type : Nat) : Option TransactionKind := do
  let chainId ← need d "chainId" (quantity? 64)
  let access ← mayList d "accessList" accessEntry?
  match type with
  | 1 => return .withAccessList chainId (← need d "gasPrice" (quantity? 128)) access
  | 2 => return .withDynamicFee chainId (← dynamicFee? d) access
  | 3 =>
    return .withBlobs chainId (← dynamicFee? d) access
      (← need d "maxFeePerBlobGas" (quantity? 128))
      (← need d "blobVersionedHashes" (listOf? (bytes? 32)))
  | 4 =>
    return .withAuthorizations chainId (← dynamicFee? d) access
      (← need d "authorizationList" (listOf? authorization?))
  | _ => none

/-- The kind of a transaction, and the parity of its signature. -/
def kind? (d : Document) : Option (TransactionKind × Bool) := do
  let type ← may d "type" (quantity? 8)
  match type.getD 0 with
  | 0 =>
    let (odd, bound) ← plainParity? (← need d "v" (quantity? 64))
    let told ← may d "chainId" (quantity? 64)
    match told, bound with
    | some told, some bound => if told ≠ bound then none
    | _, _ => pure ()
    return (.plain (← need d "gasPrice" (quantity? 128)) bound, odd)
  | type => return (← laterKind? d type, ← signatureParity? d)

def signedTransaction? (d : Document) : Option SignedTransaction := do
  let (kind, odd) ← kind? d
  return {
    kind
    nonce := ← need d "nonce" height?
    gas := ← need d "gas" height?
    recipient := ← may d "to" (bytes? 20)
    value := BitVec.ofNat 256 (← need d "value" (quantity? 256))
    input := ← need d "input" data?
    signature := ⟨← need d "r" (quantity? 256), ← need d "s" (quantity? 256), odd⟩ }

/-- A transaction at a position of its block. The sender is who signed it, whatever the message
says. -/
def transaction? (position : Nat) (d : Document) : Option Transaction := do
  let _ ← need d "from" (bytes? 20)
  let hash ← need d "hash" (bytes? 32)
  let signed ← signedTransaction? d
  return {
    hash
    position := UInt64.ofNat position
    sender := signed.sender?
    recipient := signed.recipient
    value := signed.value }

/-- Transactions from a position on. -/
def transactionsFrom? (position : Nat) : List Document → Option (List Transaction)
  | [] => some []
  | d :: rest => do
    return (← transaction? position d) :: (← transactionsFrom? (position + 1) rest)

/-! ### Blocks -/

/-- The fields that every block's header has. -/
def isHeader (d : Document) : Bool :=
  let hashes := ["hash", "parentHash", "sha3Uncles", "stateRoot", "transactionsRoot", "receiptsRoot"]
  let numbers := ["number", "gasLimit", "gasUsed", "timestamp"]
  hashes.all (fun key => (need d key (bytes? 32)).isSome) &&
    numbers.all (fun key => (need d key (quantity? 64)).isSome) &&
    (need d "miner" (bytes? 20)).isSome && (need d "logsBloom" (bytes? 256)).isSome &&
    (need d "difficulty" (quantity? 256)).isSome && (need d "extraData" data?).isSome

/-- What a node tells of a block. Some nodes tell the hashes of its transactions only. -/
structure NodeBlock where
  timestamp : UInt64
  transactions : Option (List Transaction)
  deriving DecidableEq, Repr

def nodeTransactions? (d : Document) : Option (Option (List Transaction)) :=
  match d.get? "transactions" with
  | none | some (.list []) => some (some [])
  | some (.list items) =>
    match items.mapM (bytes? 32) with
    | some _ => some none
    | none => some <$> transactionsFrom? 0 items
  | some _ => none

def nodeBlock? (d : Document) : Option NodeBlock := do
  if !isHeader d then none
  return ⟨← need d "timestamp" height?, ← nodeTransactions? d⟩

/-! ### Logs and results of calls -/

def eventLog? (d : Document) : Option EventLog := do
  let _ ← need d "address" (bytes? 20)
  return {
    block := ← may d "blockNumber" height?
    blockHash := ← may d "blockHash" (bytes? 32)
    timestamp := ← may d "blockTimestamp" height?
    index := ← may d "logIndex" height?
    tx := ← may d "transactionHash" (bytes? 32)
    topics := ← need d "topics" (listOf? (bytes? 32))
    data := ← need d "data" data? }

/-- Word number `index` of at least `count` words. -/
def word? (count index : Nat) (d : Document) : Option (BitVec 256) := do
  let bytes ← data? d
  if bytes.length < 32 * count then none
  return wordOfBytes (bytes.drop (32 * index))

end ChainIngest.Rpc
