import ChainIngest.Chain.Data
import ChainIngest.Network
import ChainIngest.Rpc.Decoding
import ChainIngest.Rpc.Url

/-!
Clients of nodes. Every call is one request, except that the times of blocks are remembered: a
time that is asked for again needs no request as long as it has not been forgotten.
-/

namespace ChainIngest.Rpc

/-- A connection to the node of a chain. -/
structure Client where
  chain : String
  url : String
  hasSocket : Bool
  /-- Milliseconds that a call may take. -/
  timeout : Nat
  deriving DecidableEq, Repr

/-- Why a call, or connecting, has no result. -/
inductive CallError where
  | invalidUrl (chain : String)
  | socketTimedOut (chain : String)
  | socketFailed (chain : String)
  | failed (call chain : String)
  | timedOut (call chain : String) (timeout : Nat)
  | wrongChain (chain : String) (served expected : UInt64)
  | noBlock (number : UInt64) (chain : String)
  | hashesOnly (number : UInt64)
  | noSocket (chain : String)
  deriving DecidableEq, Repr

/-- Some milliseconds, in seconds from one second on. -/
def showTime (milliseconds : Nat) : String :=
  if milliseconds < 1000 then s!"{milliseconds}ms"
  else if milliseconds % 1000 = 0 then s!"{milliseconds / 1000}s"
  else
    let thousandths := (Nat.toDigits 10 (1000 + milliseconds % 1000)).drop 1
    let kept := (thousandths.reverse.dropWhile (· == '0')).reverse
    s!"{milliseconds / 1000}.{String.ofList kept}s"

def CallError.message : CallError → String
  | .invalidUrl chain => s!"Invalid RPC URL for chain {chain}"
  | .socketTimedOut chain => s!"Websocket connect to {chain} timed out"
  | .socketFailed chain => s!"Failed to connect websocket for {chain}"
  | .failed call chain => s!"{call} on {chain} failed"
  | .timedOut call chain timeout => s!"{call} on {chain} timed out after {showTime timeout}"
  | .wrongChain chain served expected =>
    s!"RPC for {chain} serves chain id {served}, expected {expected}"
  | .noBlock number chain => s!"Block {number} not found on {chain}"
  | .hashesOnly number => s!"Node returned transaction hashes only for block {number}"
  | .noSocket chain => s!"No websocket endpoint configured for {chain}"

/-- A program that may stop with an error of a call. -/
abbrev Call (α : Type) := ExceptT CallError (Program Network) α

namespace Client

/-- Asks a node and reads the result. What cannot be read is a failure of the call. -/
def request (c : Client) (call : String) (r : Request) (read : Document → Option α) : Call α := do
  match ← Network.ask (.request c.url r) with
  | .error .timedOut => throw (.timedOut call c.chain c.timeout)
  | .error _ => throw (.failed call c.chain)
  | .ok result =>
    match read result with
    | some value => return value
    | none => throw (.failed call c.chain)

def chainId (c : Client) : Call UInt64 := c.request "eth_chainId" ⟨"eth_chainId", none⟩ height?

def origin : String := "pricefeed::chain::rpc"

/-- Opens the socket of a chain, if it is to have one. -/
def openSocket (settings : ChainSettings) : Call Bool := do
  match settings.wsUrl with
  | none => return false
  | some url =>
    match ← Network.ask (.openSocket url) with
    | .ok () => return true
    | .error .timedOut => throw (.socketTimedOut settings.name)
    | .error _ => throw (.socketFailed settings.name)

/-- Connects to the node of a chain and checks that it serves that chain. -/
def connect (settings : ChainSettings) (timeout : Nat) : Call Client := do
  if !Url.isValid settings.rpcUrl then throw (.invalidUrl settings.name)
  let hasSocket ← openSocket settings
  let client : Client := ⟨settings.name, settings.rpcUrl, hasSocket, timeout⟩
  let served ← client.chainId
  if served ≠ settings.chainId then
    throw (.wrongChain settings.name served settings.chainId)
  Network.ask (.log ⟨.info, origin, s!"Connected to {settings.name} (chain id {served})"⟩)
  return client

def headHeight (c : Client) : Call UInt64 :=
  c.request "eth_blockNumber" ⟨"eth_blockNumber", none⟩ height?

/-- A result that is null if there is none. -/
def optional (read : Document → Option α) : Document → Option (Option α)
  | .null => some none
  | d => some <$> read d

/-- Asks for a block, and remembers its time if `accept` has a use for it. -/
def fetchBlock (c : Client) (number : UInt64) (full : Bool)
    (accept : NodeBlock → Except CallError α) : Call (NodeBlock × α) := do
  let r : Request :=
    ⟨"eth_getBlockByNumber", some (.list [quantity number.toNat, .bool full])⟩
  match ← c.request "eth_getBlockByNumber" r (optional nodeBlock?) with
  | none => throw (.noBlock number c.chain)
  | some block =>
    let value ← accept block
    Network.ask (.rememberTime c.chain number block.timestamp)
    return (block, value)

/-- The transactions of a block, which must be there in full. -/
def transactionsOf (number : UInt64) (block : NodeBlock) : Except CallError (List Transaction) :=
  match block.transactions with
  | some transactions => .ok transactions
  | none => .error (.hashesOnly number)

/-- A block with its transactions. It has the number that it was asked for with. -/
def block (c : Client) (number : UInt64) : Call Block := do
  let (block, transactions) ← c.fetchBlock number true (transactionsOf number)
  return ⟨number, block.timestamp, transactions⟩

/-- When a block was made. -/
def blockTime (c : Client) (number : UInt64) : Call UInt64 := do
  match ← Network.ask (.recallTime c.chain number) with
  | some time => return time
  | none =>
    let (block, ()) ← c.fetchBlock number false fun _ => .ok ()
    return block.timestamp

/-- The events of a contract with a topic in a range of blocks. -/
def logs (c : Client) (contract : Address) (topic : Hash) (first last : UInt64) :
    Call (List EventLog) :=
  let filter : Document := .table [
    ("address", showBytes contract.toList), ("fromBlock", quantity first.toNat),
    ("toBlock", quantity last.toNat), ("topics", .list [showBytes topic.toList])]
  c.request "eth_getLogs" ⟨"eth_getLogs", some (.list [filter])⟩ (listOf? eventLog?)

/-- The first four bytes of the hash of a function's name and parameters. -/
def selector (function : String) : List UInt8 := (Keccak.hash function.toUTF8.toList).toList.take 4

/-- Calls a contract's function that has no parameters. -/
def callContract (c : Client) (name : String) (contract : Address)
    (read : Document → Option α) : Call α :=
  let target : Document := .table [
    ("input", showBytes (selector (name ++ "()"))), ("to", showBytes contract.toList)]
  c.request name ⟨"eth_call", some (.list [target, .text "latest"])⟩ read

/-- A token's decimals: the last byte of the word. -/
def tokenDecimals (c : Client) (token : Address) : Call UInt8 :=
  c.callContract "decimals" token fun d => (fun w => UInt8.ofNat w.toNat) <$> word? 1 0 d

/-- An oracle's answer: the second of five words. -/
def oracleAnswer (c : Client) (oracle : Address) : Call (BitVec 256) :=
  c.callContract "latestRoundData" oracle (word? 5 1)

/-- A pool's price: the low 160 bits of the first of seven words. -/
def poolPrice (c : Client) (pool : Address) : Call (BitVec 256) :=
  c.callContract "slot0" pool fun d => (· &&& BitVec.ofNat 256 (Nat.pow 2 160 - 1)) <$> word? 7 0 d

/-- Subscribes to new headers. The answer names the subscription. -/
def subscribe (c : Client) : Call String := do
  if !c.hasSocket then throw (.noSocket c.chain)
  c.request "eth_subscribe(newHeads)" ⟨"eth_subscribe", some (.list [.text "newHeads"])⟩ fun d =>
    match d with
    | .text id => some id
    | _ => none

end Client

end ChainIngest.Rpc
