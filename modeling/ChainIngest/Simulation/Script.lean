import ChainIngest.Engine.Query

/-!
Scripts of a simulation: what each chain answers, how long its answers take, which calls fail, and
what its header subscriptions deliver.
-/

namespace ChainIngest.Simulation

/-- What a header subscription delivers next. -/
inductive Delivery where
  /-- A height, some milliseconds after it is waited for. -/
  | height (delay : Nat) (height : UInt64)
  /-- An error, some milliseconds after it is waited for. -/
  | error (delay : Nat) (message : String)
  /-- Nothing, ever. -/
  | silence
  deriving DecidableEq, Repr

/-- A call to a chain. -/
inductive Call where
  | head
  | block (number : UInt64)
  | timestamp (number : UInt64)
  | logs (first last : UInt64)
  | decimals
  | subscribe
  deriving DecidableEq, Repr

def Call.kind : Call → String
  | .head => "head"
  | .block _ => "block"
  | .timestamp _ => "timestamp"
  | .logs _ _ => "logs"
  | .decimals => "decimals"
  | .subscribe => "subscribe"

def Call.label : Call → String
  | .head => "head"
  | .block number => s!"block {number}"
  | .timestamp number => s!"timestamp {number}"
  | .logs first last => s!"logs {first}..{last}"
  | .decimals => "decimals"
  | .subscribe => "subscribe"

/-- Whether a call fails: a rule names its kind or its label. -/
def Call.failsUnder (rules : List String) (c : Call) : Bool :=
  rules.contains c.kind || rules.contains c.label

structure ScriptedChain where
  name : String
  head : UInt64
  /-- Blocks by the number they are asked for with; the first one of a number counts. -/
  blocks : List (UInt64 × Block)
  logs : List (Address × EventLog)
  decimals : List (Address × UInt8)
  /-- The subscriptions to come; some are refused. -/
  subscriptions : List (Option (List Delivery))
  failing : List String
  /-- Milliseconds that a kind of call takes. -/
  latency : List (String × Nat)

namespace ScriptedChain

/-- When a block was made that the script says nothing about. -/
def defaultTimestamp (number : UInt64) : UInt64 :=
  UInt64.ofNat (min (1600000000 + number.toNat) (UInt64.size - 1))

/-- A block. One that the script says nothing about is empty. -/
def block (c : ScriptedChain) (number : UInt64) : Block :=
  (c.blocks.lookup number).getD ⟨number, defaultTimestamp number, []⟩

/-- The logs of a contract in a range of blocks, and those that are in no block yet. -/
def logsBetween (c : ScriptedChain) (contract : Address) (first last : UInt64) :
    List EventLog :=
  (c.logs.filter fun (address, log) =>
    address == contract && log.block.all fun block => first ≤ block && block ≤ last).map (·.2)

def latencyOf (c : ScriptedChain) (call : Call) : Nat := (c.latency.lookup call.kind).getD 0

end ScriptedChain

/-- A call to the store. -/
inductive StoreCall where
  | get (key : String)
  | set (key : String)
  | insert (block : UInt64)
  | insertPrice
  | latestPrice
  | whitelist
  deriving DecidableEq, Repr

def StoreCall.kind : StoreCall → String
  | .get _ => "get"
  | .set _ => "set"
  | .insert _ => "insert"
  | .insertPrice => "insert_price"
  | .latestPrice => "latest_price"
  | .whitelist => "whitelist"

def StoreCall.label : StoreCall → String
  | .get key => s!"get {key}"
  | .set key => s!"set {key}"
  | .insert block => s!"insert {block}"
  | .insertPrice => "insert_price"
  | .latestPrice => "latest_price"
  | .whitelist => "whitelist"

def StoreCall.failsUnder (rules : List String) (c : StoreCall) : Bool :=
  rules.contains c.kind || rules.contains c.label

end ChainIngest.Simulation
