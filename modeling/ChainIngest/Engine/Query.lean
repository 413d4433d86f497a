import ChainIngest.Chain.Data
import ChainIngest.Engine.Notice
import ChainIngest.Program
import ChainIngest.Transfer

/-!
The queries of an engine: to the store, to the chains, to the price contracts, and to whatever
runs its parts at the same time. A query to the store or to a chain may fail, and one that fails
has no effect.
-/

namespace ChainIngest

/-- A chain, by its number among the configured ones. -/
abbrev Node := Nat

/-- Prices at one time, in cents. -/
structure Snapshot where
  token : Decimal
  native : Decimal
  reference : Decimal
  deriving DecidableEq, Repr

/-- What must not be done twice at the same time. -/
inductive Guard where
  /-- Ticks of a scraper. -/
  | scraper (index : Nat)
  /-- Updates of a chain's stored head. -/
  | head (node : Node)
  deriving DecidableEq, Repr

/-- What a wait ends with. -/
inductive Awaited (α : Type) where
  | cancelled
  | arrived (value : α)
  deriving DecidableEq, Repr

/-- What a header subscription delivers. -/
inductive HeaderEvent where
  | height (height : UInt64)
  | error (fault : Fault)
  | closed
  deriving DecidableEq, Repr

/-- An open header subscription, as its chain numbers them. -/
abbrev Subscription := Nat

namespace Engine

inductive Query where
  /-- The value of a checkpoint, which is created with the default if there is none. -/
  | readCheckpoint (key default : String)
  | writeCheckpoint (key value : String)
  /-- Adds a transfer unless its identity is in the ledger; whether it was added. -/
  | insertTransfer (t : Transfer)
  | insertSnapshot (s : Snapshot)
  | latestSnapshot
  /-- The stored recipients of a chain. -/
  | whitelist (chainId : UInt64)
  | headHeight (node : Node)
  | block (node : Node) (number : UInt64)
  | blockTime (node : Node) (number : UInt64)
  /-- The transfer events of a contract in the blocks from `first` to `last`. -/
  | transferLogs (node : Node) (contract : Address) (first last : UInt64)
  | tokenDecimals (node : Node) (contract : Address)
  | subscribe (node : Node)
  | nextHeader (subscription : Subscription)
  | oracleAnswer (oracle : Address)
  | poolPrice (pool : Address)
  /-- Waits until nobody holds the guard, and takes it. -/
  | acquire (guard : Guard)
  /-- Takes the guard if nobody holds it; whether it was taken. -/
  | tryAcquire (guard : Guard)
  | release (guard : Guard)
  | isCancelled
  /-- The time, in milliseconds. -/
  | now
  /-- Waits for some milliseconds. -/
  | pause (milliseconds : Nat)
  /-- Waits until a time, and answers with the time then. -/
  | waitUntil (deadline : Nat)
  | tell (notice : Notice)

/-- The answer to each query. -/
abbrev Answer : Query → Type
  | .readCheckpoint .. => Except Fault String
  | .writeCheckpoint .. => Except Fault Unit
  | .insertTransfer .. => Except Fault Bool
  | .insertSnapshot .. => Except Fault Unit
  | .latestSnapshot => Except Fault (Option Snapshot)
  | .whitelist .. => Except Fault (List Address)
  | .headHeight .. => Except Fault UInt64
  | .block .. => Except Fault Block
  | .blockTime .. => Except Fault UInt64
  | .transferLogs .. => Except Fault (List EventLog)
  | .tokenDecimals .. => Except Fault UInt8
  | .subscribe .. => Awaited (Except Fault Subscription)
  | .nextHeader .. => Awaited HeaderEvent
  | .oracleAnswer .. => Except Fault (BitVec 256)
  | .poolPrice .. => Except Fault (BitVec 256)
  | .acquire .. => Unit
  | .tryAcquire .. => Bool
  | .release .. => Unit
  | .isCancelled => Bool
  | .now => Nat
  | .pause .. => Awaited Unit
  | .waitUntil .. => Awaited Nat
  | .tell .. => Unit

end Engine

/-- The surroundings of an engine. -/
abbrev Engine : Interface := ⟨Engine.Query, Engine.Answer⟩

/-- A program that may stop with a fault. -/
abbrev Action (α : Type) := ExceptT Fault (Program Engine) α

namespace Engine

/-- Asks one query. -/
def ask (q : Query) : Program Engine (Answer q) := Program.ask (I := Engine) q

def tell (notice : Notice) : Program Engine Unit := ask (.tell notice)

def isCancelled : Program Engine Bool := ask .isCancelled

def now : Program Engine Nat := ask .now

def readCheckpoint (key default : String) : Action String := ask (.readCheckpoint key default)

def writeCheckpoint (key value : String) : Action Unit := ask (.writeCheckpoint key value)

def insertTransfer (t : Transfer) : Action Bool := ask (.insertTransfer t)

def insertSnapshot (s : Snapshot) : Action Unit := ask (.insertSnapshot s)

def latestSnapshot : Action (Option Snapshot) := ask .latestSnapshot

def whitelist (chainId : UInt64) : Action (List Address) := ask (.whitelist chainId)

def headHeight (node : Node) : Action UInt64 := ask (.headHeight node)

def block (node : Node) (number : UInt64) : Action Block := ask (.block node number)

def blockTime (node : Node) (number : UInt64) : Action UInt64 := ask (.blockTime node number)

def transferLogs (node : Node) (contract : Address) (first last : UInt64) :
    Action (List EventLog) :=
  ask (.transferLogs node contract first last)

def tokenDecimals (node : Node) (contract : Address) : Action UInt8 :=
  ask (.tokenDecimals node contract)

def oracleAnswer (oracle : Address) : Action (BitVec 256) := ask (.oracleAnswer oracle)

def poolPrice (pool : Address) : Action (BitVec 256) := ask (.poolPrice pool)

/-- An action in a context, which its fault, if any, is reported in. -/
def within (context : FaultContext) {α : Type} (a : Action α) : Action α :=
  tryCatch a fun fault => throw (.within context fault)

/-- Runs a program while holding a guard. -/
def guarded (guard : Guard) {α : Type} (p : Program Engine α) : Program Engine α := do
  ask (.acquire guard)
  let result ← p
  ask (.release guard)
  return result

/-- The height that a checkpoint holds, which is created with the default if there is none. -/
def readHeight (key : String) (default : UInt64) : Action UInt64 := do
  let value ← readCheckpoint key (Number.showUInt64 default)
  match Number.readUInt64 (Text.trim value) with
  | .ok height => return height
  | .error reason => throw (.notANumber key value reason)

def writeHeight (key : String) (height : UInt64) : Action Unit :=
  writeCheckpoint key (Number.showUInt64 height)

end Engine

end ChainIngest
