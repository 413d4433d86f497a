import ChainIngest.Chain.Event
import ChainIngest.Engine.Query
import ChainIngest.ScanTask
import ChainIngest.Window

/-!
Scrapers: each scans one task window by window and writes what it finds to the ledger. A tick reads
the task's checkpoints, scans the next window and moves the checkpoint forward. Ticks of one
scraper never run at the same time.
-/

namespace ChainIngest

structure Scraper where
  /-- The scraper's number; no two scrapers have the same. -/
  index : Nat
  task : ScanTask
  node : Node
  /-- Recipients from the settings. -/
  recipients : List Address
  deriving DecidableEq, Repr

/-- What a scan did. -/
structure ScanOutcome where
  window : Window
  /-- Rows that the scan added to the ledger. -/
  emitted : Nat
  deriving DecidableEq, Repr

/-- What a tick did. -/
structure TickOutcome where
  window : Window
  emitted : Nat
  /-- The checkpoint after the tick. -/
  lastScanned : UInt64
  /-- The head that the window was capped at. -/
  head : UInt64
  deriving DecidableEq, Repr

def TickOutcome.caughtUp (o : TickOutcome) : Bool := o.head ≤ o.lastScanned

namespace Scraper

open Engine

/-- The settings' recipients and those stored for the chain. -/
def allRecipients (s : Scraper) : Action (List Address) := do
  return s.recipients ++ (← whitelist s.task.chainId)

/-- The asset that the task's records name. -/
def assetName (s : Scraper) : Transfer.AssetName :=
  ⟨s.task.chainId, s.task.symbol, s.task.decimals⟩

/-- The record of a transaction from a known sender. -/
def nativeRecord (s : Scraper) (block : Block) (tx : Transaction) (sender : Address) : Transfer :=
  .ofNative s.assetName ⟨block.number, tx.position, tx.hash, block.timestamp⟩ sender
    tx.recipient tx.value

/-- Records the transactions of a block that go to one of the recipients. -/
def scanTransactions (s : Scraper) (recipients : List Address) (block : Block) :
    List Transaction → Nat → Action Nat
  | [], emitted => return emitted
  | tx :: rest, emitted => do
    if tx.recipient.any recipients.contains then
      match tx.sender with
      | none =>
        tell (.senderUnknown s.task.label tx.hash block.number)
        s.scanTransactions recipients block rest emitted
      | some sender =>
        let added ← insertTransfer (s.nativeRecord block tx sender)
        s.scanTransactions recipients block rest (if added then emitted + 1 else emitted)
    else s.scanTransactions recipients block rest emitted

/-- Records the transactions of `count` blocks, from block `number` on. -/
def scanBlocks (s : Scraper) (recipients : List Address) :
    (count : Nat) → (number : UInt64) → (emitted : Nat) → Action Nat
  | 0, _, emitted => return emitted
  | count + 1, number, emitted => do
    let block ← Engine.block s.node number
    let emitted ← s.scanTransactions recipients block block.transactions emitted
    s.scanBlocks recipients count (number + 1) emitted

/-- Records native transfers. Without recipients no block needs to be read. -/
def scanNative (s : Scraper) (window : Window) : Action Nat := do
  let recipients ← s.allRecipients
  if recipients.isEmpty then
    tell (.noRecipients s.task.label window.first window.last)
    return 0
  s.scanBlocks recipients window.blockCount window.first 0

/-- The record of a log, or nothing if the log cannot be turned into one. The event is what `decode`
makes of topics and data. A log that does not tell its time has its block's. -/
def logRecordBy? (s : Scraper) (decode : List Hash → List UInt8 → Option TransferEvent)
    (contract : Address) (log : EventLog) : Action (Option Transfer) := do
  match log.block, log.index, log.tx with
  | some block, some index, some tx =>
    match decode log.topics log.data with
    | none =>
      tell (.undecodableLog s.task.label tx index)
      return none
    | some event =>
      let timestamp ← match log.timestamp with
        | some timestamp => pure timestamp
        | none => blockTime s.node block
      return some (.ofEvent s.assetName contract ⟨block, index, tx, timestamp⟩ event)
  | _, _, _ =>
    tell (.logWithoutPosition s.task.label)
    return none

/-- The record of a log, its event read as it is declared. -/
def logRecord? (s : Scraper) (contract : Address) (log : EventLog) : Action (Option Transfer) :=
  s.logRecordBy? TransferEvent.decode? contract log

def scanLogs (s : Scraper) (contract : Address) : List EventLog → Nat → Action Nat
  | [], emitted => return emitted
  | log :: rest, emitted => do
    match ← s.logRecord? contract log with
    | none => s.scanLogs contract rest emitted
    | some record =>
      let added ← insertTransfer record
      s.scanLogs contract rest (if added then emitted + 1 else emitted)

/-- Records token transfers, unless the head lies below the window. -/
def scanToken (s : Scraper) (contract : Address) (window : Window) : Action Nat := do
  if window.isInverted then return 0
  let logs ← transferLogs s.node contract window.first window.last
  s.scanLogs contract logs 0

/-- Scans one window. Checkpoints are neither read nor written. -/
def scanWindow (s : Scraper) (lastScanned head range overlap : UInt64) : Action ScanOutcome := do
  let window := Window.compute lastScanned overlap range head
  let emitted ← match s.task.asset with
    | .native => s.scanNative window
    | .token contract => s.scanToken contract window
  return ⟨window, emitted⟩

/-- One tick, by who holds the scraper's guard. The window can end below the checkpoint when the
stored head lags; the checkpoint itself never goes back. -/
def tickHeld (s : Scraper) : Action TickOutcome := do
  let range ← readHeight s.task.scanRangeKey s.task.scanRange
  if range = 0 then throw (.emptyRange s.task.label)
  let overlap ← readHeight s.task.overlapKey s.task.overlap
  let lastScanned ← readHeight s.task.lastBlockKey s.task.startBlock
  let head ← readHeight s.task.headKey 0
  let outcome ← s.scanWindow lastScanned head range overlap
  let next := max outcome.window.last lastScanned
  if next ≠ lastScanned then writeHeight s.task.lastBlockKey next
  tell (.scanned s.task.label outcome.window.first outcome.window.last outcome.emitted next)
  return ⟨outcome.window, outcome.emitted, next, head⟩

def guard (s : Scraper) : Guard := .scraper s.index

/-- One tick. It waits for a tick under way. -/
def tick (s : Scraper) : Action TickOutcome := guarded s.guard s.tickHeld.run

/-- One tick, or nothing if there is one under way. -/
def tryTick (s : Scraper) : Program Engine (Option (Except Fault TickOutcome)) := do
  if ← ask (.tryAcquire s.guard) then
    let result ← s.tickHeld.run
    ask (.release s.guard)
    return some result
  else return none

/-- Compares a token's configured decimals with the contract's. Amounts are recorded as they are,
so a difference is only told. -/
def verifyDecimals (s : Scraper) : Action Unit := do
  match s.task.contract? with
  | none => return
  | some contract =>
    let reported ← tokenDecimals s.node contract
    if reported ≠ s.task.decimals then
      tell (.decimalsDiffer s.task.label s.task.decimals contract reported)
    else tell (.decimalsVerified s.task.label reported)

end Scraper

end ChainIngest
