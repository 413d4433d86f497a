import ChainIngest.Bytes.Address
import ChainIngest.Decimal.Display
import ChainIngest.Engine.Fault

/-!
Notices: what an engine tells its operator while it runs.
-/

namespace ChainIngest

inductive Level where
  | debug
  | info
  | warn
  | error
  deriving DecidableEq, Repr

def Level.name : Level → String
  | .debug => "DEBUG"
  | .info => "INFO"
  | .warn => "WARN"
  | .error => "ERROR"

/-- The part of the engine that a notice comes from. -/
inductive Origin where
  | scraper
  | catchUp
  | head
  | aggregator
  | headRefresh
  | scrapeTransfers
  | scheduler
  deriving DecidableEq, Repr

def Origin.name : Origin → String
  | .scraper => "scraper"
  | .catchUp => "catch_up"
  | .head => "head"
  | .aggregator => "aggregator"
  | .headRefresh => "head_refresh"
  | .scrapeTransfers => "scrape_transfers"
  | .scheduler => "scheduler"

/-- The jobs that run at a cadence. -/
inductive Job where
  | headRefresh
  | scrapeTransfers
  | priceSnapshot
  deriving DecidableEq, Repr

def Job.name : Job → String
  | .headRefresh => "head_refresh"
  | .scrapeTransfers => "scrape_transfers"
  | .priceSnapshot => "price_snapshot"

inductive Notice where
  /-- A scan has ended and the checkpoint is at `checkpoint`. -/
  | scanned (task : String) (first last : UInt64) (emitted : Nat) (checkpoint : UInt64)
  | noRecipients (task : String) (first last : UInt64)
  | senderUnknown (task : String) (tx : Hash) (block : UInt64)
  | logWithoutPosition (task : String)
  | undecodableLog (task : String) (tx : Hash) (index : UInt64)
  | decimalsDiffer (task : String) (configured : UInt8) (contract : Address) (reported : UInt8)
  | decimalsVerified (task : String) (decimals : UInt8)
  | catchingUp (tasks : Nat)
  | caughtUp (task : String) (block : UInt64) (windows emitted : Nat)
  | catchUpFailed (task : String) (fault : Fault)
  | catchUpFinished
  | headIgnored (height : UInt64) (chain : String) (stored : UInt64)
  | following (chain : String)
  | stoppedFollowing (chain : String)
  | headerError (chain : String) (fault : Fault)
  | subscriptionClosed (chain : String)
  | subscriptionFailed (chain : String) (fault : Fault)
  | headNotRecorded (height : UInt64) (chain : String) (fault : Fault)
  | headerScrape (task : String) (emitted : Nat) (block : UInt64)
  | headerScrapeFailed (task : String) (fault : Fault)
  | headerSkipped (task : String) (height : UInt64)
  | zeroPrice (fallback : Decimal)
  | priceSnapshot (token native reference : Decimal)
  | headAt (chain : String) (height : UInt64)
  | headRefreshFailed (chain : String) (fault : Fault)
  | scrapeFailed (task : String) (fault : Fault)
  | scraped (emitted tasks : Nat)
  | started (headSecs scrapeSecs priceSecs : UInt64)
  | jobFailed (job : Job) (fault : Fault)
  | cadenceStopped (job : Job)
  | startupPriceFailed (fault : Fault)
  | shuttingDown
  deriving DecidableEq, Repr

namespace Notice

def level : Notice → Level
  | .scanned .. | .noRecipients .. | .headIgnored .. | .headerSkipped .. | .headAt .. => .debug
  | .decimalsVerified .. | .catchingUp .. | .caughtUp .. | .catchUpFinished | .following ..
  | .stoppedFollowing .. | .headerScrape .. | .priceSnapshot .. | .scraped .. | .started ..
  | .cadenceStopped .. | .shuttingDown => .info
  | .senderUnknown .. | .logWithoutPosition .. | .undecodableLog .. | .decimalsDiffer ..
  | .headerError .. | .subscriptionClosed .. | .zeroPrice .. | .headRefreshFailed .. => .warn
  | .catchUpFailed .. | .subscriptionFailed .. | .headNotRecorded .. | .headerScrapeFailed ..
  | .scrapeFailed .. | .jobFailed .. | .startupPriceFailed .. => .error

def origin : Notice → Origin
  | .scanned .. | .noRecipients .. | .senderUnknown .. | .logWithoutPosition ..
  | .undecodableLog .. | .decimalsDiffer .. | .decimalsVerified .. => .scraper
  | .catchingUp .. | .caughtUp .. | .catchUpFailed .. | .catchUpFinished => .catchUp
  | .headIgnored .. | .following .. | .stoppedFollowing .. | .headerError ..
  | .subscriptionClosed .. | .subscriptionFailed .. | .headNotRecorded .. | .headerScrape ..
  | .headerScrapeFailed .. | .headerSkipped .. => .head
  | .zeroPrice .. | .priceSnapshot .. => .aggregator
  | .headAt .. | .headRefreshFailed .. => .headRefresh
  | .scrapeFailed .. | .scraped .. => .scrapeTransfers
  | .started .. | .jobFailed .. | .cadenceStopped .. | .startupPriceFailed ..
  | .shuttingDown => .scheduler

def text : Notice → String
  | .scanned task first last emitted checkpoint =>
    s!"Scraped {task} blocks {first}..{last}: {emitted} new transfers, checkpoint {checkpoint}"
  | .noRecipients task first last =>
    s!"No whitelisted recipients for {task}, skipping blocks {first}..{last}"
  | .senderUnknown task tx block =>
    s!"Skipping {task} transaction {Hex.encode tx.toList} in block {block}: " ++
      "sender not recoverable"
  | .logWithoutPosition task => s!"Skipping {task} log without block position"
  | .undecodableLog task tx index =>
    s!"Skipping undecodable {task} transfer {Hex.encode tx.toList}:{index}"
  | .decimalsDiffer task configured contract reported =>
    s!"{task} is configured with {configured} decimals but {Address.display contract} " ++
      s!"reports {reported}"
  | .decimalsVerified task decimals => s!"{task} decimals verified ({decimals})"
  | .catchingUp tasks => s!"Catching up {tasks} scrape tasks"
  | .caughtUp task block windows emitted =>
    s!"{task} caught up at block {block} after {windows} windows ({emitted} new transfers)"
  | .catchUpFailed task fault => s!"Catch-up for {task} failed: {fault.message}"
  | .catchUpFinished => "Catch-up finished"
  | .headIgnored height chain stored =>
    s!"Ignoring head {height} on {chain}, already at {stored}"
  | .following chain => s!"Following new headers on {chain}"
  | .stoppedFollowing chain => s!"Stopped following headers on {chain}"
  | .headerError chain fault => s!"Header stream error on {chain}: {fault.message}"
  | .subscriptionClosed chain => s!"Header subscription on {chain} closed"
  | .subscriptionFailed chain fault =>
    s!"Failed to subscribe to headers on {chain}: {fault.message}"
  | .headNotRecorded height chain fault =>
    s!"Failed to record head {height} on {chain}: {fault.message}"
  | .headerScrape task emitted block => s!"{task}: {emitted} new transfers up to block {block}"
  | .headerScrapeFailed task fault | .scrapeFailed task fault =>
    s!"Scrape of {task} failed: {fault.message}"
  | .headerSkipped task height => s!"{task} already scraping, skipping header {height}"
  | .zeroPrice fallback => s!"Derived token price is zero, using fallback of {fallback} cents"
  | .priceSnapshot token native reference =>
    s!"Price snapshot: token {token}c, native {native}c, reference {reference}c"
  | .headAt chain height => s!"Head of {chain} at {height}"
  | .headRefreshFailed chain fault => s!"Failed to refresh head of {chain}: {fault.message}"
  | .scraped emitted tasks => s!"Scraped {emitted} new transfers across {tasks} tasks"
  | .started headSecs scrapeSecs priceSecs =>
    s!"Scheduler started: heads every {headSecs}s, scrapes every {scrapeSecs}s, " ++
      s!"prices every {priceSecs}s"
  | .jobFailed job fault => s!"Job {job.name} failed: {fault.message}"
  | .cadenceStopped job => s!"Stopped {job.name} cadence"
  | .startupPriceFailed fault => s!"Startup price snapshot failed: {fault.message}"
  | .shuttingDown => "Scheduler shutting down..."

/-- The notice as one line. -/
def line (n : Notice) : String := s!"{n.level.name} {n.origin.name}: {n.text}"

end Notice

end ChainIngest
