import ChainIngest.Engine.Query
import ChainIngest.Postgres.Client
import ChainIngest.Rpc.Client

/-!
An engine's queries answered by nodes and a database, for programs that run one at a time.
-/

namespace ChainIngest

/-- What an engine is connected to. -/
structure Live where
  /-- The clients of the chains, in their order. -/
  clients : List Rpc.Client
  /-- The client of the chain that prices are read on. -/
  prices : Option Rpc.Client
  store : PostgresSettings
  deriving DecidableEq, Repr

namespace Live

/-- Where a part of the engine is said to be in the log. -/
def logOrigin : Origin → String
  | .scraper => "pricefeed::scraper::scraper"
  | .catchUp => "pricefeed::scraper::catch_up"
  | .head => "pricefeed::scraper::head"
  | .aggregator => "pricefeed::prices::aggregator"
  | .headRefresh => "pricefeed::cron::jobs::head_refresh"
  | .scrapeTransfers => "pricefeed::cron::jobs::scrape_transfers"
  | .scheduler => "pricefeed::cron::scheduler"

def logLine (n : Notice) : LogLine := ⟨n.level, logOrigin n.origin, n.text⟩

/-- The fault that a list of messages tells, outermost first. -/
def faultOf : List String → Fault
  | [] => .reported "" []
  | message :: causes => .reported message causes

/-- A call to the store. -/
def onStore (call : Postgres.StoreCall α) : Program Network (Except Fault α) :=
  (·.mapError fun e => faultOf e.causes) <$> call.run

/-- A call to a node. -/
def onNode (client : Option Rpc.Client) (call : Rpc.Client → Rpc.Call α) :
    Program Network (Except Fault α) :=
  match client with
  | none => return .error (.reported "no such chain" [])
  | some c => (·.mapError fun e => .reported e.message []) <$> (call c).run

variable (l : Live)

/-- The answer to a query. A program that runs alone finds every guard free, is never cancelled,
and waits for no header. -/
def answer : (q : Engine.Query) → Program Network (Engine.Answer q)
  | .readCheckpoint key default => onStore (Postgres.readCheckpoint l.store key default)
  | .writeCheckpoint key value => onStore (Postgres.writeCheckpoint l.store key value)
  | .insertTransfer t => onStore (Postgres.insertTransfer l.store t)
  | .insertSnapshot s => do
    let createdAt ← Network.ask .utcTime
    onStore (Postgres.insertSnapshot l.store { s with createdAt })
  | .latestSnapshot =>
    onStore ((·.map (·.toSnapshot)) <$> Postgres.latestSnapshot l.store)
  | .whitelist chainId => onStore (Postgres.whitelist l.store chainId)
  | .headHeight node => onNode l.clients[node]? fun c => c.headHeight
  | .block node number => onNode l.clients[node]? fun c => c.block number
  | .blockTime node number => onNode l.clients[node]? fun c => c.blockTime number
  | .transferLogs node contract first last =>
    onNode l.clients[node]? fun c => c.logs contract TransferEvent.topic first last
  | .tokenDecimals node contract => onNode l.clients[node]? fun c => c.tokenDecimals contract
  | .oracleAnswer oracle => onNode l.prices fun c => c.oracleAnswer oracle
  | .poolPrice pool => onNode l.prices fun c => c.poolPrice pool
  | .tell notice => Network.ask (.log (logLine notice))
  | .pause milliseconds => do
    Network.ask (.pause milliseconds)
    return .arrived ()
  | .waitUntil deadline => return .arrived deadline
  | .subscribe _ | .nextHeader _ => return .cancelled
  | .acquire _ | .release _ => return ()
  | .tryAcquire _ => return true
  | .isCancelled => return false
  | .now => return (0 : Nat)

/-- Runs an engine's program alone. -/
def runAlone (p : Program Engine α) : Program Network α := p.interpret l.answer

end Live

end ChainIngest
