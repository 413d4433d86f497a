import ChainIngest.Aggregator
import ChainIngest.Cadence
import ChainIngest.CatchUp
import ChainIngest.HeadTracker

/-!
The scheduler: a startup pass over all chains and tasks, then three jobs at their cadences until
cancelled. New headers are followed beside them all.
-/

namespace ChainIngest

structure Scheduler where
  cadences : CadenceSettings
  trackers : List HeadTracker
  scrapers : List Scraper
  aggregator : Aggregator
  deriving DecidableEq, Repr

namespace Scheduler

open Engine

/-- Tells what became of a head's refresh. -/
def announceHead (t : HeadTracker) : Except Fault UInt64 → Program Engine Unit
  | .ok height => tell (.headAt t.chain height)
  | .error fault => tell (.headRefreshFailed t.chain fault)

/-- Refreshes all heads at the same time. A chain that fails keeps its head. -/
def refreshHeads (trackers : List HeadTracker) : Process Engine Unit := do
  let results ← .all (trackers.map fun t => .run t.refresh.run)
  .run ((trackers.zip results).forM fun (t, result) => announceHead t result)

/-- Tells the failures among the results of ticks. -/
def announceScrapes (ticks : List (Scraper × Except Fault TickOutcome)) : Program Engine Unit :=
  ticks.forM fun
    | (s, .error fault) => tell (.scrapeFailed s.task.label fault)
    | _ => pure ()

/-- Rows that the ticks which succeeded added to the ledger. -/
def emittedBy : List (Except Fault TickOutcome) → Nat
  | [] => 0
  | .ok outcome :: rest => outcome.emitted + emittedBy rest
  | .error _ :: rest => emittedBy rest

/-- Ticks all enabled scrapers at the same time. A task that fails keeps its checkpoint. -/
def scrapeTransfers (scrapers : List Scraper) : Process Engine Unit := do
  let enabled := scrapers.filter (·.task.enabled)
  let results ← .all (enabled.map fun s => .run s.tick.run)
  .run do
    announceScrapes (enabled.zip results)
    if 0 < emittedBy results then tell (.scraped (emittedBy results) enabled.length)

/-- Takes a snapshot of the prices. -/
def snapshotPrices (a : Aggregator) : Process Engine (Except Fault Unit) :=
  a.snapshot.map (·.map fun _ => ())

/-- Refreshes the heads, takes a price snapshot and brings every task to the head. -/
def startup (s : Scheduler) : Process Engine Unit := do
  refreshHeads s.trackers
  match ← snapshotPrices s.aggregator with
  | .ok () => pure ()
  | .error fault => .run (tell (.startupPriceFailed fault))
  CatchUp.run s.scrapers

/-- The three jobs at their cadences. -/
def runCadences (s : Scheduler) : Process Engine Unit := do
  .run (tell (.started s.cadences.head s.cadences.scrape s.cadences.price))
  let heads := Cadence.run .headRefresh s.cadences.head ((refreshHeads s.trackers).map .ok)
  let scrapes := Cadence.run .scrapeTransfers s.cadences.scrape
    ((scrapeTransfers s.scrapers).map .ok)
  let prices := Cadence.run .priceSnapshot s.cadences.price (snapshotPrices s.aggregator)
  let _ ← .all [heads, scrapes, prices]
  return ()

/-- The startup pass, and the jobs unless they are cancelled before they begin. -/
def work (s : Scheduler) : Process Engine Unit := do
  s.startup
  if !(← .run isCancelled) then s.runCadences
  .run (tell .shuttingDown)

/-- The trackers that follow headers. -/
def subscribed (s : Scheduler) : List HeadTracker := s.trackers.filter (·.mode = .subscribe)

/-- Runs until cancelled. It ends when every part of it has ended. -/
def run (s : Scheduler) : Process Engine Unit := do
  let _ ← .both s.work (.all (s.subscribed.map (·.follow)))
  return ()

end Scheduler

end ChainIngest
