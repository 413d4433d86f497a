import ChainIngest.Scheduler

/-!
Assembly: scrapers, head trackers, the aggregator and the scheduler from settings.
-/

namespace ChainIngest

/-- What is built for the chains: the scrapers of all chains, numbered in their order, and a head
tracker for each chain. -/
structure Assembly where
  scrapers : List Scraper
  trackers : List HeadTracker
  deriving DecidableEq, Repr

namespace Assembly

def empty : Assembly := ⟨[], []⟩

/-- The scrapers of tasks, numbered from `index` on. -/
def scrapersFrom (node : Node) (recipients : List Address) (index : Nat) :
    List ScanTask → List Scraper
  | [] => []
  | task :: rest => ⟨index, task, node, recipients⟩ :: scrapersFrom node recipients (index + 1) rest

/-- Adds a chain: its recipients are read first, then its tasks. -/
def addChain (a : Assembly) (chain : ChainSettings) : Except Address.ReadError Assembly := do
  let node := a.trackers.length
  let recipients ← chain.whitelist.mapM Address.read
  let tasks ← ScanTask.ofChain chain
  let scrapers := scrapersFrom node recipients a.scrapers.length tasks
  let tracker : HeadTracker := {
    chain := chain.name
    mode := chain.headMode
    node
    scrapers := if chain.scrapeOnHeader then scrapers else []
    resubscribeDelay := HeadTracker.defaultResubscribeDelay }
  return ⟨a.scrapers ++ scrapers, a.trackers ++ [tracker]⟩

def ofChains (chains : List ChainSettings) : Except Address.ReadError Assembly :=
  chains.foldlM addChain empty

/-- Why an engine cannot be built. -/
inductive BuildError where
  | address (e : Address.ReadError)
  | unknownPriceChain (chain : String)
  | prices (e : Aggregator.BuildError)
  deriving DecidableEq, Repr

def BuildError.causes : BuildError → List String
  | .address e => e.causes
  | .unknownPriceChain chain => [s!"Price chain {chain} is not configured"]
  | .prices e => e.causes

/-- The scheduler of an engine with these settings. -/
def scheduler (s : Settings) : Except BuildError Scheduler := do
  let assembly ← (ofChains s.chains).mapError .address
  if !s.chains.any (·.name == s.prices.chain) then
    throw (.unknownPriceChain s.prices.chain)
  let aggregator ← (Aggregator.ofSettings s.prices).mapError .prices
  return ⟨s.scheduler, assembly.trackers, assembly.scrapers, aggregator⟩

end Assembly

end ChainIngest
