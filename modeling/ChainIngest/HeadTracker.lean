import ChainIngest.Process
import ChainIngest.Scraper

/-!
Head trackers: each keeps the stored head of one chain current, by polling and, where the chain
is subscribed to, by following new headers. A stored head never goes back.
-/

namespace ChainIngest

structure HeadTracker where
  chain : String
  mode : HeadMode
  node : Node
  /-- Scrapers to tick on every new header. -/
  scrapers : List Scraper
  /-- Milliseconds between the end of a subscription and the next attempt. -/
  resubscribeDelay : Nat
  deriving DecidableEq, Repr

namespace HeadTracker

open Engine

def defaultResubscribeDelay : Nat := 5000

def guard (t : HeadTracker) : Guard := .head t.node

/-- Stores a height unless a higher one is stored, and answers with the stored one. -/
def recordHeld (t : HeadTracker) (height : UInt64) : Action UInt64 := do
  let stored ← readHeight (CheckpointKey.head t.chain) 0
  if height < stored then
    tell (.headIgnored height t.chain stored)
    return stored
  if stored < height then writeHeight (CheckpointKey.head t.chain) height
  return height

/-- Polling and following record the same head, so one waits for the other. -/
def record (t : HeadTracker) (height : UInt64) : Action UInt64 :=
  guarded t.guard (t.recordHeld height).run

/-- Asks for the head and records it. -/
def refresh (t : HeadTracker) : Action UInt64 := do
  let height ← headHeight t.node
  t.record height

/-- Ticks one scraper for a new header, unless it is ticking already. -/
def tickForHeader (height : UInt64) (s : Scraper) : Program Engine Unit := do
  match ← s.tryTick with
  | some (.ok outcome) =>
    if 0 < outcome.emitted then
      tell (.headerScrape s.task.label outcome.emitted outcome.lastScanned)
  | some (.error fault) => tell (.headerScrapeFailed s.task.label fault)
  | none => tell (.headerSkipped s.task.label height)

/-- Records a new header and, if that succeeds, ticks the enabled scrapers. -/
def onHeader (t : HeadTracker) (height : UInt64) : Program Engine Unit := do
  match ← (t.record height).run with
  | .error fault => tell (.headNotRecorded height t.chain fault)
  | .ok _ => (t.scrapers.filter (·.task.enabled)).forM (tickForHeader height)

/-- Where the following of headers stands. -/
inductive Phase where
  | connecting
  | listening (subscription : Subscription)
  | pausing
  deriving DecidableEq, Repr

/-- One round of following: an attempt to subscribe, one event, or a pause. Errors and closings
are told, and only cancellation ends it. -/
def followRound (t : HeadTracker) : Phase → Program Engine (Phase ⊕ Unit)
  | .connecting => do
    match ← ask (.subscribe t.node) with
    | .cancelled => return .inr ()
    | .arrived (.ok subscription) => return .inl (.listening subscription)
    | .arrived (.error fault) =>
      tell (.subscriptionFailed t.chain fault)
      return .inl .pausing
  | .listening subscription => do
    match ← ask (.nextHeader subscription) with
    | .cancelled => return .inr ()
    | .arrived (.height height) =>
      t.onHeader height
      return .inl (.listening subscription)
    | .arrived (.error fault) =>
      tell (.headerError t.chain fault)
      return .inl (.listening subscription)
    | .arrived .closed =>
      tell (.subscriptionClosed t.chain)
      return .inl .pausing
  | .pausing => do
    match ← ask (.pause t.resubscribeDelay) with
    | .cancelled => return .inr ()
    | .arrived () => return .inl .connecting

/-- Follows new headers until cancelled. -/
def follow (t : HeadTracker) : Process Engine Unit := do
  .run (tell (.following t.chain))
  .repeatProgram Phase.connecting t.followRound
  .run (tell (.stoppedFollowing t.chain))

end HeadTracker

end ChainIngest
