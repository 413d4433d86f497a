import ChainIngest.Process
import ChainIngest.Scraper

/-!
Catching up: ticks until the checkpoint has reached the head. Every task that is enabled has a
worker of its own; a worker that fails stops alone.
-/

namespace ChainIngest

/-- What a worker has done so far. -/
structure CatchUpReport where
  windows : Nat
  emitted : Nat
  lastScanned : UInt64
  deriving DecidableEq, Repr

namespace CatchUpReport

def start : CatchUpReport := ⟨0, 0, 0⟩

def after (r : CatchUpReport) (o : TickOutcome) : CatchUpReport :=
  ⟨r.windows + 1, r.emitted + o.emitted, o.lastScanned⟩

end CatchUpReport

namespace CatchUp

open Engine

/-- How a worker ends. -/
abbrev Result := Except Fault CatchUpReport

/-- One round of a worker: a tick, unless it is cancelled. It is the last one if the checkpoint
has reached the head. -/
def round (s : Scraper) (report : CatchUpReport) :
    Program Engine (CatchUpReport ⊕ Result) := do
  if ← isCancelled then return .inr (.ok report)
  match ← s.tick.run with
  | .error fault => return .inr (.error fault)
  | .ok outcome =>
    let report := report.after outcome
    return if outcome.caughtUp then .inr (.ok report) else .inl report

/-- Ticks until the checkpoint reaches the head. Both are read anew on every tick, so a head that
moves is followed. -/
def worker (s : Scraper) : Process Engine Result := .repeatProgram .start (round s)

/-- Tells how a worker has ended. -/
def announce (s : Scraper) : Result → Program Engine Unit
  | .ok r => tell (.caughtUp s.task.label r.lastScanned r.windows r.emitted)
  | .error fault => tell (.catchUpFailed s.task.label fault)

/-- Brings all enabled tasks to the head. -/
def run (scrapers : List Scraper) : Process Engine Unit := do
  let enabled := scrapers.filter (·.task.enabled)
  .run (tell (.catchingUp enabled.length))
  .allInOrder id (enabled.map fun s => (worker s).map (announce s))
  .run (tell .catchUpFinished)

end CatchUp

end ChainIngest
