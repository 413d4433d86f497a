import ChainIngest.Engine.Assembly
import ChainIngest.Simulation.Clock

/-!
Simulations: an engine in a scripted world, driven by commands. A command changes the script, or
runs one part of the engine and shows what it answers.
-/

namespace ChainIngest

/-- A chain to simulate. -/
structure Simulation.Chain where
  settings : ChainSettings
  script : Simulation.ScriptedChain
  /-- Milliseconds between attempts to subscribe, if not the usual ones. -/
  resubscribeDelay : Option Nat

/-- An engine and its world. -/
structure Simulation where
  world : Simulation.World
  assembly : Assembly
  aggregator : Option Aggregator

namespace Simulation

/-- Builds the aggregator, if there are settings for it, and then the chains. -/
def build (world : World) (chains : List Chain) (prices : Option PriceSettings) :
    Except Assembly.BuildError Simulation := do
  let aggregator ← prices.mapM fun s => (Aggregator.ofSettings s).mapError .prices
  let assembly ← (Assembly.ofChains (chains.map (·.settings))).mapError .address
  let trackers := (assembly.trackers.zip chains).map fun (tracker, chain) =>
    { tracker with resubscribeDelay := chain.resubscribeDelay.getD tracker.resubscribeDelay }
  let world := { world with chains := chains.map (·.script) }
  return { world, assembly := { assembly with trackers }, aggregator }

inductive Command where
  | setHead (node : Node) (height : UInt64)
  | setFailing (node : Node) (rules : List String)
  | setStoreFailing (rules : List String)
  | addBlock (node : Node) (number : UInt64) (block : Block)
  | addLog (node : Node) (contract : Address) (log : EventLog)
  | addSubscription (node : Node) (deliveries : Option (List Delivery))
  | setLatency (node : Node) (latency : List (String × Nat))
  | setAnswer (oracle : Address) (answer : BitVec 256)
  | setPool (pool : Address) (price : BitVec 256)
  | read (key default : String)
  | write (key value : String)
  | readHeight (key : String) (default : UInt64)
  | writeHeight (key : String) (height : UInt64)
  /-- The value of a checkpoint, which is not created. -/
  | lookUp (key : String)
  | insert (t : Transfer)
  | since (chainId : UInt64) (symbol : String) (block : UInt64)
  | transfers
  | addRecipient (chainId : UInt64) (address : Address)
  | recipients (chainId : UInt64)
  | insertSnapshot (s : Snapshot)
  | latestSnapshot
  | snapshots
  | tick (scraper : Nat)
  | tryTick (scraper : Nat)
  /-- A tick that waits and one that does not, at the same time. -/
  | tickTwice (scraper : Nat)
  | scanWindow (scraper : Nat) (lastScanned head range overlap : UInt64)
  | catchUp (scraper : Nat) (cancelled : Bool)
  | catchUpAll (cancelled : Bool)
  | verifyDecimals (scraper : Nat)
  | refresh (node : Node)
  | record (node : Node) (height : UInt64)
  /-- Follows headers for some milliseconds. -/
  | follow (node : Node) (milliseconds : Nat)
  | nativePrice
  | referencePrice
  | tokenPrice (native : Decimal)
  | live
  | snapshot
  | latest

/-- What a command answers. -/
inductive Reply where
  | done
  | text (s : String)
  | optionalText (s : Option String)
  | flag (b : Bool)
  | height (n : UInt64)
  | transfers (rows : List Transfer)
  | addresses (addresses : List Address)
  | price (price : Decimal)
  | snapshot (s : Snapshot)
  | noSnapshot
  | snapshots (all : List Snapshot)
  | tick (o : TickOutcome)
  /-- A tick is under way. -/
  | busy
  | scan (o : ScanOutcome)
  | caughtUp (r : CatchUpReport)
  | two (first second : Except (List String) Reply)

/-- A reply, or what went wrong. -/
abbrev Result := Except (List String) Reply

/-- How a command is carried out. -/
inductive Plan where
  /-- At once. -/
  | change (f : World → Reply × World)
  /-- By running a process, which is cancelled at the start or after some milliseconds. -/
  | process (p : Process Engine Result) (cancelled : Bool) (cancelAfter : Option Nat)

namespace Plan

/-- A change that is not answered. -/
def edit (f : World → World) : Plan := .change fun w => (.done, f w)

/-- A look at the world. -/
def look (f : World → Reply) : Plan := .change fun w => (f w, w)

/-- A process whose answer is shown. -/
def answering (p : Process Engine (Except Fault α)) (reply : α → Reply) : Plan :=
  .process (p.map fun result => (result.map reply).mapError Fault.causes) false none

def action (a : Action α) (reply : α → Reply) : Plan := .answering (.run a.run) reply

/-- The plan with its process cancelled at the start. -/
def cancelledIf (cancelled : Bool) : Plan → Plan
  | .process p _ after => .process p cancelled after
  | plan => plan

end Plan

def tickReply : Option (Except Fault TickOutcome) → Result
  | none => .ok .busy
  | some result => (result.map .tick).mapError Fault.causes

def optionalSnapshot : Option Snapshot → Reply
  | some s => .snapshot s
  | none => .noSnapshot

/-- Does `use` with an element of a list, or says that there is none. -/
def pick (items : List α) (index : Nat) (missing : String) (use : α → Plan) :
    Except (List String) Plan :=
  match items[index]? with
  | some item => .ok (use item)
  | none => .error [missing]

variable (s : Simulation)

def withScraper (index : Nat) (use : Scraper → Plan) : Except (List String) Plan :=
  pick s.assembly.scrapers index "no such task" use

def withTracker (node : Node) (use : HeadTracker → Plan) : Except (List String) Plan :=
  pick s.assembly.trackers node "no such chain" use

def withAggregator (use : Aggregator → Plan) : Except (List String) Plan :=
  match s.aggregator with
  | some a => .ok (use a)
  | none => .error ["no prices configured"]

def editChain (node : Node) (f : ScriptedChain → ScriptedChain) : Except (List String) Plan :=
  pick s.world.chains node "no such chain" fun _ => .edit (·.updateChain node f)

def plan : Command → Except (List String) Plan
  | .setHead node height => s.editChain node fun c => { c with head := height }
  | .setFailing node rules => s.editChain node fun c => { c with failing := rules }
  | .setStoreFailing rules => .ok (.edit fun w => { w with storeFailing := rules })
  | .addBlock node number block =>
    s.editChain node fun c => { c with blocks := (number, block) :: c.blocks }
  | .addLog node contract log =>
    s.editChain node fun c => { c with logs := c.logs ++ [(contract, log)] }
  | .addSubscription node deliveries =>
    s.editChain node fun c => { c with subscriptions := c.subscriptions ++ [deliveries] }
  | .setLatency node latency => s.editChain node fun c => { c with latency }
  | .setAnswer oracle answer =>
    .ok (.edit fun w => { w with oracleAnswers := (oracle, answer) :: w.oracleAnswers })
  | .setPool pool price =>
    .ok (.edit fun w => { w with poolPrices := (pool, price) :: w.poolPrices })
  | .read key default => .ok (.action (Engine.readCheckpoint key default) .text)
  | .write key value => .ok (.action (Engine.writeCheckpoint key value) fun _ => .done)
  | .readHeight key default => .ok (.action (Engine.readHeight key default) .height)
  | .writeHeight key height => .ok (.action (Engine.writeHeight key height) fun _ => .done)
  | .lookUp key => .ok (.look fun w => .optionalText (w.store.checkpoints.get? key))
  | .insert t => .ok (.action (Engine.insertTransfer t) .flag)
  | .since chainId symbol block =>
    .ok (.look fun w => .transfers (w.store.ledger.since chainId symbol block))
  | .transfers => .ok (.look fun w => .transfers w.store.ledger.rows)
  | .addRecipient chainId address =>
    .ok (.edit fun w => { w with store := w.store.addRecipient chainId address })
  | .recipients chainId => .ok (.action (Engine.whitelist chainId) .addresses)
  | .insertSnapshot snapshot => .ok (.action (Engine.insertSnapshot snapshot) fun _ => .done)
  | .latestSnapshot => .ok (.action Engine.latestSnapshot optionalSnapshot)
  | .snapshots => .ok (.look fun w => .snapshots w.store.prices)
  | .tick scraper => s.withScraper scraper fun x => .action x.tick .tick
  | .tryTick scraper => s.withScraper scraper fun x =>
    .process (.run (tickReply <$> x.tryTick)) false none
  | .tickTwice scraper => s.withScraper scraper fun x =>
    let two := Process.both (.run x.tick.run) (.run x.tryTick)
    .process (two.map fun (a, b) => .ok (.two (tickReply (some a)) (tickReply b))) false none
  | .scanWindow scraper lastScanned head range overlap => s.withScraper scraper fun x =>
    .action (x.scanWindow lastScanned head range overlap) .scan
  | .catchUp scraper cancelled => s.withScraper scraper fun x =>
    (Plan.answering (CatchUp.worker x) .caughtUp).cancelledIf cancelled
  | .catchUpAll cancelled =>
    .ok (.process ((CatchUp.run s.assembly.scrapers).map fun _ => .ok .done) cancelled none)
  | .verifyDecimals scraper => s.withScraper scraper fun x =>
    .action x.verifyDecimals fun _ => .done
  | .refresh node => s.withTracker node fun t => .action t.refresh .height
  | .record node height => s.withTracker node fun t => .action (t.record height) .height
  | .follow node milliseconds => s.withTracker node fun t =>
    .process (t.follow.map fun _ => .ok .done) false (some milliseconds)
  | .nativePrice => s.withAggregator fun a => .action a.native .price
  | .referencePrice => s.withAggregator fun a => .action a.reference .price
  | .tokenPrice native => s.withAggregator fun a => .action (a.token native) .price
  | .live => s.withAggregator fun a => .answering a.live .snapshot
  | .snapshot => s.withAggregator fun a => .answering a.snapshot .snapshot
  | .latest => s.withAggregator fun _ => .action Aggregator.latest optionalSnapshot

/-- What is said of a process that does not end. -/
def endless : Result := .error ["the process does not end"]

/-- Carries out a plan, in as much time as it takes. -/
def perform (w : World) : Plan → Result × World
  | .change f =>
    let (reply, w) := f w
    (.ok reply, w)
  | .process p cancelled cancelAfter =>
    let deeds := cancelAfter.toList.map fun ms => Deed.cancel (w.now + ms)
    match run deeds () { w with cancelled } p with
    | some (result, w, ()) => (result, w)
    | none => (endless, w)

/-- Carries out a plan that takes no time. -/
def performAtOnce (w : World) : Plan → Result × World
  | .change f =>
    let (reply, w) := f w
    (.ok reply, w)
  | .process p _ _ =>
    match runAtOnce w p with
    | some (result, w) => (result, w)
    | none => (endless, w)

/-- Runs a command. -/
def execute (c : Command) : Result × Simulation :=
  match s.plan c with
  | .error causes => (.error causes, s)
  | .ok plan =>
    let (result, world) := perform s.world plan
    (result, { s with world })

/-- Runs a command that takes no time. -/
def executeAtOnce (w : World) (c : Command) : Result × World :=
  match s.plan c with
  | .error causes => (.error causes, w)
  | .ok plan => performAtOnce w plan

/-- A command at a time; what it answers is noted. -/
def timed (time : Nat) (c : Except (List String) Command) : Deed (List (Nat × Result)) where
  time
  act w notes :=
    match c with
    | .error causes => (w, notes ++ [(time, .error causes)])
    | .ok c =>
      let (result, w) := s.executeAtOnce w c
      (w, notes ++ [(time, result)])

/-- The scheduler of the simulated engine. -/
def scheduler? (cadences : CadenceSettings) : Option Scheduler :=
  s.aggregator.map fun a => ⟨cadences, s.assembly.trackers, s.assembly.scrapers, a⟩

/-- Runs a scheduler, with commands at their times, until it has ended after its cancellation. The
answer is what the commands answered, and the world at the end. -/
def runScheduler (scheduler : Scheduler)
    (timeline : List (Nat × Except (List String) Command)) (duration : Nat) :
    Option (List (Nat × Result) × World) :=
  let commands := timeline.map fun (time, c) => s.timed time c
  (run (commands ++ [Deed.cancel duration]) [] s.world scheduler.run).map fun (_, w, notes) =>
    (notes, w)

end Simulation

end ChainIngest
