import ChainIngest.Process.Execution
import ChainIngest.Simulation.Script
import ChainIngest.Store

/-!
The world of a simulation: scripted chains and prices, a store in memory, a clock, and the record
of what was called and told. It answers the queries of an engine.
-/

namespace ChainIngest.Simulation

/-- What is recorded. -/
inductive Event where
  | called (chain : String) (call : Call)
  | told (notice : Notice)

/-- An event as one line. -/
def Event.line : Event → String
  | .called chain call => s!"rpc {chain} {call.label}"
  | .told notice => notice.line

/-- What a query under way waits for. -/
inductive Ticket where
  /-- A time, or nothing that ever comes. A wait that can be cancelled also ends with that. -/
  | due (time : Option Nat) (cancellable : Bool)
  /-- A turn at a guard. -/
  | turn (guard : Guard) (number : Nat)

structure World where
  /-- Milliseconds since the start. -/
  now : Nat
  cancelled : Bool
  chains : List ScriptedChain
  oracleAnswers : List (Address × BitVec 256)
  poolPrices : List (Address × BitVec 256)
  priceLatency : Nat
  store : Store
  /-- Rules that name the calls to the store which fail. -/
  storeFailing : List String
  /-- Turns taken at each guard, in order; the first one holds the guard. -/
  turns : List (Guard × Nat)
  /-- Queries answered so far; also the number of the next turn. -/
  answered : Nat
  /-- What is left of each open subscription. -/
  subscriptions : List (List Delivery)
  /-- Events with their times, the last one first. -/
  events : List (Nat × Event)

namespace World

def empty : World where
  now := 0
  cancelled := false
  chains := []
  oracleAnswers := []
  poolPrices := []
  priceLatency := 0
  store := .empty
  storeFailing := []
  turns := []
  answered := 0
  subscriptions := []
  events := []

def record (w : World) (e : Event) : World := { w with events := (w.now, e) :: w.events }

/-- A chain changed by `f`. -/
def updateChain (w : World) (node : Node) (f : ScriptedChain → ScriptedChain) : World :=
  { w with chains := w.chains.modify node f }

/-! ### Issuing -/

/-- A wait of some milliseconds. -/
def after (w : World) (milliseconds : Nat) (cancellable : Bool) : Ticket :=
  .due (some (w.now + milliseconds)) cancellable

/-- Records a call and starts its wait. -/
def call (w : World) (node : Node) (call : Call) (cancellable : Bool) : Ticket × World :=
  match w.chains[node]? with
  | some chain =>
    (w.after (chain.latencyOf call) cancellable, w.record (.called chain.name call))
  | none => (w.after 0 cancellable, w)

/-- What the next event of a subscription waits for. -/
def nextDelivery (w : World) (subscription : Subscription) : Ticket :=
  match w.subscriptions[subscription]? with
  | some (.height delay _ :: _) | some (.error delay _ :: _) => w.after delay true
  | some (.silence :: _) => .due none true
  | some [] | none => w.after 0 true

def issue (w : World) : Engine.Query → Ticket × World
  | .headHeight node => w.call node .head false
  | .block node number => w.call node (.block number) false
  | .blockTime node number => w.call node (.timestamp number) false
  | .transferLogs node _ first last => w.call node (.logs first last) false
  | .tokenDecimals node _ => w.call node .decimals false
  | .subscribe node => w.call node .subscribe true
  | .nextHeader subscription => (w.nextDelivery subscription, w)
  | .oracleAnswer _ | .poolPrice _ => (w.after w.priceLatency false, w)
  | .acquire guard =>
    (.turn guard w.answered, { w with turns := w.turns ++ [(guard, w.answered)] })
  | .pause milliseconds => (w.after milliseconds true, w)
  | .waitUntil deadline => (.due (some (max deadline w.now)) true, w)
  | _ => (w.after 0 false, w)

/-- Whether a wait is over. -/
def isOver (w : World) : Ticket → Bool
  | .due time cancellable => time.any (· ≤ w.now) || (cancellable && w.cancelled)
  | .turn guard number => w.turns.lookup guard == some number

/-! ### Answering -/

/-- The answer to a call: an error if the script says so, and what the chain says if not. -/
def chainAnswer (w : World) (node : Node) (call : Call)
    (answer : ScriptedChain → Except Fault α) : Except Fault α :=
  match w.chains[node]? with
  | none => .error (.reported "no such chain" [])
  | some chain =>
    if call.failsUnder chain.failing then
      .error (.reported s!"rpc unavailable: {call.label}" [])
    else answer chain

/-- The answer to a call to the store, which changes nothing if it fails. -/
def storeAnswer (w : World) (call : StoreCall) (answer : Store → α × Store) :
    Except Fault α × World :=
  if call.failsUnder w.storeFailing then
    (.error (.reported s!"store unavailable: {call.label}" []), w)
  else
    let (value, store) := answer w.store
    (.ok value, { w with store })

/-- What a script holds under a key, or an error. -/
def scripted [BEq α] (values : List (α × β)) (key : α) (missing : String) : Except Fault β :=
  match values.lookup key with
  | some value => .ok value
  | none => .error (.reported missing [])

/-- Opens the next subscription of a chain. -/
def openSubscription (w : World) (node : Node) : Except Fault Subscription × World :=
  match w.chainAnswer node .subscribe fun chain => .ok chain.subscriptions with
  | .error fault => (.error fault, w)
  | .ok subscriptions =>
    let w := w.updateChain node fun chain => { chain with subscriptions := subscriptions.drop 1 }
    match subscriptions with
    | some deliveries :: _ => (.ok w.subscriptions.length, { w with subscriptions := w.subscriptions ++ [deliveries] })
    | none :: _ | [] => (.error (.reported "subscription refused" []), w)

/-- Takes the next event of a subscription. -/
def deliver (w : World) (subscription : Subscription) : HeaderEvent × World :=
  let w' := { w with subscriptions := w.subscriptions.modify subscription (·.drop 1) }
  match w.subscriptions[subscription]? with
  | some (.height _ height :: _) => (.height height, w')
  | some (.error _ message :: _) => (.error (.reported message []), w')
  | _ => (.closed, w')

/-- A result that counts only if there was no cancellation. -/
def unlessCancelled (w : World) (result : World → α × World) : Awaited α × World :=
  if w.cancelled then (.cancelled, w)
  else
    let (value, w) := result w
    (.arrived value, w)

/-- Frees a guard for the next one in turn. -/
def release (w : World) (guard : Guard) : World :=
  { w with turns := w.turns.eraseP (·.1 == guard) }

def answer (w : World) : (q : Engine.Query) → Engine.Answer q × World
  | .readCheckpoint key default => w.storeAnswer (.get key) (·.read key default)
  | .writeCheckpoint key value => w.storeAnswer (.set key) fun s => ((), s.write key value)
  | .insertTransfer t => w.storeAnswer (.insert t.block) (·.insertTransfer t)
  | .insertSnapshot s => w.storeAnswer .insertPrice fun store => ((), store.insertSnapshot s)
  | .latestSnapshot => w.storeAnswer .latestPrice fun s => (s.latestSnapshot, s)
  | .whitelist chainId => w.storeAnswer .whitelist fun s => (s.whitelist chainId, s)
  | .headHeight node => (w.chainAnswer node .head fun c => .ok c.head, w)
  | .block node number => (w.chainAnswer node (.block number) fun c => .ok (c.block number), w)
  | .blockTime node number =>
    (w.chainAnswer node (.timestamp number) fun c => .ok (c.block number).timestamp, w)
  | .transferLogs node contract first last =>
    (w.chainAnswer node (.logs first last) fun c => .ok (c.logsBetween contract first last), w)
  | .tokenDecimals node contract =>
    (w.chainAnswer node .decimals fun c => scripted c.decimals contract "no decimals", w)
  | .subscribe node => w.unlessCancelled (·.openSubscription node)
  | .nextHeader subscription => w.unlessCancelled (·.deliver subscription)
  | .oracleAnswer oracle => (scripted w.oracleAnswers oracle "unknown oracle", w)
  | .poolPrice pool => (scripted w.poolPrices pool "unknown pool", w)
  | .acquire _ => ((), w)
  | .tryAcquire guard =>
    if w.turns.any (·.1 == guard) then (false, w)
    else (true, { w with turns := w.turns ++ [(guard, w.answered)] })
  | .release guard => ((), w.release guard)
  | .isCancelled => (w.cancelled, w)
  | .now => (w.now, w)
  | .pause _ => w.unlessCancelled fun w => ((), w)
  | .waitUntil deadline =>
    -- A deadline that has passed is met, even after the cancellation.
    if deadline < w.now then (.arrived w.now, w) else w.unlessCancelled fun w => (w.now, w)
  | .tell notice => ((), w.record (.told notice))

/-- The answer to a query, once its wait is over. -/
def poll (w : World) (q : Engine.Query) (ticket : Ticket) : Option (Engine.Answer q × World) :=
  if w.isOver ticket then
    let (answer, w) := w.answer q
    some (answer, { w with answered := w.answered + 1 })
  else none

def host : Host Engine World where
  Ticket := Ticket
  issue := issue
  poll := poll

end World

end ChainIngest.Simulation
