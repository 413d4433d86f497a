import ChainIngest.Simulation.World

/-!
Traces of a simulation as lines: in order, or sorted where the order says nothing.
-/

namespace ChainIngest.Simulation.Trace

/-- Calls for blocks that follow one another. -/
inductive Entry where
  | line (s : String)
  | blocks (chain : String) (first last : UInt64)

def Entry.text : Entry → String
  | .line s => s
  | .blocks chain first last =>
    if first = last then s!"rpc {chain} block {first}" else s!"rpc {chain} block {first}-{last}"

/-- Puts an event in front of entries, joined with the first one if that goes on where it ends. -/
def push (e : Event) (entries : List Entry) : List Entry :=
  match e with
  | .called chain (.block number) =>
    match entries with
    | .blocks c first last :: rest =>
      if c = chain ∧ number + 1 = first then .blocks chain number last :: rest
      else .blocks chain number number :: .blocks c first last :: rest
    | entries => .blocks chain number number :: entries
  | e => .line e.line :: entries

/-- Events in their order, with runs of blocks on one line. `events` has the last one first. -/
def joined (events : List Event) : List String :=
  (events.foldl (fun entries e => push e entries) []).map Entry.text

/-- Whether a line comes before or with another one. -/
def inOrder (a b : String) : Bool := !(b < a)

def isCatchUp : Event → Bool
  | .told notice => notice.origin == .catchUp
  | .called _ _ => false

/-- The lines of catching up in their order, then the others sorted. -/
def catchUpFirst (events : List Event) : List String :=
  let (catchUp, others) := events.partition isCatchUp
  catchUp.map Event.line ++ (others.map Event.line).mergeSort inOrder

/-- Lines with their times since `start`, sorted by time and text. -/
def timed (start : Nat) (events : List (Nat × Event)) : List (Nat × String) :=
  (events.map fun (time, e) => (time - start, e.line)).mergeSort fun a b =>
    a.1 < b.1 || (a.1 == b.1 && inOrder a.2 b.2)

end ChainIngest.Simulation.Trace
