import ChainIngest.Process

/-!
Execution of processes in surroundings that answer in their own time. A query is issued once and
then polled until its answer has come. Of parts that run at the same time, each goes on until it
waits, the left one first; two of which one may end the other take turns at going first.
-/

namespace ChainIngest

/-- Surroundings with a state `σ`. -/
structure Host (I : Interface) (σ : Type) where
  /-- What a query under way is known by. -/
  Ticket : Type
  issue : σ → I.Query → Ticket × σ
  /-- The answer to a query, if it has come. -/
  poll : σ → (query : I.Query) → Ticket → Option (I.Answer query × σ)

/-- A process under way. -/
inductive Execution {I : Interface} {σ : Type} (H : Host I σ) : Type → Type 1 where
  | ended {α : Type} (value : α) : Execution H α
  /-- A program that has not begun. -/
  | ready {α : Type} (program : Program I α) : Execution H α
  /-- A program that waits for an answer. -/
  | waiting {α : Type} (query : I.Query) (ticket : H.Ticket)
      (next : I.Answer query → Program I α) : Execution H α
  | andThen {α β : Type} (first : Execution H α) (next : α → Process I β) : Execution H β
  | both {α β : Type} (left : Execution H α) (right : Execution H β) : Execution H (α × β)
  | untilFailure {ε α β : Type} (left : Execution H (Except ε α)) (right : Execution H (Except ε β))
      (rightFirst : Bool) : Execution H (Except ε (α × β))
  | loop {σ α : Type} (current : Execution H (σ ⊕ α)) (round : σ → Process I (σ ⊕ α)) :
      Execution H α

namespace Execution

variable {I : Interface} {σ : Type} {H : Host I σ} {α : Type}

/-- A process at its start. -/
def start (H : Host I σ) : {α : Type} → Process I α → Execution H α
  | _, .run program => .ready program
  | _, .andThen first next => .andThen (start H first) next
  | _, .both left right => .both (start H left) (start H right)
  | _, .untilFailure left right => .untilFailure (start H left) (start H right) false
  | _, .loop state round => .loop (start H (round state)) round

/-- The answer of a process that has ended. -/
def value? : {α : Type} → Execution H α → Option α
  | _, .ended value => some value
  | _, _ => none

/-- The same execution at a later moment: who went first goes second. -/
def turn : {α : Type} → Execution H α → Execution H α
  | _, .ended value => .ended value
  | _, .ready program => .ready program
  | _, .waiting query ticket next => .waiting query ticket next
  | _, .andThen first next => .andThen (turn first) next
  | _, .both left right => .both (turn left) (turn right)
  | _, .untilFailure left right rightFirst => .untilFailure (turn left) (turn right) !rightFirst
  | _, .loop current round => .loop (turn current) round

/-- Two processes of which a failure ends both. -/
def joined {ε β : Type} (left : Execution H (Except ε α)) (right : Execution H (Except ε β))
    (rightFirst : Bool) : Execution H (Except ε (α × β)) :=
  match left.value?, right.value? with
  | some (.error e), _ => .ended (.error e)
  | _, some (.error e) => .ended (.error e)
  | some (.ok a), some (.ok b) => .ended (.ok (a, b))
  | _, _ => .untilFailure left right rightFirst

/-- Runs a program until it waits or ends. -/
def runProgram (H : Host I σ) (s : σ) : Program I α → Execution H α × σ
  | .pure value => (.ended value, s)
  | .query q next =>
    let (ticket, s) := H.issue s q
    match H.poll s q ticket with
    | some (answer, s) => runProgram H s (next answer)
    | none => (.waiting q ticket next, s)

/-- Runs a process until every part of it waits or has ended. The fuel bounds how often a part is
followed by a next one. -/
def advance : (fuel : Nat) → {α : Type} → σ → Execution H α → Execution H α × σ
  | 0, _, s, e => (e, s)
  | _ + 1, _, s, .ended value => (.ended value, s)
  | _ + 1, _, s, .ready program => runProgram H s program
  | _ + 1, _, s, .waiting q ticket next =>
    match H.poll s q ticket with
    | some (answer, s) => runProgram H s (next answer)
    | none => (.waiting q ticket next, s)
  | fuel + 1, _, s, .andThen first next =>
    match advance fuel s first with
    | (.ended value, s) => advance fuel s (start H (next value))
    | (first, s) => (.andThen first next, s)
  | fuel + 1, _, s, .both left right =>
    let (left, s) := advance fuel s left
    let (right, s) := advance fuel s right
    match left, right with
    | .ended a, .ended b => (.ended (a, b), s)
    | left, right => (.both left right, s)
  | fuel + 1, _, s, .untilFailure left right rightFirst =>
    if rightFirst then
      let (right, s) := advance fuel s right
      match right.value? with
      | some (.error e) => (.ended (.error e), s)
      | _ =>
        let (left, s) := advance fuel s left
        (joined left right rightFirst, s)
    else
      let (left, s) := advance fuel s left
      match left.value? with
      | some (.error e) => (.ended (.error e), s)
      | _ =>
        let (right, s) := advance fuel s right
        (joined left right rightFirst, s)
  | fuel + 1, _, s, .loop current round =>
    match advance fuel s current with
    | (.ended (.inr value), s) => (.ended value, s)
    | (.ended (.inl state), s) => advance fuel s (.loop (start H (round state)) round)
    | (current, s) => (.loop current round, s)

/-- The tickets of the queries under way. -/
def tickets : {α : Type} → Execution H α → List H.Ticket
  | _, .ended _ => []
  | _, .ready _ => []
  | _, .waiting _ ticket _ => [ticket]
  | _, .andThen first _ => tickets first
  | _, .both left right => tickets left ++ tickets right
  | _, .untilFailure left right _ => tickets left ++ tickets right
  | _, .loop current _ => tickets current

end Execution

end ChainIngest
