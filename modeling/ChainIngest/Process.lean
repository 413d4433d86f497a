import ChainIngest.Program

/-!
Processes: programs run one after another, side by side, and over and over. A process may go on
for ever; each round of a loop is a process of its own, so that the tree of a process is finite
and what runs is decided step by step.
-/

namespace ChainIngest

/-- A process that answers with an `α`, if it ends. -/
inductive Process (I : Interface) : Type → Type 1 where
  | run {α : Type} (program : Program I α) : Process I α
  | andThen {α β : Type} (first : Process I α) (next : α → Process I β) : Process I β
  /-- Two processes at the same time; it ends when both have ended. -/
  | both {α β : Type} (left : Process I α) (right : Process I β) : Process I (α × β)
  /-- Two processes at the same time, both ended by the first failure. -/
  | untilFailure {ε α β : Type} (left : Process I (Except ε α)) (right : Process I (Except ε β)) :
      Process I (Except ε (α × β))
  /-- Rounds from a state, each ending in a new state or in the answer. -/
  | loop {σ α : Type} (state : σ) (round : σ → Process I (σ ⊕ α)) : Process I α

namespace Process

variable {I : Interface} {α β : Type}

/-- The process that has ended. -/
def done (value : α) : Process I α := .run (.pure value)

protected def map (f : α → β) (p : Process I α) : Process I β := p.andThen fun a => done (f a)

instance : Monad (Process I) where
  pure := done
  bind := andThen
  map := Process.map

/-- All processes at the same time. The answers are in the order of the processes. -/
def all : List (Process I α) → Process I (List α)
  | [] => done []
  | p :: rest => (p.both (all rest)).map fun (a, as) => a :: as

/-- All processes at the same time. What is to be done with each answer is done in the order of
the processes, as soon as that process and all before it have ended. -/
def allInOrder (use : α → Program I Unit) (ps : List (Process I α)) : Process I Unit :=
  ps.foldl (fun before p => (before.both p).andThen fun (_, a) => .run (use a)) (done ())

/-- Rounds that are programs. -/
def repeatProgram {σ : Type} (state : σ) (round : σ → Program I (σ ⊕ α)) : Process I α :=
  .loop state fun s => .run (round s)

end Process

end ChainIngest
