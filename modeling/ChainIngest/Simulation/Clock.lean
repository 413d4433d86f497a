import ChainIngest.Simulation.World

/-!
Simulated time: it stands still while any part of a process can go on, and then jumps to the next
time that something waits for.
-/

namespace ChainIngest.Simulation

/-- Something done to the world from outside, at a time. -/
structure Deed (τ : Type) where
  time : Nat
  act : World → τ → World × τ

/-- Cancels what runs. -/
def Deed.cancel (time : Nat) : Deed τ := ⟨time, fun w notes => ({ w with cancelled := true }, notes)⟩

/-- Bound of the steps of a simulation. -/
def maxSteps : Nat := Nat.pow 10 15

/-- Lets a process go on until every part of it waits for a later time. -/
def settle (fuel : Nat) (w : World) (e : Execution World.host α) :
    Execution World.host α × World :=
  match fuel with
  | 0 => (e, w)
  | fuel + 1 =>
    let (e', w') := e.advance maxSteps w
    if w'.answered = w.answered then (e', w') else settle fuel w' e'

/-- The time that a wait ends at. -/
def Ticket.time? : Ticket → Option Nat
  | .due time _ => time
  | .turn _ _ => none

/-- The next time at which something happens. -/
def nextTime? (deeds : List (Deed τ)) (e : Execution World.host α) : Option Nat :=
  ((deeds.head?.map Deed.time).toList ++ e.tickets.filterMap Ticket.time?).min?

/-- Does what is to be done by now. -/
def doDue (w : World) (notes : τ) : List (Deed τ) → World × τ × List (Deed τ)
  | [] => (w, notes, [])
  | deed :: rest =>
    if deed.time ≤ w.now then
      let (w, notes) := deed.act w notes
      doDue w notes rest
    else (w, notes, deed :: rest)

/-- Runs a process to its end, if it has one. -/
def runUntilEnd : (fuel : Nat) → List (Deed τ) → τ → World → Execution World.host α →
    Option (α × World × τ)
  | 0, _, _, _, _ => none
  | fuel + 1, deeds, notes, w, e =>
    let (e, w) := settle maxSteps w e
    match e.value? with
    | some value => some (value, w, notes)
    | none =>
      match nextTime? deeds e with
      | none => none
      | some time =>
        let (w, notes, deeds) := doDue { w with now := max w.now time } notes deeds
        runUntilEnd fuel deeds notes w e.turn

/-- Runs a process while deeds are done, in the order of their times. -/
def run (deeds : List (Deed τ)) (notes : τ) (w : World) (p : Process Engine α) :
    Option (α × World × τ) :=
  runUntilEnd maxSteps deeds notes w (.start World.host p)

/-- Runs a process that never waits. -/
def runAtOnce (w : World) (p : Process Engine α) : Option (α × World) :=
  let (e, w) := settle maxSteps w (.start World.host p)
  e.value?.map (·, w)

end ChainIngest.Simulation
