import ChainIngest.Process
import ChainIngest.Engine.Query

/-!
Cadences: a job that runs once every period until cancelled. A run that takes longer than the
period delays the next one; runs never overlap, and delayed ones are not made up for.
-/

namespace ChainIngest.Cadence

open Engine

/-- The period of a setting, in milliseconds. It is at least a second. -/
def period (seconds : UInt64) : Nat := max seconds.toNat 1 * 1000

/-- How late, in milliseconds, a run may start without moving the runs after it. -/
def tolerance : Nat := 5

/-- The deadline after one that was seen at time `now`. -/
def nextDeadline (period deadline now : Nat) : Nat :=
  if deadline + tolerance < now then now + period else deadline + period

/-- One round: waits for the deadline, and runs the job. Cancellation is seen while waiting. -/
def round (name : Job) (period : Nat) (job : Process Engine (Except Fault Unit))
    (deadline : Nat) : Process Engine (Nat ⊕ Unit) := do
  match ← .run (ask (.waitUntil deadline)) with
  | .cancelled => return .inr ()
  | .arrived now =>
    match ← job with
    | .ok () => return .inl (nextDeadline period deadline now)
    | .error fault =>
      .run (tell (.jobFailed name fault))
      return .inl (nextDeadline period deadline now)

/-- Runs a job every so many seconds until cancelled, the first time after one period. -/
def run (name : Job) (seconds : UInt64) (job : Process Engine (Except Fault Unit)) :
    Process Engine Unit := do
  let start ← .run now
  .loop (start + period seconds) (round name (period seconds) job)
  .run (tell (.cadenceStopped name))

end ChainIngest.Cadence
