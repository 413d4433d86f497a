import ChainIngest.Number.Numeral

/-!
What can go wrong while an engine runs. A fault is a cause, in the contexts in which it was met.
-/

namespace ChainIngest

/-- What was being done when a fault was met. -/
inductive FaultContext where
  | readingPrimaryOracle
  | readingReferenceOracle
  | readingPool
  deriving DecidableEq, Repr

def FaultContext.message : FaultContext → String
  | .readingPrimaryOracle => "Failed to read primary oracle"
  | .readingReferenceOracle => "Failed to read reference oracle"
  | .readingPool => "Failed to read pool price"

inductive Fault where
  /-- A store or a chain reports an error in its own words, outermost first. -/
  | reported (message : String) (causes : List String)
  /-- A checkpoint that should hold a height holds something else. -/
  | notANumber (key value : String) (reason : Number.NumeralError)
  /-- The stored scan range of a task is zero. -/
  | emptyRange (task : String)
  | within (context : FaultContext) (cause : Fault)
  deriving DecidableEq, Repr

namespace Fault

/-- The messages of a fault, outermost first. -/
def causes : Fault → List String
  | .reported message causes => message :: causes
  | .notANumber key value reason =>
    [s!"Checkpoint {key} holds non-numeric value '{value}'", reason.message]
  | .emptyRange task => [s!"Scan range for {task} is zero"]
  | .within context cause => context.message :: cause.causes

/-- All messages on one line. -/
def message (f : Fault) : String := ": ".intercalate f.causes

end Fault

end ChainIngest
