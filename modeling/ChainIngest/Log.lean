import ChainIngest.Engine.Notice

/-!
The log: lines with a level and the part of the program that they come from, and which of them are
shown.
-/

namespace ChainIngest

/-- A line of the log. -/
structure LogLine where
  level : Level
  origin : String
  text : String
  deriving DecidableEq, Repr

/-- A log line as it is shown. -/
def LogLine.line (l : LogLine) : String := s!"{l.level.name} [{l.origin}] {l.text}"

/-- How serious a level is. -/
def Level.rank : Level → Nat
  | .debug => 1
  | .info => 2
  | .warn => 3
  | .error => 4

namespace Log

/-- The variable that sets how much is shown. -/
def variableName : String := "RUST_LOG"

/-- The least rank that is shown, by the words for it. -/
def ranks : List (String × Nat) :=
  [("off", 5), ("error", 4), ("warn", 3), ("info", 2), ("debug", 1), ("trace", 0)]

/-- The least rank that is shown where the environment does not say otherwise. -/
def defaultRank : Nat := Level.info.rank

/-- The least rank that is shown in an environment. A word that says nothing is ignored. -/
def shownRank (environment : List (String × String)) : Nat :=
  match environment.lookup variableName with
  | some word => (ranks.lookup (word.map Char.toLower)).getD defaultRank
  | none => defaultRank

/-- Whether a line is shown. -/
def isShown (rank : Nat) (l : LogLine) : Bool := rank ≤ l.level.rank

end Log

end ChainIngest
