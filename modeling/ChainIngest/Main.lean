import ChainIngest.Launch

/-!
The command: starts an engine from the settings file in the current directory and the environment.
-/

namespace ChainIngest

/-- The text of a file, if it can be read. -/
def readFile? (path : String) : IO (Option String) :=
  try
    return some (← IO.FS.readFile path)
  catch _ => return none

/-- The files that settings may be in. -/
def settingsFiles : IO (List (String × String)) :=
  Settings.fileNames.filterMapM fun (name, _) => do
    return (← readFile? name).map (name, ·)

/-- The variables of the environment. -/
def environment : IO (List (String × String)) := do
  let text := (← readFile? "/proc/self/environ").getD ""
  return (text.splitOn (String.singleton (Char.ofNat 0))).filterMap fun entry =>
    match entry.splitOn "=" with
    | name :: value :: more => some (name, "=".intercalate (value :: more))
    | _ => none

/-- Answers a query of a program. Files, the log and time are those of the machine. There is no
way to connect to anything here. -/
def answerHere (shownRank : Nat) : (q : Network.Query) → IO (Network.Answer q)
  | .log line => if Log.isShown shownRank line then IO.println line.line else return ()
  | .pause milliseconds => IO.sleep (UInt32.ofNat milliseconds)
  | .readFile path => readFile? path
  | q => return Network.refuse q

/-- A fault with its causes, as the command ends with it. -/
def showFault (causes : List String) : String :=
  match causes with
  | [] => "Error"
  | [message] => s!"Error: {message}"
  | message :: rest => s!"Error: {message}\n\nCaused by:\n    " ++ "\n    ".intercalate rest

end ChainIngest

open ChainIngest in
def main : IO UInt32 := do
  let environment ← environment
  let answer := answerHere (Log.shownRank environment)
  match ← (Launch.start (← settingsFiles) environment).run.interpret answer with
  | .ok (scheduler, _) =>
    IO.println s!"{scheduler.scrapers.length} tasks on {scheduler.trackers.length} chains"
    return 0
  | .error fault =>
    IO.eprintln (showFault fault.causes)
    return 1
