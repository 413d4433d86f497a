import ChainIngest.Log
import ChainIngest.Postgres.Statement
import ChainIngest.Program
import ChainIngest.Rpc.Message
import ChainIngest.Settings

/-!
The outside world: nodes, the database, files, the clock and the log, as programs see them.
-/

namespace ChainIngest

/-- Why there is no connection to a server. -/
inductive ConnectionFault where
  | refused
  deriving DecidableEq, Repr

namespace Network

inductive Query where
  /-- Opens a socket to a node for subscriptions. -/
  | openSocket (url : String)
  | request (url : String) (request : Rpc.Request)
  /-- The time of a chain's block, if it is remembered: what was remembered last, or nothing. -/
  | recallTime (chain : String) (block : UInt64)
  | rememberTime (chain : String) (block time : UInt64)
  /-- Asks the pool for a connection to the database. -/
  | connectDatabase (settings : PostgresSettings)
  | runScript (sql : String)
  | runStatement (statement : Postgres.Statement)
  | readFile (path : String)
  /-- The time, in microseconds since 1970. -/
  | utcTime
  /-- Waits for some milliseconds. -/
  | pause (milliseconds : Nat)
  | log (line : LogLine)

abbrev Answer : Query → Type
  | .openSocket _ => Except Rpc.Failure Unit
  | .request .. => Rpc.Reply
  | .recallTime .. => Option UInt64
  | .rememberTime .. => Unit
  | .connectDatabase _ => Except ConnectionFault Unit
  | .runScript _ => Except Postgres.SqlError Unit
  | .runStatement s => Except Postgres.SqlError s.Outcome
  | .readFile _ => Option String
  | .utcTime => Int
  | .pause _ => Unit
  | .log _ => Unit

end Network

abbrev Network : Interface := ⟨Network.Query, Network.Answer⟩

namespace Network

/-- Asks one query. -/
def ask (q : Query) : Program Network (Answer q) := Program.ask (I := Network) q

/-- The answer to a query where nobody can be connected to. What is remembered is lost, waiting
takes no time, it is always the beginning of 1970, and the log is not kept. -/
def refuse : (q : Query) → Answer q
  | .openSocket _ => .error .refused
  | .request .. => .error .refused
  | .recallTime .. => none
  | .rememberTime .. => ()
  | .connectDatabase _ => .error .refused
  | .runScript _ => .error ⟨"08006"⟩
  | .runStatement _ => .error ⟨"08006"⟩
  | .readFile _ => none
  | .utcTime => (0 : Int)
  | .pause _ => ()
  | .log _ => ()

end Network

end ChainIngest
