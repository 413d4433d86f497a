import ChainIngest.Network

/-!
The database as a store: connecting with a few attempts, setting up its tables, and the statement
behind each operation of the store.
-/

namespace ChainIngest.Postgres

/-- What went wrong, in the context in which it did. -/
inductive StoreError where
  /-- No connection after the last attempt. -/
  | unreachable (attempts : Nat) (fault : ConnectionFault)
  | noConnection (fault : ConnectionFault)
  | noSchema
  | badSchema (e : SqlError)
  | unreadCheckpoint (key : String) (e : SqlError)
  | failed (e : SqlError)
  | row (e : RowError)
  deriving DecidableEq, Repr

end Postgres

/-- What a pool of connections says of a fault. -/
def ConnectionFault.message : ConnectionFault → String
  | .refused => "Error occurred while creating a new object: error connecting to server"

namespace Postgres

/-- The path of the statements that set up the tables. -/
def schemaPath : String := "schema/postgres.sql"

/-- The messages of an error, outermost first. -/
def StoreError.causes : StoreError → List String
  | .unreachable attempts fault =>
    [s!"Failed to connect to PostgreSQL after {attempts} attempts: {fault.message}"]
  | .noConnection fault => [fault.message]
  | .noSchema => [s!"Failed to read {schemaPath}", "No such file or directory (os error 2)"]
  | .badSchema _ => ["Failed to apply PostgreSQL schema", "db error"]
  | .unreadCheckpoint key _ => [s!"Failed to read checkpoint {key}", "db error"]
  | .failed _ => ["db error"]
  | .row e => e.causes

/-- A program that may stop with an error of the store. -/
abbrev StoreCall (α : Type) := ExceptT StoreError (Program Network) α

def clientOrigin : String := "pricefeed::db::postgres::client"

def log (level : Level) (text : String) : Program Network Unit :=
  Network.ask (.log ⟨level, clientOrigin, text⟩)

/-- How often a connection is tried. -/
def maxAttempts : Nat := 3

/-- Milliseconds before the attempt after number `attempt`. -/
def retryDelay (attempt : Nat) : Nat := 100 * Nat.pow 2 attempt

/-- Tries to connect, at most `left` times after attempt number `attempt - 1`. -/
def tryConnect (settings : PostgresSettings) : (left attempt : Nat) → StoreCall Unit
  | 0, _ => throw (.unreachable maxAttempts .refused)
  | left + 1, attempt => do
    match ← Network.ask (.connectDatabase settings) with
    | .ok () => log .info "Successfully connected to PostgreSQL"
    | .error fault =>
      if left = 0 then throw (.unreachable maxAttempts fault)
      let delay := retryDelay attempt
      log .warn (s!"Failed to connect to PostgreSQL (attempt {attempt}/{maxAttempts}): " ++
        s!"{fault.message}. Retrying in {delay}ms...")
      Network.ask (.pause delay)
      tryConnect settings left (attempt + 1)

def connect (settings : PostgresSettings) : StoreCall Unit := do
  log .info s!"Connecting to PostgreSQL at {settings.host}:{settings.port}"
  tryConnect settings maxAttempts 1

/-- Takes a connection from the pool. -/
def useConnection (settings : PostgresSettings) : StoreCall Unit := do
  match ← Network.ask (.connectDatabase settings) with
  | .ok () => return
  | .error fault => throw (.noConnection fault)

/-- Sets up the tables. Doing so again changes nothing. -/
def migrate (settings : PostgresSettings) : StoreCall Unit := do
  log .info "Running PostgreSQL migrations"
  useConnection settings
  match ← Network.ask (.readFile schemaPath) with
  | none => throw .noSchema
  | some schema =>
    match ← Network.ask (.runScript schema) with
    | .error e => throw (.badSchema e)
    | .ok () => log .info "PostgreSQL migrations completed successfully"

/-- Connects and sets up the tables. -/
def openStore (settings : PostgresSettings) : StoreCall Unit := do
  connect settings
  migrate settings
  Network.ask (.log ⟨.info, "pricefeed::db", "Database ready"⟩)

/-! ### Operations -/

/-- Runs a statement on a connection of the pool. -/
def run (settings : PostgresSettings) (s : Statement) (onError : SqlError → StoreError) :
    StoreCall s.Outcome := do
  useConnection settings
  match ← Network.ask (.runStatement s) with
  | .ok outcome => return outcome
  | .error e => throw (onError e)

def orRowError : Except RowError α → StoreCall α
  | .ok value => pure value
  | .error e => throw (.row e)

variable (settings : PostgresSettings)

def readCheckpoint (key default : String) : StoreCall String :=
  run settings (.get key default) (.unreadCheckpoint key)

def writeCheckpoint (key value : String) : StoreCall Unit := run settings (.set key value) .failed

/-- Adds a transfer unless its identity is taken; whether it was added. -/
def insertTransfer (t : Transfer) : StoreCall Bool := do
  let added ← run settings (.insertTransfer (.ofTransfer t)) .failed
  return added == (1 : Nat)

/-- The transfers of an asset in the blocks after one, the newest first. -/
def transfersSince (chainId : UInt64) (symbol : String) (block : UInt64) :
    StoreCall (List Transfer) := do
  let statement : Statement :=
    .selectTransfers chainId.toInt64 (Text.uppercase symbol) block.toInt64
  let rows ← run settings statement .failed
  (rows : List TransferRow).mapM fun row => orRowError row.toTransfer

def insertSnapshot (s : DatedSnapshot) : StoreCall Unit :=
  run settings (.insertPrice (.ofSnapshot s)) .failed

def latestSnapshot : StoreCall (Option DatedSnapshot) := do
  match ← run settings .latestPrice .failed with
  | none => return none
  | some row => return some (← orRowError (PriceRow.toSnapshot row))

def whitelist (chainId : UInt64) : StoreCall (List Address) := do
  let texts ← run settings (.whitelist chainId.toInt64) .failed
  (texts : List String).mapM fun text => orRowError (readRecipient text)

end Postgres

end ChainIngest
