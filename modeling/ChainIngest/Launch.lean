import ChainIngest.Engine.Assembly
import ChainIngest.Live
import ChainIngest.Settings.Loading
import ChainIngest.Settings.Validation

/-!
Launching: settings are loaded and checked, the database is opened, every chain is connected to,
and the parts of the engine are put together.
-/

namespace ChainIngest.Launch

/-- Why an engine does not start. -/
inductive Fault where
  | settings (e : Settings.LoadError)
  | invalid (r : Settings.Refusal)
  | store (e : Postgres.StoreError)
  | node (chain : String) (e : Rpc.CallError)
  | assembly (e : Assembly.BuildError)
  deriving DecidableEq, Repr

/-- The messages of a fault, outermost first. What is wrong with a settings file is not told. -/
def Fault.causes : Fault → List String
  | .settings _ => ["Failed to load config.yaml. Please ensure it exists and is valid"]
  | .invalid r => "Invalid configuration" :: r.causes
  | .store e => "Failed to initialize database connection" :: e.causes
  | .node chain e => [s!"Failed to connect to chain {chain}", e.message]
  | .assembly e => e.causes

/-- A program that may end with a fault. -/
abbrev Start (α : Type) := ExceptT Fault (Program Network) α

def origin : String := "pricefeed"

def log (level : Level) (text : String) : Program Network Unit :=
  Network.ask (.log ⟨level, origin, text⟩)

/-- Settings that an engine can be built from. -/
def checkedSettings (files environment : List (String × String)) : Except Fault Settings := do
  let settings ← (Settings.load files environment).mapError .settings
  settings.validate.mapError .invalid
  return settings

def orFault (wrap : ε → Fault) (call : ExceptT ε (Program Network) α) : Start α :=
  ExceptT.mk ((·.mapError wrap) <$> call.run)

def liftExcept : Except Fault α → Start α
  | .ok value => pure value
  | .error fault => throw fault

/-- Tells that a scraper is there, after a look at its token's decimals. -/
def introduce (l : Live) (s : Scraper) : Program Network Unit := do
  match ← l.runAlone s.verifyDecimals.run with
  | .ok () => pure ()
  | .error fault =>
    log .warn s!"Could not verify decimals of {s.task.label}: {fault.message}"
  let state := if s.task.enabled then "enabled" else "disabled"
  log .info s!"Configured {s.task.label} ({state})"

/-- What has been built for the chains so far. -/
structure Progress where
  assembly : Assembly
  clients : List Rpc.Client

/-- Connects to a chain and builds its parts. -/
def addChain (settings : Settings) (p : Progress) (chain : ChainSettings) : Start Progress := do
  let timeout := settings.rpcTimeoutSecs.toNat * 1000
  let client ← orFault (.node chain.name) (Rpc.Client.connect chain timeout)
  let clients := p.clients ++ [client]
  let built := p.assembly.scrapers.length
  let assembly ← liftExcept
    ((p.assembly.addChain chain).mapError fun e => .assembly (.address e))
  let l : Live := ⟨clients, none, settings.postgres⟩
  (assembly.scrapers.drop built).forM fun s => introduce l s
  return ⟨assembly, clients⟩

/-- Connects to every chain and puts the parts of an engine together: the scheduler to run, and
what it is connected to. -/
def build (settings : Settings) : Start (Scheduler × Live) := do
  let progress ← settings.chains.foldlM (addChain settings) ⟨.empty, []⟩
  let scheduler ← liftExcept ((Assembly.scheduler settings).mapError .assembly)
  let prices := (settings.chains.zip progress.clients).reverse.find?
    (·.1.name == settings.prices.chain)
  return (scheduler, ⟨progress.clients, prices.map (·.2), settings.postgres⟩)

/-- Starts an engine from the files of a directory and an environment. -/
def start (files environment : List (String × String)) : Start (Scheduler × Live) := do
  let settings ← liftExcept (checkedSettings files environment)
  orFault .store (Postgres.openStore settings.postgres)
  build settings

end ChainIngest.Launch
