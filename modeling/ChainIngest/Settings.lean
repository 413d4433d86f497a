/-!
The settings of an ingestion engine: where its store is, which chains and assets it follows,
which contracts it reads prices from, and how often each job runs.
-/

namespace ChainIngest

/-- The connection to PostgreSQL. -/
structure PostgresSettings where
  host : String
  port : UInt16
  user : String
  password : String
  database : String
  poolSize : UInt64
  deriving DecidableEq, Repr

/-- How a chain's head height is kept current. -/
inductive HeadMode where
  /-- By following new headers over a websocket, besides polling. -/
  | subscribe
  /-- By polling alone. -/
  | poll
  deriving DecidableEq, Repr

/-- Recording of a chain's native asset. -/
structure NativeAssetSettings where
  enabled : Bool
  symbol : String
  decimals : UInt8
  scanRange : UInt64
  overlap : UInt64
  deriving DecidableEq, Repr

/-- Recording of one token of a chain. -/
structure TokenSettings where
  symbol : String
  address : String
  decimals : UInt8
  enabled : Bool
  scanRange : UInt64
  overlap : UInt64
  deriving DecidableEq, Repr

/-- One chain to follow. -/
structure ChainSettings where
  name : String
  chainId : UInt64
  rpcUrl : String
  wsUrl : Option String
  /-- Where scanning starts when nothing has been scanned yet. -/
  startBlock : UInt64
  headMode : HeadMode
  /-- Whether every new header starts a scan of the chain's assets. -/
  scrapeOnHeader : Bool
  native : Option NativeAssetSettings
  /-- Recipients of native transfers to record, besides those in the store. -/
  whitelist : List String
  tokens : List TokenSettings
  deriving DecidableEq, Repr

/-- The contracts that prices come from. -/
structure PriceSettings where
  chain : String
  primaryOracle : String
  referenceOracle : String
  pool : String
  /-- Stands in, in cents, for a derived price that is exactly zero. -/
  fallbackTokenCents : String
  deriving DecidableEq, Repr

/-- The period of each job, in seconds. -/
structure CadenceSettings where
  head : UInt64
  scrape : UInt64
  price : UInt64
  deriving DecidableEq, Repr

structure Settings where
  postgres : PostgresSettings
  chains : List ChainSettings
  prices : PriceSettings
  scheduler : CadenceSettings
  rpcTimeoutSecs : UInt64
  deriving DecidableEq, Repr

namespace Settings

def defaultPoolSize : UInt64 := 16

def defaultHeadMode : HeadMode := .poll

def defaultDecimals : UInt8 := 18

/-- Whole blocks are fetched for native transfers, so few at a time. -/
def defaultNativeScanRange : UInt64 := 500

/-- Logs are filtered by the node, so many blocks at a time. -/
def defaultTokenScanRange : UInt64 := 5000

def defaultOverlap : UInt64 := 50

def defaultFallbackTokenCents : String := "80"

def defaultCadences : CadenceSettings := ⟨12, 20, 60⟩

def defaultRpcTimeoutSecs : UInt64 := 30

end Settings

end ChainIngest
