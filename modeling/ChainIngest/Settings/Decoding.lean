import ChainIngest.Document.Decoding
import ChainIngest.Settings

/-!
Settings from documents, and documents from settings. Of two faults, a field that cannot be read
goes before a field that is missing.
-/

namespace ChainIngest

open Document

def HeadMode.names : List (String × HeadMode) := [("subscribe", .subscribe), ("poll", .poll)]

def HeadMode.name : HeadMode → String
  | .subscribe => "subscribe"
  | .poll => "poll"

namespace Settings

variable (δ : Dialect)

def decodePostgres : Decoder PostgresSettings := fun d => do
  checkShape δ 6 d
  let host ← field? d 0 "host" δ.text
  let port ← field? d 1 "port" δ.word16
  let user ← field? d 2 "user" δ.text
  let password ← field? d 3 "password" δ.text
  let database ← field? d 4 "database" δ.text
  let poolSize ← field? d 5 "pool_size" δ.word64
  return {
    host := ← required d "host" host
    port := ← required d "port" port
    user := ← required d "user" user
    password := ← required d "password" password
    database := ← required d "database" database
    poolSize := poolSize.getD defaultPoolSize }

def decodeNative : Decoder NativeAssetSettings := fun d => do
  checkShape δ 5 d
  let enabled ← field? d 0 "enabled" δ.bool
  let symbol ← field? d 1 "symbol" δ.text
  let decimals ← field? d 2 "decimals" δ.word8
  let scanRange ← field? d 3 "scan_range" δ.word64
  let overlap ← field? d 4 "overlap" δ.word64
  return {
    enabled := enabled.getD false
    symbol := ← required d "symbol" symbol
    decimals := decimals.getD defaultDecimals
    scanRange := scanRange.getD defaultNativeScanRange
    overlap := overlap.getD defaultOverlap }

def decodeToken : Decoder TokenSettings := fun d => do
  checkShape δ 6 d
  let symbol ← field? d 0 "symbol" δ.text
  let address ← field? d 1 "address" δ.text
  let decimals ← field? d 2 "decimals" δ.word8
  let enabled ← field? d 3 "enabled" δ.bool
  let scanRange ← field? d 4 "scan_range" δ.word64
  let overlap ← field? d 5 "overlap" δ.word64
  return {
    symbol := ← required d "symbol" symbol
    address := ← required d "address" address
    decimals := decimals.getD defaultDecimals
    enabled := enabled.getD true
    scanRange := scanRange.getD defaultTokenScanRange
    overlap := overlap.getD defaultOverlap }

def decodeChain : Decoder ChainSettings := fun d => do
  checkShape δ 10 d
  let name ← field? d 0 "name" δ.text
  let chainId ← field? d 1 "chain_id" δ.word64
  let rpcUrl ← field? d 2 "rpc_url" δ.text
  let wsUrl ← field? d 3 "ws_url" (optional δ.text)
  let startBlock ← field? d 4 "start_block" δ.word64
  let headMode ← field? d 5 "head_mode" (δ.alternative HeadMode.names)
  let scrapeOnHeader ← field? d 6 "scrape_on_header" δ.bool
  let native ← field? d 7 "native" (optional (decodeNative δ))
  let whitelist ← field? d 8 "whitelist" (listOf δ.text)
  let tokens ← field? d 9 "tokens" (listOf (decodeToken δ))
  return {
    name := ← required d "name" name
    chainId := ← required d "chain_id" chainId
    rpcUrl := ← required d "rpc_url" rpcUrl
    wsUrl := wsUrl.getD none
    startBlock := startBlock.getD 0
    headMode := headMode.getD defaultHeadMode
    scrapeOnHeader := scrapeOnHeader.getD true
    native := native.getD none
    whitelist := whitelist.getD []
    tokens := tokens.getD [] }

def decodePrices : Decoder PriceSettings := fun d => do
  checkShape δ 5 d
  let chain ← field? d 0 "chain" δ.text
  let primaryOracle ← field? d 1 "primary_oracle" δ.text
  let referenceOracle ← field? d 2 "reference_oracle" δ.text
  let pool ← field? d 3 "pool" δ.text
  let fallbackTokenCents ← field? d 4 "fallback_token_cents" δ.text
  return {
    chain := ← required d "chain" chain
    primaryOracle := ← required d "primary_oracle" primaryOracle
    referenceOracle := ← required d "reference_oracle" referenceOracle
    pool := ← required d "pool" pool
    fallbackTokenCents := fallbackTokenCents.getD defaultFallbackTokenCents }

def decodeCadences : Decoder CadenceSettings := fun d => do
  checkShape δ 3 d
  let head ← field? d 0 "head_interval_secs" δ.word64
  let scrape ← field? d 1 "scrape_interval_secs" δ.word64
  let price ← field? d 2 "price_interval_secs" δ.word64
  return {
    head := head.getD defaultCadences.head
    scrape := scrape.getD defaultCadences.scrape
    price := price.getD defaultCadences.price }

def decode : Decoder Settings := fun d => do
  checkShape δ 5 d
  let postgres ← field? d 0 "postgres" (decodePostgres δ)
  let chains ← field? d 1 "chains" (listOf (decodeChain δ))
  let prices ← field? d 2 "prices" (decodePrices δ)
  let scheduler ← field? d 3 "scheduler" (decodeCadences δ)
  let rpcTimeoutSecs ← field? d 4 "rpc_timeout_secs" δ.word64
  return {
    postgres := ← required d "postgres" postgres
    chains := ← required d "chains" chains
    prices := ← required d "prices" prices
    scheduler := scheduler.getD defaultCadences
    rpcTimeoutSecs := rpcTimeoutSecs.getD defaultRpcTimeoutSecs }

/-! ### Settings as documents, every field written out -/

def number (n : UInt64) : Document := .integer n.toNat

def encodePostgres (p : PostgresSettings) : Document := .table [
  ("host", .text p.host), ("port", .integer p.port.toNat), ("user", .text p.user),
  ("password", .text p.password), ("database", .text p.database),
  ("pool_size", number p.poolSize)]

def encodeNative (n : NativeAssetSettings) : Document := .table [
  ("enabled", .bool n.enabled), ("symbol", .text n.symbol),
  ("decimals", .integer n.decimals.toNat), ("scan_range", number n.scanRange),
  ("overlap", number n.overlap)]

def encodeToken (t : TokenSettings) : Document := .table [
  ("symbol", .text t.symbol), ("address", .text t.address),
  ("decimals", .integer t.decimals.toNat), ("enabled", .bool t.enabled),
  ("scan_range", number t.scanRange), ("overlap", number t.overlap)]

def encodeChain (c : ChainSettings) : Document := .table [
  ("name", .text c.name), ("chain_id", number c.chainId), ("rpc_url", .text c.rpcUrl),
  ("ws_url", (c.wsUrl.map Document.text).getD .null), ("start_block", number c.startBlock),
  ("head_mode", .text c.headMode.name), ("scrape_on_header", .bool c.scrapeOnHeader),
  ("native", (c.native.map encodeNative).getD .null),
  ("whitelist", .list (c.whitelist.map .text)), ("tokens", .list (c.tokens.map encodeToken))]

def encodePrices (p : PriceSettings) : Document := .table [
  ("chain", .text p.chain), ("primary_oracle", .text p.primaryOracle),
  ("reference_oracle", .text p.referenceOracle), ("pool", .text p.pool),
  ("fallback_token_cents", .text p.fallbackTokenCents)]

def encodeCadences (c : CadenceSettings) : Document := .table [
  ("head_interval_secs", number c.head), ("scrape_interval_secs", number c.scrape),
  ("price_interval_secs", number c.price)]

def encode (s : Settings) : Document := .table [
  ("postgres", encodePostgres s.postgres), ("chains", .list (s.chains.map encodeChain)),
  ("prices", encodePrices s.prices), ("scheduler", encodeCadences s.scheduler),
  ("rpc_timeout_secs", number s.rpcTimeoutSecs)]

end Settings

end ChainIngest
