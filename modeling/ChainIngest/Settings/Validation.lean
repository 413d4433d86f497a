import ChainIngest.Settings
import ChainIngest.Bytes.Address
import ChainIngest.Decimal.Reader

/-!
Settings that would only fail later, inside a running job, are refused at the start. The first
fault in the order of the settings is reported.
-/

namespace ChainIngest.Settings

/-- The addresses that price settings hold. -/
inductive PriceContract where
  | primaryOracle
  | referenceOracle
  | pool
  deriving DecidableEq, Repr

def PriceContract.field : PriceContract → String
  | .primaryOracle => "prices.primary_oracle"
  | .referenceOracle => "prices.reference_oracle"
  | .pool => "prices.pool"

/-- Why settings are refused. -/
inductive Refusal where
  | duplicateChain (chain : String)
  | missingWebsocket (chain : String)
  | emptyNativeRange (chain : String)
  | tokenAddress (symbol chain : String) (e : Address.ReadError)
  | emptyTokenRange (symbol chain : String)
  | whitelistAddress (chain : String) (e : Address.ReadError)
  | unknownPriceChain (chain : String)
  | priceContract (contract : PriceContract) (e : Address.ReadError)
  | fallbackPrice (e : Decimal.ReadError)
  deriving DecidableEq, Repr

/-- The messages of a refusal, outermost first. -/
def Refusal.causes : Refusal → List String
  | .duplicateChain chain => [s!"Duplicate chain name '{chain}'"]
  | .missingWebsocket chain => [s!"Chain '{chain}' uses head_mode subscribe but has no ws_url"]
  | .emptyNativeRange chain => [s!"Chain '{chain}' native scan_range must be positive"]
  | .tokenAddress symbol chain e => s!"Token {symbol} on '{chain}'" :: e.causes
  | .emptyTokenRange symbol chain =>
    [s!"Token {symbol} on '{chain}' scan_range must be positive"]
  | .whitelistAddress chain e => s!"Whitelist entry on '{chain}'" :: e.causes
  | .unknownPriceChain chain => [s!"Price chain '{chain}' is not a configured chain"]
  | .priceContract contract e => contract.field :: e.causes
  | .fallbackPrice e => ["prices.fallback_token_cents", e.message]

/-- Refuses with `e` unless the condition holds. -/
def require (condition : Bool) (e : Refusal) : Except Refusal Unit :=
  if condition then .ok () else .error e

/-- Refuses a text that is no address. -/
def requireAddress (text : String) (e : Address.ReadError → Refusal) : Except Refusal Unit :=
  match Address.read text with
  | .ok _ => .ok ()
  | .error reason => .error (e reason)

def validateToken (chain : String) (token : TokenSettings) : Except Refusal Unit := do
  requireAddress token.address (.tokenAddress token.symbol chain)
  require (token.scanRange != 0) (.emptyTokenRange token.symbol chain)

/-- Checks one chain, given the names of the chains before it. -/
def validateChain (before : List String) (chain : ChainSettings) : Except Refusal Unit := do
  require (!before.contains chain.name) (.duplicateChain chain.name)
  require (chain.headMode != .subscribe || chain.wsUrl.isSome) (.missingWebsocket chain.name)
  require (chain.native.all (·.scanRange != 0)) (.emptyNativeRange chain.name)
  chain.tokens.forM (validateToken chain.name)
  chain.whitelist.forM (requireAddress · (.whitelistAddress chain.name))

def validateChains (before : List String) : List ChainSettings → Except Refusal Unit
  | [] => .ok ()
  | chain :: rest => do
    validateChain before chain
    validateChains (chain.name :: before) rest

def validatePrices (chains : List ChainSettings) (prices : PriceSettings) :
    Except Refusal Unit := do
  require (chains.any (·.name == prices.chain)) (.unknownPriceChain prices.chain)
  requireAddress prices.primaryOracle (.priceContract .primaryOracle)
  requireAddress prices.referenceOracle (.priceContract .referenceOracle)
  requireAddress prices.pool (.priceContract .pool)
  match Decimal.ofString? prices.fallbackTokenCents with
  | .ok _ => .ok ()
  | .error e => .error (.fallbackPrice e)

/-- Accepts settings that the engine can be built from. -/
def validate (s : Settings) : Except Refusal Unit := do
  validateChains [] s.chains
  validatePrices s.chains s.prices

end ChainIngest.Settings
