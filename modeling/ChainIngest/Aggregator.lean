import ChainIngest.Process
import ChainIngest.Engine.Query
import ChainIngest.Price
import ChainIngest.Settings.Validation

/-!
The price aggregator: reads oracles and a pool, derives the token's price, and keeps a ledger of
snapshots.
-/

namespace ChainIngest

structure Aggregator where
  primaryOracle : Address
  referenceOracle : Address
  pool : Address
  fallback : Decimal
  deriving DecidableEq, Repr

namespace Aggregator

open Engine

/-- Why an aggregator cannot be built from settings. -/
inductive BuildError where
  | address (e : Address.ReadError)
  | fallback (e : Decimal.ReadError)
  deriving DecidableEq, Repr

def BuildError.causes : BuildError → List String
  | .address e => e.causes
  | .fallback e => ["Invalid fallback token price", e.message]

def ofSettings (s : PriceSettings) : Except BuildError Aggregator := do
  let primaryOracle ← (Address.read s.primaryOracle).mapError .address
  let referenceOracle ← (Address.read s.referenceOracle).mapError .address
  let pool ← (Address.read s.pool).mapError .address
  let fallback ← (Decimal.ofString? s.fallbackTokenCents).mapError .fallback
  return { primaryOracle, referenceOracle, pool, fallback }

/-- The price of the native asset, in cents. -/
def native (a : Aggregator) : Action Decimal :=
  Price.ofOracleAnswer <$> within .readingPrimaryOracle (oracleAnswer a.primaryOracle)

/-- The price of the reference asset, in cents. -/
def reference (a : Aggregator) : Action Decimal :=
  Price.ofOracleAnswer <$> within .readingReferenceOracle (oracleAnswer a.referenceOracle)

/-- The price of the token, in cents, given the native asset's. -/
def token (a : Aggregator) (native : Decimal) : Action Decimal := do
  let sqrtPrice ← within .readingPool (poolPrice a.pool)
  let derived := Price.derive native (Price.ofPool sqrtPrice)
  if derived.isZero then tell (.zeroPrice a.fallback)
  return Price.orFallback a.fallback derived

/-- The snapshot made of two oracle prices and the token's price. -/
def complete (a : Aggregator) (native reference : Decimal) : Action Snapshot := do
  let token ← a.token native
  return { token, native, reference }

/-- Current prices. The oracles are read at the same time, and the first failure ends both. -/
def live (a : Aggregator) : Process Engine (Except Fault Snapshot) := do
  match ← .untilFailure (.run a.native.run) (.run a.reference.run) with
  | .error fault => return .error fault
  | .ok (native, reference) => .run (a.complete native reference).run

/-- Adds a snapshot to the ledger and tells it. -/
def append (s : Snapshot) : Action Snapshot := do
  insertSnapshot s
  tell (.priceSnapshot s.token s.native s.reference)
  return s

/-- Current prices, added to the ledger. -/
def snapshot (a : Aggregator) : Process Engine (Except Fault Snapshot) := do
  match ← a.live with
  | .error fault => return .error fault
  | .ok s => .run (append s).run

/-- The last snapshot of the ledger. -/
def latest : Action (Option Snapshot) := latestSnapshot

end Aggregator

end ChainIngest
