import ChainIngest.Postgres.Row

/-!
Statements that are sent to the database, and what it answers.
-/

namespace ChainIngest.Postgres

inductive Statement where
  /-- The value of a checkpoint, which is created with the default if there is none. -/
  | get (key default : String)
  | set (key value : String)
  /-- Adds a row unless its chain, transaction and index are there. -/
  | insertTransfer (row : TransferRow)
  /-- An asset's rows in the blocks after one, the newest first. -/
  | selectTransfers (chainId : Int64) (symbol : String) (block : Int64)
  | insertPrice (row : PriceRow)
  /-- The row that was made last. -/
  | latestPrice
  | whitelist (chainId : Int64)
  deriving DecidableEq

/-- Why the database did not do what it was asked for. -/
structure SqlError where
  /-- Five characters that name the kind of error. -/
  state : String
  deriving DecidableEq, Repr

/-- What each statement is answered with; for an insertion the number of rows that were added. -/
abbrev Statement.Outcome : Statement → Type
  | .get .. => String
  | .set .. => Unit
  | .insertTransfer _ => Nat
  | .selectTransfers .. => List TransferRow
  | .insertPrice _ => Unit
  | .latestPrice => Option PriceRow
  | .whitelist _ => List String

end ChainIngest.Postgres
