import ChainIngest.Transfer

/-!
The ledger of transfers. Rows are only ever added, and no two rows have one identity.
-/

namespace ChainIngest

/-- The identities taken, and the rows in the order of their insertion. -/
structure Ledger where
  ids : List TransferId
  rows : List Transfer
  deriving DecidableEq, Repr

namespace Ledger

def empty : Ledger := ⟨[], []⟩

/-- Takes an identity, if it is free. -/
def claim (l : Ledger) (id : TransferId) : Option Ledger :=
  if l.ids.contains id then none else some { l with ids := id :: l.ids }

/-- Appends a row whose identity has been taken. -/
def append (l : Ledger) (t : Transfer) : Ledger := { l with rows := l.rows ++ [t] }

/-- Adds a row unless its identity is taken; whether it was added. -/
def insert (l : Ledger) (t : Transfer) : Bool × Ledger :=
  match l.claim t.id with
  | some claimed => (true, claimed.append t)
  | none => (false, l)

/-- Whether `a` comes before or with `b` when the newest come first: by block, then by index. -/
def newestFirst (a b : Transfer) : Bool :=
  b.block < a.block || (a.block == b.block && b.index ≤ a.index)

/-- The transfers of an asset in the blocks after `block`, the newest first. -/
def since (l : Ledger) (chainId : UInt64) (symbol : String) (block : UInt64) : List Transfer :=
  let symbol := Text.uppercase symbol
  (l.rows.filter fun t => t.chainId == chainId && t.symbol == symbol && block < t.block).mergeSort
    newestFirst

end Ledger

end ChainIngest
