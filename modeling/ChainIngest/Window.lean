/-!
Scan windows: the blocks that one scan looks at. A window starts a little behind the last block
scanned, so that what came late is seen, and never ends past the chain's head.
-/

namespace ChainIngest

namespace Height

/-- The greatest height. -/
def top : UInt64 := UInt64.ofNat (UInt64.size - 1)

/-- The sum, or the greatest height if that is less. -/
def addCapped (a b : UInt64) : UInt64 :=
  if a.toNat + b.toNat < UInt64.size then a + b else top

/-- The difference, or zero if there is none. -/
def subFloored (a b : UInt64) : UInt64 := if b ≤ a then a - b else 0

end Height

/-- The blocks from `first` to `last`. Scans of whole blocks leave `last` out. -/
structure Window where
  first : UInt64
  last : UInt64
  deriving DecidableEq, Repr

namespace Window

/-- The window of a scan, from the last block scanned and the chain's head. -/
def compute (lastBlock overlap range head : UInt64) : Window where
  first := Height.subFloored lastBlock overlap
  last := min (Height.addCapped lastBlock range) head

/-- Whether the head lies below the window's start, so that there is nothing to ask for. -/
def isInverted (w : Window) : Bool := w.last < w.first

/-- How many whole blocks a scan reads: those from `first` up to, not including, `last`. -/
def blockCount (w : Window) : Nat := w.last.toNat - w.first.toNat

end Window

end ChainIngest
