import ChainIngest.Text.Casing

/-!
The names of checkpoints. Names of chains and assets go into them in lower case.
-/

namespace ChainIngest.CheckpointKey

open Text (lowercase)

/-- The highest block known on a chain. -/
def head (chain : String) : String := s!"block_height_{lowercase chain}"

/-- The last block scanned for an asset. -/
def lastBlock (chain symbol : String) : String :=
  s!"last_block_{lowercase chain}_{lowercase symbol}"

/-- Blocks by which one scan goes forward. -/
def scanRange (chain symbol : String) : String :=
  s!"scrape_range_{lowercase chain}_{lowercase symbol}"

/-- Blocks already scanned that a scan looks at again. -/
def overlap (chain symbol : String) : String :=
  s!"scrape_range_lookback_{lowercase chain}_{lowercase symbol}"

end ChainIngest.CheckpointKey
