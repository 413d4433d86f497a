import ChainIngest.ScanTask

/-! Which names of checkpoints are equal. Keys of one family are equal when their streams are
named alike; of keys of different families only a scan range and an overlap can be equal, since
what the overlap's name begins with goes on from that of the scan range. -/

namespace ChainIngest

namespace CheckpointKey

open Text (lowercase)

/-- What the keys of a stream end with. -/
def stream (chain symbol : String) : String := lowercase chain ++ "_" ++ lowercase symbol

theorem head_eq : head chain = "block_height_" ++ lowercase chain := by
  simp [head, toString]

theorem lastBlock_eq : lastBlock chain symbol = "last_block_" ++ stream chain symbol := by
  simp [lastBlock, stream, toString, String.append_assoc]

theorem scanRange_eq : scanRange chain symbol = "scrape_range_" ++ stream chain symbol := by
  simp [scanRange, stream, toString, String.append_assoc]

theorem overlap_eq :
    overlap chain symbol = "scrape_range_" ++ ("lookback_" ++ stream chain symbol) := by
  have hsplit : "scrape_range_lookback_" = "scrape_range_" ++ "lookback_" := by decide
  unfold overlap stream
  simp only [toString]
  rw [hsplit]
  simp only [String.append_assoc]

theorem head_inj : head chain = head chain' ↔ lowercase chain = lowercase chain' := by
  rw [head_eq, head_eq, String.append_right_inj]

theorem lastBlock_inj :
    lastBlock chain symbol = lastBlock chain' symbol' ↔
      stream chain symbol = stream chain' symbol' := by
  rw [lastBlock_eq, lastBlock_eq, String.append_right_inj]

theorem scanRange_inj :
    scanRange chain symbol = scanRange chain' symbol' ↔
      stream chain symbol = stream chain' symbol' := by
  rw [scanRange_eq, scanRange_eq, String.append_right_inj]

theorem overlap_inj :
    overlap chain symbol = overlap chain' symbol' ↔
      stream chain symbol = stream chain' symbol' := by
  rw [overlap_eq, overlap_eq, String.append_right_inj, String.append_right_inj]

theorem scanRange_eq_overlap_iff :
    scanRange chain symbol = overlap chain' symbol' ↔
      stream chain symbol = "lookback_" ++ stream chain' symbol' := by
  rw [scanRange_eq, overlap_eq, String.append_right_inj]

theorem lastBlock_ne_scanRange : lastBlock chain symbol ≠ scanRange chain' symbol' := by
  rw [lastBlock_eq, scanRange_eq, Ne, ← String.toList_inj]
  simp

theorem lastBlock_ne_overlap : lastBlock chain symbol ≠ overlap chain' symbol' := by
  rw [lastBlock_eq, overlap_eq, Ne, ← String.toList_inj]
  simp

theorem lastBlock_ne_head : lastBlock chain symbol ≠ head chain' := by
  rw [lastBlock_eq, head_eq, Ne, ← String.toList_inj]
  simp

theorem scanRange_ne_head : scanRange chain symbol ≠ head chain' := by
  rw [scanRange_eq, head_eq, Ne, ← String.toList_inj]
  simp

theorem overlap_ne_head : overlap chain symbol ≠ head chain' := by
  rw [overlap_eq, head_eq, Ne, ← String.toList_inj]
  simp

/-- The keys of one stream differ: a text is not longer than itself. -/
theorem scanRange_ne_overlap : scanRange chain symbol ≠ overlap chain symbol := by
  rw [Ne, scanRange_eq_overlap_iff]
  intro h
  have hlength := congrArg String.length h
  simp [String.length_append] at hlength

end CheckpointKey

namespace ScanTask

/-- The checkpoints of a task's own; the chain's head is not one of them. -/
def keys (t : ScanTask) : List String := [t.lastBlockKey, t.scanRangeKey, t.overlapKey]

theorem key_ne_head {t : ScanTask} {chain : String} (h : key ∈ t.keys) :
    key ≠ CheckpointKey.head chain := by
  simp only [keys, List.mem_cons, List.not_mem_nil, or_false] at h
  rcases h with rfl | rfl | rfl
  · exact CheckpointKey.lastBlock_ne_head
  · exact CheckpointKey.scanRange_ne_head
  · exact CheckpointKey.overlap_ne_head

end ScanTask

end ChainIngest
