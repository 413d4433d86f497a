import ChainIngest.Proofs.Scan
import ChainIngest.Proofs.Windows

/-! Streams: a scraper together with what it sees of its surroundings and the records that it is
after. Of a token stream the logs are fixed, of a native one the blocks and the whitelist. -/

namespace ChainIngest

/-- A log is a transfer event and tells where it stands. -/
structure EventLog.Shows (log : EventLog) (block index : UInt64) (tx : Hash)
    (event : TransferEvent) : Prop where
  block : log.block = some block
  index : log.index = some index
  tx : log.tx = some tx
  event : TransferEvent.decode? log.topics log.data = some event

/-- Records that are sought in the blocks covered have been found, and no others. The same transfer
may be recorded in more than one way, since nodes may tell more than one time for a block; of
those records one is found. -/
structure Finds (sought : Transfer → Prop) (covers : UInt64 → Prop) (ts : List Transfer) :
    Prop where
  sound : ∀ t ∈ ts, sought t ∧ covers t.block
  complete : ∀ t, sought t → covers t.block → ∃ u ∈ ts, u.id = t.id

/-- A scraper, what holds of the chains and the stored recipients that it sees, and the records that
its scans find then. -/
structure Stream where
  scraper : Scraper
  view : ChainContents → List (UInt64 × Address) → Prop
  sought : Transfer → Prop
  scans : ∀ {C : Conduct} {K : Surroundings → Prop} {w : Surroundings} {l : Ledger}
    (c overlap range head : UInt64), C.Scans K →
    (∀ w, K w → view w.chains w.store.recipients) → K w → w.store.ledger = l →
    (scraper.scanWindow c head range overlap).Ensures C
      (fun o w' => o.window = .compute c overlap range head ∧
        Scanned K l 0 (Finds sought (o.window.Covers scraper.task.asset)) o.emitted w')
      (fun _ => ScanFailed C K l
        (Finds sought ((Window.compute c overlap range head).Covers scraper.task.asset))) w

theorem Store.mem_whitelist {store : Store} :
    a ∈ store.whitelist chainId ↔ (chainId, a) ∈ store.recipients := by
  rw [Store.whitelist, List.mem_map]
  constructor
  · intro h
    obtain ⟨⟨id, a⟩, hmem, rfl⟩ := h
    obtain ⟨hmem, hid⟩ := List.mem_filter.mp hmem
    exact beq_iff_eq.mp hid ▸ hmem
  · exact fun hmem => ⟨_, List.mem_filter.mpr ⟨hmem, beq_self_eq_true chainId⟩, rfl⟩

namespace Scraper

variable {s : Scraper} {told : UInt64 → UInt64 → Prop} {contract : Address}

/-! ### Native streams -/

/-- The record of a transaction of a block, from a known sender to a recipient on the whitelist. -/
def IsNativeRecord (s : Scraper) (blocks : UInt64 → Block) (wanted : Address → Prop)
    (t : Transfer) : Prop :=
  ∃ number tx recipient sender, tx ∈ (blocks number).transactions ∧
    tx.recipient = some recipient ∧ wanted recipient ∧ tx.sender = some sender ∧
    t = s.nativeRecord (blocks number) tx sender

theorem mem_blockNumbers {count : Nat} {number : UInt64} (h : number.toNat + count < UInt64.size) :
    n ∈ blockNumbers count number ↔ number.toNat ≤ n.toNat ∧ n.toNat < number.toNat + count := by
  induction count generalizing number with
  | zero =>
    simp only [blockNumbers, List.not_mem_nil, false_iff]
    omega
  | succ count ih =>
    have hnext : (number + 1).toNat = number.toNat + 1 := by
      rw [UInt64.toNat_add, UInt64.toNat_one]
      exact Nat.mod_eq_of_lt (Nat.lt_of_le_of_lt (by omega) h)
    rw [blockNumbers, List.mem_cons, ih (by omega), hnext, ← UInt64.toNat_inj]
    omega

/-- The blocks that are read are those which the window covers. -/
theorem mem_blockNumbers_window {window : Window} :
    n ∈ blockNumbers window.blockCount window.first ↔ window.Covers .native n := by
  have hlast : window.last.toNat < UInt64.size := window.last.toNat_lt
  have hfirst : window.first.toNat < UInt64.size := window.first.toNat_lt
  rw [mem_blockNumbers (by rw [Window.blockCount]; omega), Window.Covers, Asset.Reaches,
    UInt64.le_iff_toNat_le, UInt64.lt_iff_toNat_lt, Window.blockCount]
  omega

theorem mem_blockRecords {recipients : List Address} {wanted : Address → Prop}
    (hmem : ∀ a, a ∈ recipients ↔ wanted a) {block : Block} :
    t ∈ s.blockRecords recipients block ↔ ∃ tx recipient sender, tx ∈ block.transactions ∧
      tx.recipient = some recipient ∧ wanted recipient ∧ tx.sender = some sender ∧
      t = s.nativeRecord block tx sender := by
  rw [blockRecords, List.mem_filterMap]
  refine exists_congr fun tx => ?_
  cases hto : tx.recipient with
  | none => simp [transactionRecord?, hto]
  | some recipient =>
    cases hsender : tx.sender with
    | none => simp [transactionRecord?, hsender]
    | some sender => simp [transactionRecord?, hto, hsender, hmem, eq_comm]

theorem FindsNative.finds {blocks : UInt64 → Block} {wanted : Address → Prop}
    (hnumber : ∀ n, (blocks n).number = n) (H : s.FindsNative blocks wanted window ts) :
    Finds (s.IsNativeRecord blocks wanted) (window.Covers .native) ts := by
  obtain ⟨recipients, hmem, rfl⟩ := H
  constructor
  · intro t ht
    obtain ⟨n, hn, ht⟩ := List.mem_flatMap.mp ht
    obtain ⟨tx, recipient, sender, h⟩ := (mem_blockRecords hmem).mp ht
    obtain ⟨-, -, -, -, rfl⟩ := id h
    refine ⟨⟨n, tx, recipient, sender, h⟩, ?_⟩
    rw [show (s.nativeRecord (blocks n) tx sender).block = n from hnumber n]
    exact mem_blockNumbers_window.mp hn
  · intro t ht hcovers
    obtain ⟨n, tx, recipient, sender, h⟩ := ht
    obtain ⟨-, -, -, -, rfl⟩ := id h
    rw [show (s.nativeRecord (blocks n) tx sender).block = n from hnumber n] at hcovers
    exact ⟨_, List.mem_flatMap.mpr ⟨n, mem_blockNumbers_window.mpr hcovers,
      (mem_blockRecords hmem).mpr ⟨tx, recipient, sender, h⟩⟩, rfl⟩

/-! ### Token streams -/

/-- The record of one of the logs that are transfer events and tell where they stand, with the log's
time, or a time told for its block if the log has none. -/
def IsTokenRecord (s : Scraper) (logs : EventLog → Prop) (told : UInt64 → UInt64 → Prop)
    (contract : Address) (t : Transfer) : Prop :=
  ∃ log block index tx event time, logs log ∧ log.Shows block index tx event ∧
    (log.timestamp = some time ∨ log.timestamp = none ∧ told block time) ∧
    t = .ofEvent s.assetName contract ⟨block, index, tx, time⟩ event

/-- A node that is asked for logs leaves out none of the blocks that it is asked for, and adds at
most logs without a block. -/
def AnswersLogs (logs : EventLog → Prop) (first last : UInt64) (answer : List EventLog) : Prop :=
  ∀ log block, log.block = some block →
    (log ∈ answer ↔ logs log ∧ first ≤ block ∧ block ≤ last)

theorem eventRecord?_eq_some_iff : s.eventRecord? contract log time = some t ↔
    ∃ block index tx event, log.Shows block index tx event ∧
      t = .ofEvent s.assetName contract ⟨block, index, tx, log.timestamp.getD time⟩ event := by
  constructor
  · intro h
    unfold eventRecord? at h
    split at h
    · next block index tx hblock hindex htx =>
      obtain ⟨event, hevent, rfl⟩ := Option.map_eq_some_iff.mp h
      exact ⟨block, index, tx, event, ⟨hblock, hindex, htx, hevent⟩, rfl⟩
    · cases h
  · intro h
    obtain ⟨block, index, tx, event, ⟨hblock, hindex, htx, hevent⟩, rfl⟩ := h
    simp only [eventRecord?, hblock, hindex, htx, hevent, Option.map_some]

theorem ReadsLog.isTokenRecord (H : s.ReadsLog told contract log (some t)) (hlog : logs log) :
    s.IsTokenRecord logs told contract t := by
  obtain ⟨time, htime, hrecord⟩ := H
  obtain ⟨block, index, tx, event, hshows, rfl⟩ := eventRecord?_eq_some_iff.mp hrecord.symm
  refine ⟨log, block, index, tx, event, _, hlog, hshows, ?_, rfl⟩
  cases log.timestamp with
  | none => exact .inr ⟨rfl, htime block hshows.block⟩
  | some timestamp => exact .inl rfl

theorem ReadsLogs.mem (H : s.ReadsLogs told contract logs ts) (ht : t ∈ ts) :
    ∃ log ∈ logs, s.ReadsLog told contract log (some t) := by
  induction H with
  | nil => cases ht
  | cons hread _ ih =>
    rcases List.mem_append.mp ht with ht | ht
    · rw [Option.mem_toList.mp ht] at hread
      exact ⟨_, List.mem_cons_self, hread⟩
    · obtain ⟨log, hlog, hread⟩ := ih ht
      exact ⟨log, List.mem_cons_of_mem _ hlog, hread⟩

theorem ReadsLogs.exists_id {index : UInt64} (H : s.ReadsLogs told contract logs ts)
    (hlog : log ∈ logs) (hshows : log.Shows block index tx event) :
    ∃ u ∈ ts, u.id = ⟨s.task.chainId, tx, index⟩ := by
  induction H with
  | nil => cases hlog
  | cons hread _ ih =>
    rcases List.mem_cons.mp hlog with rfl | hlog
    · obtain ⟨time, -, hread⟩ := hread
      rw [eventRecord?_eq_some_iff.mpr ⟨block, index, tx, event, hshows, rfl⟩] at hread
      exact ⟨_, List.mem_append_left _ (Option.mem_toList.mpr hread), rfl⟩
    · obtain ⟨u, hu, hid⟩ := ih hlog
      exact ⟨u, List.mem_append_right _ hu, hid⟩

theorem FindsTokens.finds {logs : EventLog → Prop}
    (H : s.FindsTokens (AnswersLogs logs) told contract window ts) :
    Finds (s.IsTokenRecord logs told contract) (window.Covers (.token contract)) ts := by
  unfold FindsTokens at H
  split at H
  · next hinverted =>
    subst H
    exact ⟨by simp, fun t _ hcovers => absurd hcovers (Window.not_covers_of_isInverted hinverted)⟩
  · obtain ⟨answer, hanswer, hreads⟩ := H
    constructor
    · intro t ht
      obtain ⟨log, hlog, hread⟩ := hreads.mem ht
      obtain ⟨time, -, hrecord⟩ := id hread
      obtain ⟨block, index, tx, event, hshows, rfl⟩ := eventRecord?_eq_some_iff.mp hrecord.symm
      obtain ⟨hlogs, hcovers⟩ := (hanswer log block hshows.block).mp hlog
      exact ⟨hread.isTokenRecord hlogs, hcovers⟩
    · intro t ht hcovers
      obtain ⟨log, block, index, tx, event, time, hlogs, hshows, -, rfl⟩ := ht
      exact hreads.exists_id ((hanswer log block hshows.block).mpr ⟨hlogs, hcovers⟩) hshows

end Scraper

namespace Stream

/-- The stream of a native task, where every block and the whitelist are fixed. -/
def native (s : Scraper) (hasset : s.task.asset = .native) (blocks : UInt64 → Block)
    (hnumber : ∀ n, (blocks n).number = n) (wanted : Address → Prop) : Stream where
  scraper := s
  view chains recipients := (∀ n, chains.block s.node n = blocks n) ∧
    ∀ a, (a ∈ s.recipients ∨ (s.task.chainId, a) ∈ recipients) ↔ wanted a
  sought := s.IsNativeRecord blocks wanted
  scans := by
    intro C K w l c overlap range head H hview hw hl
    have hwanted : ∀ w, K w →
        ∀ a, a ∈ s.recipients ++ w.store.whitelist s.task.chainId ↔ wanted a := by
      intro w hw a
      rw [← (hview w hw).2 a, List.mem_append, Store.mem_whitelist]
    unfold Scraper.scanWindow
    rw [hasset]
    apply Action.Ensures.bind
    refine (Scraper.scanNative_ensures H (fun w hw => (hview w hw).1) hwanted _ hw hl).mono ?_ ?_
    · exact fun n w' hn => .pure ⟨rfl, hn.mono fun _ hts => hts.finds hnumber⟩
    · exact fun _ w' hfailed => hfailed.mono fun _ hts => hts.finds hnumber

/-- The stream of a token task, where the logs of the contract are fixed. `told` are the times that
the node may tell for each block. -/
def token (s : Scraper) (contract : Address) (hasset : s.task.asset = .token contract)
    (logs : EventLog → Prop) (told : UInt64 → UInt64 → Prop) : Stream where
  scraper := s
  view chains _ :=
    (∀ first last, Scraper.AnswersLogs logs first last (chains.logs s.node contract first last)) ∧
    ∀ block, told block (chains.blockTime s.node block)
  sought := s.IsTokenRecord logs told contract
  scans := by
    intro C K w l c overlap range head H hview hw hl
    unfold Scraper.scanWindow
    rw [hasset]
    apply Action.Ensures.bind
    refine (Scraper.scanToken_ensures H (fun w hw => (hview w hw).1) (fun w hw => (hview w hw).2)
      _ hw hl).mono ?_ ?_
    · exact fun n w' hn => .pure ⟨rfl, hn.mono fun _ hts => hts.finds⟩
    · exact fun _ w' hfailed => hfailed.mono fun _ hts => hts.finds

end Stream

end ChainIngest
