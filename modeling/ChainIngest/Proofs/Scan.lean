import ChainIngest.Scraper
import ChainIngest.Proofs.LedgerGrowth
import ChainIngest.Proofs.Surroundings

/-! What a scan writes to the ledger: the records of what it reads, in the order in which it reads
them. A scan that fails has written the first of them. -/

namespace ChainIngest

/-- While a scan is under way, `K` stays true whatever others do and whatever is inserted, and
nobody else inserts anything. -/
structure Conduct.Scans (C : Conduct) (K : Surroundings → Prop) : Prop where
  keeps : C.Keeps K
  ledger : ∀ l, C.Keeps (·.store.ledger = l)
  insert : ∀ {w} l, K w → K (w.withLedger l)

/-- A scan that began with the ledger `l`, and with `emitted` rows counted, has inserted the records
that it found and counted the rows which that added. -/
def Scanned (K : Surroundings → Prop) (l : Ledger) (emitted : Nat) (found : List Transfer → Prop)
    (n : Nat) (w : Surroundings) : Prop :=
  ∃ ts, found ts ∧ K w ∧ w.store.ledger = l.insertAll ts ∧
    n + l.rows.length = emitted + w.store.ledger.rows.length

/-- A scan that began with the ledger `l` has inserted the first of the records that it would have
found, and a call has failed. -/
def ScanFailed (C : Conduct) (K : Surroundings → Prop) (l : Ledger)
    (found : List Transfer → Prop) (w : Surroundings) : Prop :=
  C.Fallible ∧ ∃ ts rest, found (ts ++ rest) ∧ K w ∧ w.store.ledger = l.insertAll ts

variable {C : Conduct} {K : Surroundings → Prop} {w : Surroundings} {l : Ledger}
  {found found' : List Transfer → Prop}

namespace Scanned

theorem of_nothing (hw : K w) (hl : w.store.ledger = l) (h : found []) :
    Scanned K l emitted found emitted w :=
  ⟨[], h, hw, hl, by rw [hl]⟩

theorem mono (H : Scanned K l emitted found n w) (h : ∀ ts, found ts → found' ts) :
    Scanned K l emitted found' n w := by
  obtain ⟨ts, hts, hw⟩ := H
  exact ⟨ts, h ts hts, hw⟩

/-- What was inserted before a scan counts as part of it. -/
theorem after (H : Scanned K (l.insertAll before) m found n w)
    (hcount : m + l.rows.length = emitted + (l.insertAll before).rows.length)
    (h : ∀ ts, found ts → found' (before ++ ts)) : Scanned K l emitted found' n w := by
  obtain ⟨ts, hts, hw, hl, hn⟩ := H
  refine ⟨before ++ ts, h ts hts, hw, by rw [hl, Ledger.insertAll_append], ?_⟩
  omega

end Scanned

namespace ScanFailed

theorem at_start (hfail : C.Fallible) (hw : K w) (hl : w.store.ledger = l) (h : found ts) :
    ScanFailed C K l found w :=
  ⟨hfail, [], ts, h, hw, hl⟩

theorem mono (H : ScanFailed C K l found w) (h : ∀ ts, found ts → found' ts) :
    ScanFailed C K l found' w := by
  obtain ⟨hfail, ts, rest, hts, hw⟩ := H
  exact ⟨hfail, ts, rest, h _ hts, hw⟩

theorem after (H : ScanFailed C K (l.insertAll before) found w)
    (h : ∀ ts, found ts → found' (before ++ ts)) : ScanFailed C K l found' w := by
  obtain ⟨hfail, ts, rest, hts, hw, hl⟩ := H
  refine ⟨hfail, before ++ ts, rest, ?_, hw, by rw [hl, Ledger.insertAll_append]⟩
  rw [List.append_assoc]
  exact h _ hts

/-- The scan would have gone on to find more. -/
theorem extend (H : ScanFailed C K l found w) (h : ∀ ts, found ts → found' (ts ++ more)) :
    ScanFailed C K l found' w := by
  obtain ⟨hfail, ts, rest, hts, hw⟩ := H
  refine ⟨hfail, ts, rest ++ more, ?_, hw⟩
  rw [← List.append_assoc]
  exact h _ hts

end ScanFailed

namespace Conduct.Scans

theorem keeps_ledger (H : C.Scans K) (l : Ledger) : C.Keeps fun w => K w ∧ w.store.ledger = l :=
  fun hw hdrift => ⟨H.keeps hw.1 hdrift, H.ledger l hw.2 hdrift⟩

theorem insertTransfer {post : Bool → Surroundings → Prop} {fail : Fault → Surroundings → Prop}
    (H : C.Scans K) (hw : K w) (hl : w.store.ledger = l)
    (ok : ∀ added w, K w → w.store.ledger = l.insertAll [t] →
      (l.insertAll [t]).rows.length = l.rows.length + (if added then 1 else 0) → post added w)
    (fails : ∀ fault w, K w → w.store.ledger = l → C.Fallible → fail fault w) :
    Action.Ensures C post fail (Engine.insertTransfer t) w := by
  apply Action.Ensures.insertTransfer (H.keeps_ledger l) ⟨hw, hl⟩
  · intro w hkept
    obtain ⟨hw, rfl⟩ := hkept
    exact ok _ _ (H.insert _ hw) rfl (Ledger.length_rows_insert w.store.ledger t)
  · exact fun w fault ⟨hw, hl⟩ hfail => fails fault w hw hl hfail

/-- A scan inserts a record, counts it if it is new, and goes on. -/
theorem insertAndGoOn {next : Nat → Action Nat} (H : C.Scans K) (hw : K w)
    (hl : w.store.ledger = l) (hfound : ∀ w, K w → ∃ ts, found ts)
    (h : ∀ ts, found ts → found' (t :: ts))
    (hnext : ∀ n w, K w → w.store.ledger = l.insertAll [t] → (next n).Ensures C
      (Scanned K (l.insertAll [t]) n found) (fun _ => ScanFailed C K (l.insertAll [t]) found) w) :
    Action.Ensures C (Scanned K l emitted found') (fun _ => ScanFailed C K l found')
      (do
        let added ← Engine.insertTransfer t
        next (if added then emitted + 1 else emitted)) w := by
  apply Action.Ensures.bind
  apply H.insertTransfer hw hl
  · intro added w hw hl hlength
    refine (hnext (if added then emitted + 1 else emitted) w hw hl).mono ?_ ?_
    · intro n w' hn
      refine hn.after ?_ h
      rw [hlength]
      cases added with
      | false => rfl
      | true =>
        rw [if_pos rfl, if_pos rfl]
        omega
    · exact fun _ w' hfailed => hfailed.after h
  · intro fault w hw hl hfail
    obtain ⟨ts, hts⟩ := hfound w hw
    exact .at_start hfail hw hl (h ts hts)

end Conduct.Scans

namespace Scraper

variable {s : Scraper}

/-! ### Native transfers -/

/-- The record of a transaction, if it goes to one of the recipients and its sender is known. -/
def transactionRecord? (s : Scraper) (recipients : List Address) (block : Block)
    (tx : Transaction) : Option Transfer :=
  if tx.recipient.any recipients.contains then tx.sender.map (s.nativeRecord block tx) else none

def blockRecords (s : Scraper) (recipients : List Address) (block : Block) : List Transfer :=
  block.transactions.filterMap (s.transactionRecord? recipients block)

/-- The numbers of `count` blocks, from block `number` on. -/
def blockNumbers : (count : Nat) → (number : UInt64) → List UInt64
  | 0, _ => []
  | count + 1, number => number :: blockNumbers count (number + 1)

theorem transactionRecord?_nil (block : Block) (tx : Transaction) :
    s.transactionRecord? [] block tx = none := by
  cases h : tx.recipient <;> simp [transactionRecord?, h]

theorem blockRecords_nil (block : Block) : s.blockRecords [] block = [] := by
  simp [blockRecords, transactionRecord?_nil]

theorem scanTransactions_ensures (H : C.Scans K) (recipients : List Address) (block : Block)
    (txs : List Transaction) (emitted : Nat) (hw : K w) (hl : w.store.ledger = l) :
    (s.scanTransactions recipients block txs emitted).Ensures C
      (Scanned K l emitted (· = txs.filterMap (s.transactionRecord? recipients block)))
      (fun _ => ScanFailed C K l (· = txs.filterMap (s.transactionRecord? recipients block)))
      w := by
  induction txs generalizing emitted w l with
  | nil => exact .pure (.of_nothing hw hl rfl)
  | cons tx rest ih =>
    rw [scanTransactions]
    by_cases hto : tx.recipient.any recipients.contains
    · rw [if_pos hto]
      cases hsender : tx.sender with
      | none =>
        have hnone : s.transactionRecord? recipients block tx = none := by
          simp [transactionRecord?, hsender]
        rw [List.filterMap_cons_none hnone]
        apply Action.Ensures.bind
        apply Action.Ensures.tell (H.keeps_ledger l) ⟨hw, hl⟩
        exact fun w ⟨hw, hl⟩ => ih emitted hw hl
      | some sender =>
        have hsome : s.transactionRecord? recipients block tx =
            some (s.nativeRecord block tx sender) := by
          rw [transactionRecord?, if_pos hto, hsender, Option.map_some]
        rw [List.filterMap_cons_some hsome]
        refine H.insertAndGoOn hw hl ?_ ?_ fun n _ hw hl => ih n hw hl
        · exact fun _ _ => ⟨_, rfl⟩
        · exact fun _ => congrArg (s.nativeRecord block tx sender :: ·)
    · have hnone : s.transactionRecord? recipients block tx = none := by
        rw [transactionRecord?, if_neg hto]
      rw [if_neg hto, List.filterMap_cons_none hnone]
      exact ih emitted hw hl

theorem scanBlocks_ensures (H : C.Scans K) {blocks : UInt64 → Block}
    (hblocks : ∀ w, K w → ∀ number, w.chains.block s.node number = blocks number)
    (recipients : List Address) (count : Nat) (number : UInt64) (emitted : Nat) (hw : K w)
    (hl : w.store.ledger = l) :
    (s.scanBlocks recipients count number emitted).Ensures C
      (Scanned K l emitted
        (· = (blockNumbers count number).flatMap fun n => s.blockRecords recipients (blocks n)))
      (fun _ => ScanFailed C K l
        (· = (blockNumbers count number).flatMap fun n => s.blockRecords recipients (blocks n)))
      w := by
  induction count generalizing number emitted w l with
  | zero => exact .pure (.of_nothing hw hl rfl)
  | succ count ih =>
    rw [scanBlocks, blockNumbers, List.flatMap_cons]
    apply Action.Ensures.bind
    apply Action.Ensures.block (H.keeps_ledger l) ⟨hw, hl⟩
    · intro w hkept
      obtain ⟨hw, hl⟩ := hkept
      rw [hblocks w hw]
      apply Action.Ensures.bind
      refine (scanTransactions_ensures H recipients _ _ emitted hw hl).mono ?_ ?_
      · intro n w hscanned
        obtain ⟨ts, rfl, hw, hl, hn⟩ := hscanned
        refine (ih (number + 1) n hw hl).mono ?_ ?_
        · intro n' w' hn'
          exact hn'.after (hl ▸ hn) fun _ => congrArg (_ ++ ·)
        · exact fun _ w' hfailed => hfailed.after fun _ => congrArg (_ ++ ·)
      · exact fun _ w hfailed => hfailed.extend fun _ => congrArg (· ++ _)
    · exact fun w _ ⟨hw, hl⟩ hfail => .at_start hfail hw hl rfl

/-- What a scan of a window finds, if the blocks and the members of the whitelist are fixed. Which
list the whitelist is given as is left open. -/
def FindsNative (s : Scraper) (blocks : UInt64 → Block) (wanted : Address → Prop) (window : Window)
    (ts : List Transfer) : Prop :=
  ∃ recipients : List Address, (∀ a, a ∈ recipients ↔ wanted a) ∧
    ts = (blockNumbers window.blockCount window.first).flatMap fun n =>
      s.blockRecords recipients (blocks n)

theorem scanNative_ensures (H : C.Scans K) {blocks : UInt64 → Block} {wanted : Address → Prop}
    (hblocks : ∀ w, K w → ∀ number, w.chains.block s.node number = blocks number)
    (hwanted : ∀ w, K w →
      ∀ a, a ∈ s.recipients ++ w.store.whitelist s.task.chainId ↔ wanted a)
    (window : Window) (hw : K w) (hl : w.store.ledger = l) :
    (s.scanNative window).Ensures C
      (Scanned K l 0 (s.FindsNative blocks wanted window))
      (fun _ => ScanFailed C K l (s.FindsNative blocks wanted window)) w := by
  unfold scanNative allRecipients
  rw [bind_assoc]
  apply Action.Ensures.bind
  apply Action.Ensures.whitelist (H.keeps_ledger l) ⟨hw, hl⟩
  · intro w hkept
    obtain ⟨hw, hl⟩ := hkept
    rw [pure_bind]
    have hmem := hwanted w hw
    cases hrecipients : (s.recipients ++ w.store.whitelist s.task.chainId).isEmpty with
    | true =>
      -- Without recipients nothing is read, and nothing would have been found.
      have hnil := List.isEmpty_iff.mp hrecipients
      rw [if_pos rfl]
      apply Action.Ensures.bind
      apply Action.Ensures.tell (H.keeps_ledger l) ⟨hw, hl⟩
      intro w hkept
      refine .pure (.of_nothing hkept.1 hkept.2 ⟨[], hnil ▸ hmem, ?_⟩)
      simp [blockRecords_nil]
    | false =>
      rw [if_neg Bool.false_ne_true]
      refine (scanBlocks_ensures H hblocks _ _ _ 0 hw hl).mono ?_ ?_
      · exact fun n w' hn => hn.mono fun _ h => ⟨_, hmem, h⟩
      · exact fun _ w' hfailed => hfailed.mono fun _ h => ⟨_, hmem, h⟩
  · exact fun w fault ⟨hw, hl⟩ hfail => .at_start hfail hw hl ⟨_, hwanted w hw, rfl⟩

/-! ### Token transfers -/

/-- The record of a log, whose block was made at `time`; the log's own time goes before that. -/
def eventRecord? (s : Scraper) (contract : Address) (log : EventLog) (time : UInt64) :
    Option Transfer :=
  match log.block, log.index, log.tx with
  | some block, some index, some tx =>
    (TransferEvent.decode? log.topics log.data).map
      (.ofEvent s.assetName contract ⟨block, index, tx, log.timestamp.getD time⟩)
  | _, _, _ => none

/-- What may be recorded of a log, where `told` are the times that blocks may be said to have been
made at. -/
def ReadsLog (s : Scraper) (told : UInt64 → UInt64 → Prop) (contract : Address) (log : EventLog)
    (record? : Option Transfer) : Prop :=
  ∃ time, (∀ block, log.block = some block → told block time) ∧
    record? = s.eventRecord? contract log time

/-- What may be recorded of some logs. -/
inductive ReadsLogs (s : Scraper) (told : UInt64 → UInt64 → Prop) (contract : Address) :
    List EventLog → List Transfer → Prop
  | nil : ReadsLogs s told contract [] []
  | cons : s.ReadsLog told contract log record? → ReadsLogs s told contract logs ts →
      ReadsLogs s told contract (log :: logs) (record?.toList ++ ts)

variable {told : UInt64 → UInt64 → Prop} {time : UInt64 → UInt64} {contract : Address}

theorem ReadsLog.exists (s : Scraper) (contract : Address)
    (htold : ∀ block, told block (time block)) (log : EventLog) :
    ∃ record?, s.ReadsLog told contract log record? :=
  ⟨_, (log.block.map time).getD 0, fun block hblock => by simpa [hblock] using htold block, rfl⟩

theorem ReadsLogs.exists (s : Scraper) (contract : Address)
    (htold : ∀ block, told block (time block)) (logs : List EventLog) :
    ∃ ts, s.ReadsLogs told contract logs ts := by
  induction logs with
  | nil => exact ⟨[], .nil⟩
  | cons log rest ih =>
    obtain ⟨record?, hrecord⟩ := ReadsLog.exists s contract htold log
    obtain ⟨ts, hts⟩ := ih
    exact ⟨_, .cons hrecord hts⟩

/-- A log that is skipped, or that tells its time, has one record whatever its block's time. -/
theorem ReadsLog.of_forall (htold : ∀ block, told block (time block))
    (h : ∀ time, record? = s.eventRecord? contract log time) :
    s.ReadsLog told contract log record? := by
  cases hblock : log.block with
  | none => exact ⟨0, by simp [hblock], h 0⟩
  | some block => exact ⟨_, by simpa [hblock] using htold block, h _⟩

theorem skipLog_ensures {fail : Fault → Surroundings → Prop} (H : C.Scans K)
    (htold : ∀ w, K w → ∀ block, told block (w.chains.blockTime s.node block))
    (hskip : ∀ time, s.eventRecord? contract log time = none) (hw : K w)
    (hl : w.store.ledger = l) :
    Action.Ensures C
      (fun record? w' => s.ReadsLog told contract log record? ∧ K w' ∧ w'.store.ledger = l) fail
      (do Engine.tell notice; return none) w := by
  apply Action.Ensures.bind
  apply Action.Ensures.tell (H.keeps_ledger l) ⟨hw, hl⟩
  intro w hkept
  exact .pure ⟨.of_forall (htold w hkept.1) fun time => (hskip time).symm, hkept⟩

theorem logRecord?_ensures (H : C.Scans K)
    (htold : ∀ w, K w → ∀ block, told block (w.chains.blockTime s.node block))
    (log : EventLog) (hw : K w) (hl : w.store.ledger = l) :
    (s.logRecord? contract log).Ensures C
      (fun record? w' => s.ReadsLog told contract log record? ∧ K w' ∧ w'.store.ledger = l)
      (fun _ w' => C.Fallible ∧ K w' ∧ w'.store.ledger = l) w := by
  unfold logRecord? logRecordBy?
  cases hblock : log.block with
  | none => exact skipLog_ensures H htold (fun _ => by simp [eventRecord?, hblock]) hw hl
  | some block =>
  cases hindex : log.index with
  | none => exact skipLog_ensures H htold (fun _ => by simp [eventRecord?, hindex]) hw hl
  | some index =>
  cases htx : log.tx with
  | none => exact skipLog_ensures H htold (fun _ => by simp [eventRecord?, htx]) hw hl
  | some tx =>
  have hevent : ∀ time, s.eventRecord? contract log time =
      (TransferEvent.decode? log.topics log.data).map
        (.ofEvent s.assetName contract ⟨block, index, tx, log.timestamp.getD time⟩) := by
    intro time
    simp only [eventRecord?, hblock, hindex, htx]
  dsimp only
  cases hdecode : TransferEvent.decode? log.topics log.data with
  | none => exact skipLog_ensures H htold (fun _ => by simp [hevent, hdecode]) hw hl
  | some event =>
    dsimp only
    cases htimestamp : log.timestamp with
    | some timestamp =>
      refine .pure ⟨.of_forall (htold w hw) fun time => ?_, hw, hl⟩
      rw [hevent, hdecode, htimestamp, Option.map_some, Option.getD_some]
    | none =>
      apply Action.Ensures.bind
      apply Action.Ensures.blockTime (H.keeps_ledger l) ⟨hw, hl⟩
      · intro w hkept
        refine .pure ⟨⟨_, by simpa [hblock] using htold w hkept.1 block, ?_⟩, hkept⟩
        rw [hevent, hdecode, htimestamp, Option.map_some, Option.getD_none]
      · exact fun w _ ⟨hw, hl⟩ hfail => ⟨hfail, hw, hl⟩

theorem scanLogs_ensures (H : C.Scans K)
    (htold : ∀ w, K w → ∀ block, told block (w.chains.blockTime s.node block))
    (logs : List EventLog) (emitted : Nat) (hw : K w) (hl : w.store.ledger = l) :
    (s.scanLogs contract logs emitted).Ensures C
      (Scanned K l emitted (s.ReadsLogs told contract logs))
      (fun _ => ScanFailed C K l (s.ReadsLogs told contract logs)) w := by
  induction logs generalizing emitted w l with
  | nil => exact .pure (.of_nothing hw hl .nil)
  | cons log rest ih =>
    have hmore : ∀ w, K w → ∃ ts, s.ReadsLogs told contract rest ts := fun w hw =>
      ReadsLogs.exists s contract (htold w hw) rest
    rw [scanLogs]
    apply Action.Ensures.bind
    refine (logRecord?_ensures H htold log hw hl).mono ?_ ?_
    · intro record? w hrecord
      obtain ⟨hread, hw, hl⟩ := hrecord
      cases record? with
      | none =>
        refine (ih emitted hw hl).mono ?_ ?_
        · exact fun n w' hn => hn.mono fun _ hts => .cons hread hts
        · exact fun _ w' hfailed => hfailed.mono fun _ hts => .cons hread hts
      | some record =>
        exact H.insertAndGoOn hw hl hmore (fun _ hts => .cons hread hts) fun n _ hw hl => ih n hw hl
    · intro fault w hfailed
      obtain ⟨hfail, hw, hl⟩ := hfailed
      obtain ⟨record?, hread⟩ := ReadsLog.exists s contract (htold w hw) log
      obtain ⟨ts, hts⟩ := hmore w hw
      exact .at_start hfail hw hl (.cons hread hts)

/-- What a scan of a window finds, where `told` are the answers to queries for logs. -/
def FindsTokens (s : Scraper) (answers : UInt64 → UInt64 → List EventLog → Prop)
    (told : UInt64 → UInt64 → Prop) (contract : Address) (window : Window)
    (ts : List Transfer) : Prop :=
  if window.isInverted then ts = []
  else ∃ logs, answers window.first window.last logs ∧ s.ReadsLogs told contract logs ts

theorem scanToken_ensures (H : C.Scans K) {answers : UInt64 → UInt64 → List EventLog → Prop}
    (hanswers : ∀ w, K w →
      ∀ first last, answers first last (w.chains.logs s.node contract first last))
    (htold : ∀ w, K w → ∀ block, told block (w.chains.blockTime s.node block))
    (window : Window) (hw : K w) (hl : w.store.ledger = l) :
    (s.scanToken contract window).Ensures C
      (Scanned K l 0 (s.FindsTokens answers told contract window))
      (fun _ => ScanFailed C K l (s.FindsTokens answers told contract window)) w := by
  unfold scanToken FindsTokens
  cases window.isInverted with
  | true => exact .pure (.of_nothing hw hl rfl)
  | false =>
    simp only [Bool.false_eq_true, if_false]
    apply Action.Ensures.bind
    apply Action.Ensures.transferLogs (H.keeps_ledger l) ⟨hw, hl⟩
    · intro w hkept
      obtain ⟨hw, hl⟩ := hkept
      refine (scanLogs_ensures H htold _ 0 hw hl).mono ?_ ?_
      · exact fun n w' hn => hn.mono fun _ hts => ⟨_, hanswers w hw _ _, hts⟩
      · exact fun _ w' hfailed => hfailed.mono fun _ hts => ⟨_, hanswers w hw _ _, hts⟩
    · intro w fault hkept hfail
      obtain ⟨hw, hl⟩ := hkept
      obtain ⟨ts, hts⟩ := ReadsLogs.exists s contract (htold w hw)
        (w.chains.logs s.node contract window.first window.last)
      exact .at_start hfail hw hl ⟨_, hanswers w hw _ _, hts⟩

end Scraper

end ChainIngest
