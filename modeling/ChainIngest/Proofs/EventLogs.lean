import ChainIngest.Proofs.Events
import ChainIngest.Proofs.ExactlyOnce

/-!
Logs of transfer events. The log of an event is read as a record of its values, and a record is
made of nothing but what its log says (`Scraper.event_logs_read_back`). Of what reads the events,
only `TransferEvent.ReadsBack` is asked; for the reading of events as they are declared it follows
what logs have a record: of an address's topic the first twelve bytes are not looked at, nor is
what follows the first 32 bytes of the data.
-/

namespace ChainIngest

/-- Every event is read back from the topics and the data it is logged with. -/
def TransferEvent.ReadsBack (decode : List Hash → List UInt8 → Option TransferEvent) : Prop :=
  ∀ e : TransferEvent, decode e.encode.1 e.encode.2 = some e

namespace Scraper

open Engine (tell blockTime)

variable {s : Scraper} {decode : List Hash → List UInt8 → Option TransferEvent}
  {contract : Address} {log : EventLog} {block index : UInt64} {tx : Hash} {event : TransferEvent}
  {t : Transfer}

/-! ### Reading logs -/

/-- A log that tells its position is recorded with its own time, or else with its block's. -/
theorem logRecordBy?_of_decode (hblock : log.block = some block) (hindex : log.index = some index)
    (htx : log.tx = some tx) (hevent : decode log.topics log.data = some event) :
    s.logRecordBy? decode contract log =
      (fun time => some (.ofEvent s.assetName contract ⟨block, index, tx, time⟩ event)) <$>
        (match log.timestamp with
          | some time => pure time
          | none => blockTime s.node block) := by
  unfold logRecordBy?
  simp only [hblock, hindex, htx, hevent]
  cases log.timestamp <;> rfl

/-- Whatever else a log may be, it is skipped. -/
theorem logRecordBy?_skips (s : Scraper) (contract : Address)
    (h : ∀ block index tx event, log.block = some block → log.index = some index →
      log.tx = some tx → decode log.topics log.data ≠ some event) :
    ∃ notice, s.logRecordBy? decode contract log = do tell notice; return none := by
  unfold logRecordBy?
  split
  · next block index tx hblock hindex htx =>
    cases hevent : decode log.topics log.data with
    | none => exact ⟨_, rfl⟩
    | some event => exact absurd hevent (h block index tx event hblock hindex htx)
  · exact ⟨_, rfl⟩

/-- What a record has from its log, read by `decode`, and from the task. -/
structure RecordsBy (s : Scraper) (decode : List Hash → List UInt8 → Option TransferEvent)
    (contract : Address) (log : EventLog) (t : Transfer) : Prop where
  block : log.block = some t.block
  index : log.index = some t.index
  tx : log.tx = some t.tx
  event : decode log.topics log.data = some ⟨t.sender, t.recipient, t.amount⟩
  contract : t.contract = contract
  asset : t.chainId = s.task.chainId ∧ t.symbol = Text.uppercase s.task.symbol ∧
    t.decimals = s.task.decimals

theorem RecordsBy.eq_ofEvent (H : s.RecordsBy decode contract log t) :
    t = .ofEvent s.assetName contract ⟨t.block, t.index, t.tx, t.timestamp⟩
      ⟨t.sender, t.recipient, t.amount⟩ := by
  obtain ⟨hchainId, hsymbol, hdecimals⟩ := H.asset
  rw [Transfer.ofEvent, assetName, ← hchainId, ← hsymbol, ← hdecimals, ← H.contract]

/-- A record has the time of its log, or else the time that is told for its block. -/
def TellsTime (s : Scraper) (A : Answering Engine σ) (log : EventLog) (t : Transfer) (w w' : σ) :
    Prop :=
  log.timestamp = some t.timestamp ∧ w' = w ∨
    log.timestamp = none ∧ A w (.blockTime s.node t.block) (.ok t.timestamp) w'

variable {A : Answering Engine σ} {w w' : σ}

theorem RecordsBy.runs (H : s.RecordsBy decode contract log t)
    (htime : s.TellsTime A log t w w') :
    (s.logRecordBy? decode contract log).run.Runs A w (.ok (some t)) w' := by
  rw [logRecordBy?_of_decode H.block H.index H.tx H.event]
  rcases htime with ⟨htimestamp, rfl⟩ | ⟨htimestamp, hanswer⟩
  · rw [htimestamp, H.eq_ofEvent]
    exact .pure
  · rw [htimestamp]
    refine .query hanswer ?_
    rw [H.eq_ofEvent]
    exact .pure

theorem recordsBy_of_runs
    (H : (s.logRecordBy? decode contract log).run.Runs A w (.ok (some t)) w') :
    s.RecordsBy decode contract log t ∧ s.TellsTime A log t w w' := by
  by_cases hreads : ∃ block index tx event, log.block = some block ∧ log.index = some index ∧
      log.tx = some tx ∧ decode log.topics log.data = some event
  · obtain ⟨block, index, tx, event, hblock, hindex, htx, hevent⟩ := hreads
    rw [logRecordBy?_of_decode hblock hindex htx hevent] at H
    cases htimestamp : log.timestamp with
    | some time =>
      rw [htimestamp] at H
      cases H
      exact ⟨⟨hblock, hindex, htx, hevent, rfl, rfl, rfl, rfl⟩, .inl ⟨htimestamp, rfl⟩⟩
    | none =>
      rw [htimestamp] at H
      obtain ⟨answer, w₁, hanswer, hrest⟩ := Program.Runs.of_query H
      cases answer with
      | error => cases hrest
      | ok time =>
        cases hrest
        exact ⟨⟨hblock, hindex, htx, hevent, rfl, rfl, rfl, rfl⟩, .inr ⟨htimestamp, hanswer⟩⟩
  · simp only [not_exists, not_and] at hreads
    obtain ⟨notice, hskip⟩ := logRecordBy?_skips s contract hreads
    rw [hskip] at H
    obtain ⟨_, _, -, hrest⟩ := Program.Runs.of_query H
    cases hrest

/-! ### Reading events as they are declared -/

/-- What a record has from its log, and from the task. -/
structure Records (s : Scraper) (contract : Address) (log : EventLog) (t : Transfer) : Prop where
  block : log.block = some t.block
  index : log.index = some t.index
  tx : log.tx = some t.tx
  topics : ∃ sender recipient : Hash, log.topics = [TransferEvent.topic, sender, recipient] ∧
    t.sender.toList = sender.toList.drop 12 ∧ t.recipient.toList = recipient.toList.drop 12
  length : 32 ≤ log.data.length
  amount : t.amount.toNat = Bytes.natOf (log.data.take 32)
  contract : t.contract = contract
  asset : t.chainId = s.task.chainId ∧ t.symbol = Text.uppercase s.task.symbol ∧
    t.decimals = s.task.decimals

theorem Records.decode?_eq (H : s.Records contract log t) :
    TransferEvent.decode? log.topics log.data = some ⟨t.sender, t.recipient, t.amount⟩ := by
  obtain ⟨sender, recipient, htopics, hsender, hrecipient⟩ := H.topics
  have hsender : t.sender = .ofTopic sender := Bytes.ext hsender
  have hrecipient : t.recipient = .ofTopic recipient := Bytes.ext hrecipient
  have hamount : t.amount = wordOfBytes log.data :=
    BitVec.eq_of_toNat_eq (H.amount.trans (toNat_wordOfBytes log.data).symm)
  rw [htopics, hsender, hrecipient, hamount]
  exact TransferEvent.decode?_of_length sender recipient H.length

theorem recordsBy_decode?_iff :
    s.RecordsBy TransferEvent.decode? contract log t ↔ s.Records contract log t := by
  constructor
  · intro H
    obtain ⟨sender, recipient, htopics, hlength, hvalues⟩ :=
      TransferEvent.decode?_eq_some_iff.mp H.event
    obtain ⟨hsender, hrecipient, hamount⟩ := TransferEvent.mk.inj hvalues
    exact ⟨H.block, H.index, H.tx,
      ⟨sender, recipient, htopics, congrArg (·.toList) hsender, congrArg (·.toList) hrecipient⟩,
      hlength, (congrArg (·.toNat) hamount).trans (toNat_wordOfBytes log.data), H.contract, H.asset⟩
  · exact fun H => ⟨H.block, H.index, H.tx, H.decode?_eq, H.contract, H.asset⟩

/-- The log of any event is recorded with the event's values and place. -/
def ReadsEvents (s : Scraper) (contract : Address)
    (record? : EventLog → Action (Option Transfer)) : Prop :=
  ∀ (sender recipient : Address) (amount : BitVec 256) (block index timestamp : UInt64)
    (tx : Hash) (blockHash : Option Hash),
    record? {
        block := some block, blockHash, timestamp := some timestamp, index := some index,
        tx := some tx, topics := [TransferEvent.topic, sender.toTopic, recipient.toTopic],
        data := wordBytes amount }
      = pure (some {
        block, index, tx, timestamp, sender, recipient, amount, contract,
        chainId := s.task.chainId, symbol := Text.uppercase s.task.symbol,
        decimals := s.task.decimals })

theorem readsEvents_logRecordBy? (h : TransferEvent.ReadsBack decode) :
    s.ReadsEvents contract (s.logRecordBy? decode contract) := by
  intro sender recipient amount block index timestamp tx blockHash
  have hevent := h ⟨sender, recipient, amount⟩
  rw [TransferEvent.encode_eq] at hevent
  exact Eq.trans (logRecordBy?_of_decode rfl rfl rfl hevent) rfl

/-- Whatever reads the events: if it reads back what events are logged with, the log of an event is
recorded with the event's values and place, and a record is made of a log only if the log has a
place, which is the record's, and the record's values have been read from it. As events are
declared, that is so only of logs with three topics, the first of which is that of transfer events,
and at least 32 bytes of data; the record then has the addresses at the end of the other topics and
the number at the beginning of the data. -/
theorem event_logs_read_back (s : Scraper) (contract : Address) :
    (∀ decode : List Hash → List UInt8 → Option TransferEvent,
      (TransferEvent.ReadsBack decode →
        s.ReadsEvents contract (s.logRecordBy? decode contract)) ∧
      ∀ {σ : Type} (A : Answering Engine σ) (log : EventLog) (t : Transfer) (w w' : σ),
        (s.logRecordBy? decode contract log).run.Runs A w (.ok (some t)) w' ↔
          s.RecordsBy decode contract log t ∧ s.TellsTime A log t w w') ∧
    s.ReadsEvents contract (s.logRecord? contract) ∧
    ∀ {σ : Type} (A : Answering Engine σ) (log : EventLog) (t : Transfer) (w w' : σ),
      (s.logRecord? contract log).run.Runs A w (.ok (some t)) w' ↔
        s.Records contract log t ∧ s.TellsTime A log t w w' := by
  have hruns (decode : List Hash → List UInt8 → Option TransferEvent) {σ : Type}
      (A : Answering Engine σ) (log : EventLog) (t : Transfer) (w w' : σ) :
      (s.logRecordBy? decode contract log).run.Runs A w (.ok (some t)) w' ↔
        s.RecordsBy decode contract log t ∧ s.TellsTime A log t w w' :=
    ⟨recordsBy_of_runs, fun h => h.1.runs h.2⟩
  refine ⟨fun decode => ⟨readsEvents_logRecordBy?, hruns decode⟩,
    readsEvents_logRecordBy? TransferEvent.decode?_encode, fun A log t w w' => ?_⟩
  rw [← recordsBy_decode?_iff]
  exact hruns TransferEvent.decode? A log t w w'

/-- The log of a transfer of 5, at index 2 of block 9. -/
theorem sampleToken_reads_back :
    TransferEvent.ReadsBack TransferEvent.decode? ∧
    sampleToken.logRecordBy? TransferEvent.decode? (.zero 20) {
        block := some 9, blockHash := none, timestamp := some 90, index := some 2,
        tx := some (.sample 9),
        topics := [TransferEvent.topic, Address.toTopic (.ofNat 20 1), Address.toTopic (.ofNat 20 2)],
        data := wordBytes 5 }
      = pure (some {
        block := 9, index := 2, tx := .sample 9, timestamp := 90, sender := .ofNat 20 1,
        recipient := .ofNat 20 2, amount := 5, contract := .zero 20, chainId := 1,
        symbol := Text.uppercase "SUPS", decimals := 18 }) :=
  have hdecode : TransferEvent.ReadsBack TransferEvent.decode? := TransferEvent.decode?_encode
  ⟨hdecode, ((event_logs_read_back sampleToken (.zero 20)).1 TransferEvent.decode?).1 hdecode
    (.ofNat 20 1) (.ofNat 20 2) 5 9 2 90 (.sample 9) none⟩

end Scraper

end ChainIngest
