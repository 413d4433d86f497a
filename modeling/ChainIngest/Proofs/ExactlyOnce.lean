import ChainIngest.Proofs.Events
import ChainIngest.Proofs.Progress

/-! Every transfer exactly once. Ticks run in which any call may fail, then a catch-up in which none
does: after that the last block is at the head, and the ledger has every transfer that is sought
from the stream's start on, none of them twice and nothing else. Between any two queries the head
may move below its final value, the range may change, and whatever is not the stream's own may do as
it likes. -/

namespace ChainIngest

namespace Stream

/-- What others may do while a stream is scanned. -/
structure Spared (st : Stream) (terms : Terms) (w w' : Surroundings) : Prop where
  ledger : w'.store.ledger = w.store.ledger
  lastBlock : w'.store.checkpoints.get? st.scraper.task.lastBlockKey =
    w.store.checkpoints.get? st.scraper.task.lastBlockKey
  tuned : st.scraper.Tuned terms w → st.scraper.Tuned terms w'
  view : st.view w.chains w.store.recipients → st.view w'.chains w'.store.recipients
  guard : w'.held st.scraper.guard = w.held st.scraper.guard
  cancelled : w'.cancelled = w.cancelled

/-- Surroundings that spare a stream, where the calls that `mayFail` names may fail. -/
def conduct (st : Stream) (terms : Terms) (mayFail : Engine.Query → Prop) : Conduct where
  mayFail
  drift := st.Spared terms
  drift_refl _ := ⟨rfl, rfl, id, id, rfl, rfl⟩

/-- Any call may fail while the head lies at or below `top`. -/
def unreliable (st : Stream) (overlap top : UInt64) : Conduct :=
  st.conduct ⟨overlap, (· ≤ top)⟩ fun _ => True

/-- No call fails while the head lies at `top`. -/
def reliable (st : Stream) (overlap top : UInt64) : Conduct :=
  st.conduct ⟨overlap, (· = top)⟩ fun _ => False

variable {st : Stream} {terms : Terms} {overlap start top : UInt64} {w₀ w₁ w : Surroundings}

theorem conduct_spares (mayFail : Engine.Query → Prop) :
    (st.conduct terms mayFail).Spares st.scraper terms where
  ledger _ _ _ h hdrift := hdrift.ledger.trans h
  guard _ _ _ h hdrift := hdrift.guard.trans h
  lastBlock _ _ _ h hdrift := hdrift.lastBlock.trans h
  tuned h hdrift := hdrift.tuned h

theorem reliable_not_fallible : ¬(st.reliable overlap top).Fallible := fun ⟨_, h⟩ => h

theorem aside_view (mayFail : Engine.Query → Prop) :
    st.scraper.Aside (st.conduct terms mayFail) fun w => st.view w.chains w.store.recipients :=
  .of_unwritten (K := fun chains recipients _ => st.view chains recipients)
    fun h hdrift => hdrift.view h

theorem aside_not_cancelled (mayFail : Engine.Query → Prop) :
    st.scraper.Aside (st.conduct terms mayFail) fun w =>
      st.view w.chains w.store.recipients ∧ w.cancelled = false :=
  .of_unwritten (K := fun chains recipients isCancelled =>
      st.view chains recipients ∧ isCancelled = false)
    fun h hdrift => ⟨hdrift.view h.1, hdrift.cancelled.trans h.2⟩

/-- A stream is to be scanned from block `start` on: that is the number its last block holds, or is
created with, and no tick is under way. -/
structure Begins (st : Stream) (overlap start top : UInt64) (w : Surroundings) : Prop where
  lastBlock : w.height? st.scraper.task.lastBlockKey st.scraper.task.startBlock = some start
  tuned : st.scraper.Tuned ⟨overlap, (· ≤ top)⟩ w
  view : st.view w.chains w.store.recipients
  guard : w.held st.scraper.guard = false

/-- After any ticks, a catch-up that does not fail brings a stream to the head. -/
theorem worker_caughtUp (hbegins : st.Begins overlap start top w₀)
    (hticks : st.scraper.Ticks (st.unreliable overlap top) w₀ w₁)
    (hhead : w₁.height? st.scraper.task.headKey 0 = some top) (hgo : w₁.cancelled = false) :
    (CatchUp.worker st.scraper).Ends (st.reliable overlap top).Answers (fun result w =>
      (∃ report, result = .ok report) ∧
        st.CaughtUp overlap start top w₀.store.ledger w) w₁ := by
  have hw₀ : st.Under ⟨overlap, (· ≤ top)⟩ (fun w => st.view w.chains w.store.recipients) start top
      w₀.store.ledger start false w₀ :=
    ⟨⟨hbegins.view, hbegins.guard, hbegins.tuned, hbegins.lastBlock, nofun⟩, .at_start .., .refl ..⟩
  obtain ⟨c, hw₁⟩ := hw₀.of_ticks (conduct_spares _) (aside_view _) (fun _ h => h) (fun _ h => h)
    hticks
  have hstands : st.scraper.Stands ⟨overlap, (· = top)⟩
      (fun w => st.view w.chains w.store.recipients ∧ w.cancelled = false) c false false w₁ :=
    ⟨⟨hw₁.stands.aside, hgo⟩, hw₁.stands.guard, ⟨hw₁.stands.tuned.range,
      hw₁.stands.tuned.overlap, top, hhead, rfl⟩, hw₁.stands.lastBlock, nofun⟩
  exact worker_ends (conduct_spares _) (aside_not_cancelled _) (fun _ h => h.1) (fun _ h => h)
    reliable_not_fallible (fun _ h => h.2) ⟨hstands, hw₁.progress, hw₁.inserted⟩

/-- A stream that is caught up has added what is sought and nothing else. -/
theorem CaughtUp.grows {before : Ledger} (H : st.CaughtUp overlap start top before w) :
    ∃ added, before.Grows w.store.ledger added ∧
      (∀ t ∈ added, st.sought t ∧ Height.subFloored start overlap ≤ t.block ∧
        st.scraper.task.asset.Reaches top t.block) ∧
      ∀ id, id ∈ w.store.ledger.ids ↔ id ∈ before.ids ∨ ∃ t, st.sought t ∧
        Height.subFloored start overlap ≤ t.block ∧ st.scraper.task.asset.Reaches top t.block ∧
        t.id = id := by
  obtain ⟨ts, hl, hts⟩ := H.inserted
  obtain ⟨added, hsub, hgrows⟩ := (Ledger.Grows.refl before).insertAll ts
  rw [← hl, List.nil_append] at hgrows
  refine ⟨added, hgrows, fun t ht => hts t (hsub.subset ht), fun id => ?_⟩
  constructor
  · intro hid
    rw [hl, Ledger.mem_ids_insertAll] at hid
    rcases hid with hid | ⟨t, ht, rfl⟩
    · exact .inl hid
    · obtain ⟨h₁, h₂, h₃⟩ := hts t ht
      exact .inr ⟨t, h₁, h₂, h₃, rfl⟩
  · intro hid
    rcases hid with hid | ⟨t, h₁, h₂, h₃, rfl⟩
    · rw [hl]
      exact Ledger.mem_ids_insertAll_of_mem hid ts
    · exact H.covered t h₁ h₂ h₃

end Stream

/-! ### Surroundings to look at -/

/-- A tick whose first call fails does nothing but take its guard and give it back. -/
theorem Scraper.tick_runs_of_failing_read {C : Conduct} {s : Scraper} {w : Surroundings}
    (hfail : ∀ q, C.mayFail q) (hguard : w.held s.guard = false) (fault : Fault) :
    s.tick.run.Runs C.Answers w (.error fault)
      ((w.withGuard s.guard true).withGuard s.guard false) := by
  have hacquire : C.Answers w (.acquire s.guard) () (w.withGuard s.guard true) :=
    ⟨w, C.drift_refl w, .inl ⟨hguard, rfl⟩⟩
  have hread : C.Answers (w.withGuard s.guard true)
      (.readCheckpoint s.task.scanRangeKey (Number.showUInt64 s.task.scanRange)) (.error fault)
      (w.withGuard s.guard true) :=
    ⟨_, C.drift_refl _, .inr ⟨hfail _, rfl, fault, rfl⟩⟩
  have hrelease : C.Answers (w.withGuard s.guard true) (.release s.guard) ()
      ((w.withGuard s.guard true).withGuard s.guard false) := ⟨_, C.drift_refl _, .inl rfl⟩
  exact .query hacquire (.query hread (.query hrelease .pure))

/-- A transaction that is named after its block. -/
def Hash.sample (block : UInt64) : Hash := .ofNat 32 block.toNat

theorem Hash.sample_inj (h : Hash.sample a = Hash.sample b) : a = b := by
  have hbound : ∀ n : UInt64, n.toNat < 256 ^ 32 := fun n => Nat.lt_trans n.toNat_lt (by decide)
  have hnat := congrArg Bytes.toNat h
  rw [sample, sample, Bytes.toNat_ofNat (hbound a), Bytes.toNat_ofNat (hbound b)] at hnat
  exact UInt64.toNat_inj.mp hnat

/-- A transfer of nothing at index 0 of a block. -/
def EventLog.sample (block : UInt64) : EventLog where
  block := some block
  blockHash := none
  timestamp := none
  index := some 0
  tx := some (.sample block)
  topics := [TransferEvent.topic, .zero 32, .zero 32]
  data := List.replicate 32 0

theorem EventLog.sample_shows (block : UInt64) :
    (sample block).Shows block 0 (.sample block)
      ⟨.ofTopic (.zero 32), .ofTopic (.zero 32), wordOfBytes (List.replicate 32 0)⟩ :=
  ⟨rfl, rfl, rfl, TransferEvent.decode?_of_length _ _ (Nat.le_refl 32)⟩

/-- The head lies at block 30 and nothing has been scanned. Blocks 7, 9, 29 and 30 have a transfer
event, and every block has a transaction to the zero address. -/
def Surroundings.sample : Surroundings where
  store := { Store.empty with
    checkpoints := Checkpoints.empty.put (CheckpointKey.head "mainnet") (Number.showUInt64 30) }
  chains :=
    { head := fun _ => 30
      block := fun _ number =>
        ⟨number, number, [⟨.sample number, 0, some (.zero 20), some (.zero 20), 1⟩]⟩
      blockTime := fun _ number => number
      logs := fun _ _ first last =>
        ([7, 9, 29, 30].filter fun block => first ≤ block && block ≤ last).map EventLog.sample
      decimals := fun _ _ => 18
      oracleAnswer := fun _ => 0
      poolPrice := fun _ => 0 }
  held := fun _ => false
  cancelled := false

/-! ### Token transfers -/

/-- After any ticks and a catch-up without failures, the ledger has, beside what it had, exactly the
contract's transfers from the block that the overlap looks back at to the head, each of them once
and as its log says. -/
theorem Scraper.token_transfers_exactly_once {s : Scraper} {contract : Address}
    (hasset : s.task.asset = .token contract) {logs : EventLog → Prop}
    {told : UInt64 → UInt64 → Prop} {overlap start top : UInt64} {w₀ w₁ : Surroundings}
    (hbegins : (Stream.token s contract hasset logs told).Begins overlap start top w₀)
    (hticks : s.Ticks ((Stream.token s contract hasset logs told).unreliable overlap top) w₀ w₁)
    (hhead : w₁.height? s.task.headKey 0 = some top) (hgo : w₁.cancelled = false) :
    (CatchUp.worker s).Ends
      ((Stream.token s contract hasset logs told).reliable overlap top).Answers
      (fun result w => (∃ report, result = .ok report) ∧
        w.store.checkpoints.Holds s.task.lastBlockKey (max start top) ∧
        (∀ id, id ∈ w.store.ledger.ids ↔ id ∈ w₀.store.ledger.ids ∨
          ∃ log block index tx event, logs log ∧ log.Shows block index tx event ∧
            Height.subFloored start overlap ≤ block ∧ block ≤ top ∧
            id = ⟨s.task.chainId, tx, index⟩) ∧
        ∃ added, w₀.store.ledger.Grows w.store.ledger added ∧ ∀ t ∈ added,
          ∃ log block index tx event time, logs log ∧ log.Shows block index tx event ∧
            Height.subFloored start overlap ≤ block ∧ block ≤ top ∧
            (log.timestamp = some time ∨ log.timestamp = none ∧ told block time) ∧
            t = .ofEvent s.assetName contract ⟨block, index, tx, time⟩ event) w₁ := by
  refine ((Stream.token s contract hasset logs told).worker_caughtUp hbegins hticks hhead
    hgo).mono ?_
  intro result w hends
  obtain ⟨hok, hcaught⟩ := hends
  obtain ⟨added, hgrows, hadded, hids⟩ := hcaught.grows
  simp only [Stream.token, hasset, Asset.Reaches] at hadded hids
  refine ⟨hok, hcaught.lastBlock, fun id => ?_, added, hgrows, fun t ht => ?_⟩
  · refine (hids id).trans (or_congr_right ⟨?_, ?_⟩)
    · intro h
      obtain ⟨t, ⟨log, block, index, tx, event, time, hlog, hshows, -, rfl⟩, hfirst, hlast,
        rfl⟩ := h
      exact ⟨log, block, index, tx, event, hlog, hshows, hfirst, hlast, rfl⟩
    · intro h
      obtain ⟨log, block, index, tx, event, hlog, hshows, hfirst, hlast, rfl⟩ := h
      -- Whichever time the node tells, the record has the same identity.
      let time := log.timestamp.getD (w₀.chains.blockTime s.node block)
      refine ⟨_, ⟨log, block, index, tx, event, time, hlog, hshows, ?_, rfl⟩, hfirst, hlast, rfl⟩
      simp only [time]
      cases log.timestamp with
      | none => exact .inr ⟨rfl, hbegins.view.2 block⟩
      | some timestamp => exact .inl rfl
  · obtain ⟨⟨log, block, index, tx, event, time, hlog, hshows, htime, rfl⟩, hfirst, hlast⟩ :=
      hadded t ht
    exact ⟨log, block, index, tx, event, time, hlog, hshows, hfirst, hlast, htime, rfl⟩

/-- A scraper of a token, from block 10 on, whose scans look back by two blocks. -/
def Scraper.sampleToken : Scraper where
  index := 0
  task := ⟨"mainnet", 1, "SUPS", .token (.zero 20), 18, true, 5, 2, 10⟩
  node := 0
  recipients := []

def Stream.sampleToken : Stream :=
  .token .sampleToken (.zero 20) rfl (fun log => ∃ block ∈ [7, 9, 29, 30], log = .sample block)
    fun block time => time = block

theorem Stream.sampleToken_begins : Stream.sampleToken.Begins 2 10 30 .sample where
  lastBlock := Checkpoints.height?_of_none (by decide)
  tuned :=
    { range := ⟨5, Checkpoints.height?_of_none (by decide), by decide⟩
      overlap := Checkpoints.height?_of_none (by decide)
      head := ⟨30, (Checkpoints.holds_put ..).height?, UInt64.le_refl _⟩ }
  view := by
    refine ⟨fun first last log block hblock => ?_, fun _ => rfl⟩
    simp only [Surroundings.sample, List.mem_map, List.mem_filter, Bool.and_eq_true,
      decide_eq_true_eq]
    constructor
    · intro h
      obtain ⟨n, ⟨hmem, h₁, h₂⟩, rfl⟩ := h
      cases hblock
      exact ⟨⟨_, hmem, rfl⟩, h₁, h₂⟩
    · intro h
      obtain ⟨⟨n, hmem, rfl⟩, h₁, h₂⟩ := h
      cases hblock
      exact ⟨_, ⟨hmem, h₁, h₂⟩, rfl⟩
  guard := rfl

/-- After a tick that fails, the catch-up adds the events of the blocks 9, 29 and 30: block 7 lies
before the two blocks that are looked back at. -/
theorem Scraper.token_transfers_after_failed_tick :
    ∃ w₁, Scraper.sampleToken.Ticks (Stream.sampleToken.unreliable 2 30) .sample w₁ ∧
      (CatchUp.worker .sampleToken).Ends (Stream.sampleToken.reliable 2 30).Answers
        (fun _ w => w.store.checkpoints.Holds "last_block_mainnet_sups" 30 ∧
          ∀ id, id ∈ w.store.ledger.ids ↔
            ∃ block ∈ [9, 29, 30], id = ⟨1, .sample block, 0⟩) w₁ := by
  have hrun := Scraper.tick_runs_of_failing_read (C := Stream.sampleToken.unreliable 2 30)
    (s := .sampleToken) (fun _ => trivial) (w := .sample) rfl (.reported "store unavailable" [])
  refine ⟨_, .tick .refl hrun, (Scraper.token_transfers_exactly_once rfl Stream.sampleToken_begins
    (.tick .refl hrun) (Checkpoints.holds_put ..).height? rfl).mono ?_⟩
  intro result w hends
  obtain ⟨-, hlast, hids, -⟩ := hends
  refine ⟨hlast, fun id => (hids id).trans ⟨?_, ?_⟩⟩
  · intro h
    rcases h with hid | ⟨_, block, index, tx, event, ⟨n, hn, rfl⟩, hshows, hfirst, -, rfl⟩
    · cases hid
    · obtain rfl := Option.some.inj hshows.block
      obtain rfl := Option.some.inj hshows.index
      obtain rfl := Option.some.inj hshows.tx
      rcases List.mem_cons.mp hn with rfl | hn
      · exact absurd hfirst (by decide)
      · exact ⟨_, hn, rfl⟩
  · intro h
    obtain ⟨block, hmem, rfl⟩ := h
    have hrange : Height.subFloored 10 2 ≤ block ∧ block ≤ 30 := by
      simp only [List.mem_cons, List.not_mem_nil, or_false] at hmem
      rcases hmem with rfl | rfl | rfl
      · decide
      · decide
      · decide
    obtain ⟨hfirst, hlast⟩ := hrange
    exact .inr ⟨_, block, 0, _, _, ⟨block, List.mem_cons_of_mem 7 hmem, rfl⟩,
      EventLog.sample_shows block, hfirst, hlast, rfl⟩

/-! ### Native transfers -/

/-- After any ticks and a catch-up without failures, the ledger has, beside what it had, exactly the
transactions to whitelisted recipients from known senders, from the block that the overlap looks
back at up to the head, each of them once. The head's own block is left for later. -/
theorem Scraper.native_transfers_exactly_once {s : Scraper} (hasset : s.task.asset = .native)
    {blocks : UInt64 → Block} (hnumber : ∀ n, (blocks n).number = n) {wanted : Address → Prop}
    {overlap start top : UInt64} {w₀ w₁ : Surroundings}
    (hbegins : (Stream.native s hasset blocks hnumber wanted).Begins overlap start top w₀)
    (hticks : s.Ticks ((Stream.native s hasset blocks hnumber wanted).unreliable overlap top) w₀ w₁)
    (hhead : w₁.height? s.task.headKey 0 = some top) (hgo : w₁.cancelled = false) :
    (CatchUp.worker s).Ends
      ((Stream.native s hasset blocks hnumber wanted).reliable overlap top).Answers
      (fun result w => (∃ report, result = .ok report) ∧
        w.store.checkpoints.Holds s.task.lastBlockKey (max start top) ∧
        (∀ id, id ∈ w.store.ledger.ids ↔ id ∈ w₀.store.ledger.ids ∨
          ∃ block tx recipient sender, tx ∈ (blocks block).transactions ∧
            tx.recipient = some recipient ∧ wanted recipient ∧ tx.sender = some sender ∧
            Height.subFloored start overlap ≤ block ∧ block < top ∧
            id = ⟨s.task.chainId, tx.hash, tx.position⟩) ∧
        ∃ added, w₀.store.ledger.Grows w.store.ledger added ∧ ∀ t ∈ added,
          ∃ block tx recipient sender, tx ∈ (blocks block).transactions ∧
            tx.recipient = some recipient ∧ wanted recipient ∧ tx.sender = some sender ∧
            Height.subFloored start overlap ≤ block ∧ block < top ∧
            t = .ofNative s.assetName ⟨block, tx.position, tx.hash, (blocks block).timestamp⟩ sender
              (some recipient) tx.value) w₁ := by
  refine ((Stream.native s hasset blocks hnumber wanted).worker_caughtUp hbegins hticks hhead
    hgo).mono ?_
  intro result w hends
  obtain ⟨hok, hcaught⟩ := hends
  obtain ⟨added, hgrows, hadded, hids⟩ := hcaught.grows
  simp only [Stream.native, hasset, Asset.Reaches] at hadded hids
  have hblock : ∀ block tx sender, (s.nativeRecord (blocks block) tx sender).block = block :=
    fun block _ _ => hnumber block
  refine ⟨hok, hcaught.lastBlock, fun id => ?_, added, hgrows, fun t ht => ?_⟩
  · refine (hids id).trans (or_congr_right ⟨?_, ?_⟩)
    · intro h
      obtain ⟨t, ⟨block, tx, recipient, sender, htx, hto, hwanted, hsender, rfl⟩, hfirst, hlast,
        rfl⟩ := h
      rw [hblock] at hfirst hlast
      exact ⟨block, tx, recipient, sender, htx, hto, hwanted, hsender, hfirst, hlast, rfl⟩
    · intro h
      obtain ⟨block, tx, recipient, sender, htx, hto, hwanted, hsender, hfirst, hlast, rfl⟩ := h
      refine ⟨_, ⟨block, tx, recipient, sender, htx, hto, hwanted, hsender, rfl⟩, ?_, ?_, rfl⟩
      · rwa [hblock]
      · rwa [hblock]
  · obtain ⟨⟨block, tx, recipient, sender, htx, hto, hwanted, hsender, rfl⟩, hfirst, hlast⟩ :=
      hadded t ht
    rw [hblock] at hfirst hlast
    refine ⟨block, tx, recipient, sender, htx, hto, hwanted, hsender, hfirst, hlast, ?_⟩
    rw [Scraper.nativeRecord, hnumber, hto]

/-- A scraper of transactions to the zero address, from block 10 on, whose scans look back by two
blocks. -/
def Scraper.sampleNative : Scraper where
  index := 1
  task := ⟨"mainnet", 1, "ETH", .native, 18, true, 5, 2, 10⟩
  node := 0
  recipients := [.zero 20]

theorem Surroundings.sample_number (n : UInt64) : (sample.chains.block 0 n).number = n := rfl

def Stream.sampleNative : Stream :=
  .native .sampleNative rfl (Surroundings.sample.chains.block 0) Surroundings.sample_number
    (· = .zero 20)

theorem Stream.sampleNative_begins : Stream.sampleNative.Begins 2 10 30 .sample where
  lastBlock := Checkpoints.height?_of_none (by decide)
  tuned :=
    { range := ⟨5, Checkpoints.height?_of_none (by decide), by decide⟩
      overlap := Checkpoints.height?_of_none (by decide)
      head := ⟨30, (Checkpoints.holds_put ..).height?, UInt64.le_refl _⟩ }
  view := ⟨fun _ => rfl, fun a => by simp [Scraper.sampleNative, Surroundings.sample, Store.empty]⟩
  guard := rfl

/-- After a tick that fails, the catch-up adds the transactions of the blocks from 8 to 29. -/
theorem Scraper.native_transfers_after_failed_tick :
    ∃ w₁, Scraper.sampleNative.Ticks (Stream.sampleNative.unreliable 2 30) .sample w₁ ∧
      (CatchUp.worker .sampleNative).Ends (Stream.sampleNative.reliable 2 30).Answers
        (fun _ w => w.store.checkpoints.Holds "last_block_mainnet_eth" 30 ∧
          ∀ id, id ∈ w.store.ledger.ids ↔
            ∃ block, 8 ≤ block ∧ block < 30 ∧ id = ⟨1, .sample block, 0⟩) w₁ := by
  have hrun := Scraper.tick_runs_of_failing_read (C := Stream.sampleNative.unreliable 2 30)
    (s := .sampleNative) (fun _ => trivial) (w := .sample) rfl (.reported "store unavailable" [])
  refine ⟨_, .tick .refl hrun, (Scraper.native_transfers_exactly_once rfl (fun _ => rfl)
    Stream.sampleNative_begins (.tick .refl hrun) (Checkpoints.holds_put ..).height? rfl).mono ?_⟩
  intro result w hends
  obtain ⟨-, hlast, hids, -⟩ := hends
  refine ⟨hlast, fun id => (hids id).trans ⟨?_, ?_⟩⟩
  · intro h
    rcases h with hid | ⟨block, tx, recipient, sender, htx, -, -, -, hfirst, hlast, rfl⟩
    · cases hid
    · obtain rfl := List.mem_singleton.mp htx
      exact ⟨block, hfirst, hlast, rfl⟩
  · intro h
    obtain ⟨block, hfirst, hlast, rfl⟩ := h
    exact .inr ⟨block, _, .zero 20, .zero 20, List.mem_singleton.mpr rfl, rfl, rfl, rfl, hfirst,
      hlast, rfl⟩

end ChainIngest
