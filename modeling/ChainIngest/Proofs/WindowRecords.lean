import ChainIngest.Proofs.LateTransfers

/-! The records of a window: the list that one reads off the chains, the whitelist and the task,
without running anything. A scan in which no call fails inserts this list, in its order. -/

namespace ChainIngest

/-- The numbers of the whole blocks of a window, in their order. -/
def Window.wholeBlocks (window : Window) : List UInt64 :=
  (List.range' window.first.toNat window.blockCount).map UInt64.ofNat

namespace Scraper

/-- Of each whole block, in its order, the transactions from known senders to recipients on the
whitelist. -/
def nativeRecords (s : Scraper) (w : Surroundings) (window : Window) : List Transfer :=
  window.wholeBlocks.flatMap fun number =>
    s.blockRecords (s.recipients ++ w.store.whitelist s.task.chainId)
      (w.chains.block s.node number)

/-- Of the logs that the node tells for the window, in their order, those that are transfer events
and tell where they stand. -/
def tokenRecords (s : Scraper) (contract : Address) (w : Surroundings) (window : Window) :
    List Transfer :=
  if window.isInverted then [] else
    (w.chains.logs s.node contract window.first window.last).filterMap fun log =>
      log.block.bind fun block => s.eventRecord? contract log (w.chains.blockTime s.node block)

/-- The records of a window. -/
def windowRecords (s : Scraper) (w : Surroundings) (window : Window) : List Transfer :=
  match s.task.asset with
  | .native => s.nativeRecords w window
  | .token contract => s.tokenRecords contract w window

variable {s : Scraper} {contract : Address} {w w' : Surroundings} {window : Window}

/-! ### What scans find -/

theorem blockNumbers_ofNat (count k : Nat) :
    blockNumbers count (.ofNat k) = (List.range' k count).map UInt64.ofNat := by
  induction count generalizing k with
  | zero => rfl
  | succ count ih =>
    have hnext : UInt64.ofNat k + 1 = .ofNat (k + 1) := (UInt64.ofNat_add k 1).symm
    rw [blockNumbers, hnext, ih, List.range'_succ, List.map_cons]

theorem blockNumbers_eq_wholeBlocks (window : Window) :
    blockNumbers window.blockCount window.first = window.wholeBlocks := by
  rw [Window.wholeBlocks, ← blockNumbers_ofNat, UInt64.ofNat_toNat]

/-- Which records a block has is a matter of who is a recipient, not of how the recipients are
listed. -/
theorem blockRecords_congr {recipients recipients' : List Address}
    (h : ∀ a, a ∈ recipients ↔ a ∈ recipients') (block : Block) :
    s.blockRecords recipients block = s.blockRecords recipients' block := by
  have hcontains : recipients.contains = recipients'.contains := by
    funext a
    simp [h]
  have hrecord : s.transactionRecord? recipients block = s.transactionRecord? recipients' block := by
    funext tx
    simp only [transactionRecord?, hcontains]
  rw [blockRecords, hrecord, blockRecords]

theorem FindsNative.eq_nativeRecords
    (H : s.FindsNative (w.chains.block s.node)
      (· ∈ s.recipients ++ w.store.whitelist s.task.chainId) window ts) :
    ts = s.nativeRecords w window := by
  obtain ⟨recipients, hmem, rfl⟩ := H
  rw [blockNumbers_eq_wholeBlocks, nativeRecords]
  simp only [blockRecords_congr hmem]

/-- If each block has one time then each log has one record, or none. -/
theorem ReadsLog.eq_eventRecord? {time : UInt64 → UInt64}
    (H : s.ReadsLog (fun block t => t = time block) contract log record?) :
    record? = log.block.bind fun block => s.eventRecord? contract log (time block) := by
  obtain ⟨t, ht, rfl⟩ := H
  cases hblock : log.block with
  | none => simp [eventRecord?, hblock]
  | some block => rw [ht block hblock, Option.bind_some]

theorem ReadsLogs.eq_filterMap {time : UInt64 → UInt64}
    (H : s.ReadsLogs (fun block t => t = time block) contract logs ts) :
    ts = logs.filterMap fun log =>
      log.block.bind fun block => s.eventRecord? contract log (time block) := by
  induction H with
  | nil => rfl
  | @cons log record? _ _ hread _ ih =>
    rw [List.filterMap_cons, ← hread.eq_eventRecord?, ← ih]
    cases record? <;> rfl

theorem FindsTokens.eq_tokenRecords
    (H : s.FindsTokens
      (fun first last logs => logs = w.chains.logs s.node contract first last)
      (fun block time => time = w.chains.blockTime s.node block) contract window ts) :
    ts = s.tokenRecords contract w window := by
  unfold FindsTokens at H
  unfold tokenRecords
  split at H
  · next hinverted => rw [H, if_pos hinverted]
  · next hproper =>
    obtain ⟨logs, rfl, hreads⟩ := H
    rw [if_neg hproper, hreads.eq_filterMap]

/-! ### What scans write -/

/-- While a scan goes on undisturbed, only the ledger changes. -/
theorem scans_undisturbed (mayFail : Engine.Query → Prop) (w : Surroundings) :
    (Conduct.undisturbed mayFail).Scans fun w' => ∃ l, w' = w.withLedger l where
  keeps := Conduct.undisturbed_keeps mayFail fun w' => ∃ l, w' = w.withLedger l
  ledger l := Conduct.undisturbed_keeps mayFail (·.store.ledger = l)
  insert l h := by
    obtain ⟨l₀, rfl⟩ := h
    exact ⟨l, rfl⟩

/-- The surroundings after records have been inserted, `emitted` of which were new. -/
def Wrote (w : Surroundings) (ts : List Transfer) (emitted : Nat) (w' : Surroundings) : Prop :=
  w' = w.withLedger (w.store.ledger.insertAll ts) ∧
    w'.store.ledger.rows.length = w.store.ledger.rows.length + emitted

theorem wrote_of_scanned {found : List Transfer → Prop}
    (H : Scanned (fun w' => ∃ l, w' = w.withLedger l) w.store.ledger 0 found n w')
    (hfound : ∀ us, found us → us = ts) : Wrote w ts n w' := by
  obtain ⟨us, hus, ⟨l, rfl⟩, hl, hn⟩ := H
  obtain rfl := hfound us hus
  obtain rfl : l = w.store.ledger.insertAll us := hl
  exact ⟨rfl, by omega⟩

theorem not_scanFailed {K : Surroundings → Prop}
    (H : ScanFailed (.undisturbed fun _ => False) K l found w) : False :=
  H.1.elim fun _ h => h

theorem scanNative_writes (s : Scraper) (window : Window) (w : Surroundings) :
    (s.scanNative window).Ensures (.undisturbed fun _ => False)
      (Wrote w (s.nativeRecords w window)) (fun _ _ => False) w := by
  refine (scanNative_ensures (scans_undisturbed (fun _ => False) w) ?_ ?_ window ⟨_, rfl⟩ rfl).mono
    (fun _ _ h => wrote_of_scanned h fun _ hts => FindsNative.eq_nativeRecords hts)
    fun _ _ => not_scanFailed
  · rintro _ ⟨l, rfl⟩ number
    rfl
  · rintro _ ⟨l, rfl⟩ a
    rfl

theorem scanToken_writes (s : Scraper) (contract : Address) (window : Window) (w : Surroundings) :
    (s.scanToken contract window).Ensures (.undisturbed fun _ => False)
      (Wrote w (s.tokenRecords contract w window)) (fun _ _ => False) w := by
  refine (scanToken_ensures (scans_undisturbed (fun _ => False) w) ?_ ?_ window ⟨_, rfl⟩ rfl).mono
    (fun _ _ h => wrote_of_scanned h fun _ hts => FindsTokens.eq_tokenRecords hts)
    fun _ _ => not_scanFailed
  · rintro _ ⟨l, rfl⟩ first last
    rfl
  · rintro _ ⟨l, rfl⟩ block
    rfl

theorem scanWindow_wrote (s : Scraper) (lastScanned head range overlap : UInt64)
    (w : Surroundings) :
    (s.scanWindow lastScanned head range overlap).Ensures (.undisturbed fun _ => False)
      (fun o w' => o.window = .compute lastScanned overlap range head ∧
        Wrote w (s.windowRecords w o.window) o.emitted w') (fun _ _ => False) w := by
  unfold scanWindow windowRecords
  cases s.task.asset with
  | native =>
    apply Action.Ensures.bind
    exact (scanNative_writes s _ w).mono (fun n w' h => .pure ⟨rfl, h⟩) fun _ _ h => h
  | token contract =>
    apply Action.Ensures.bind
    exact (scanToken_writes s contract _ w).mono (fun n w' h => .pure ⟨rfl, h⟩) fun _ _ h => h

theorem scanWindow_asks_nothing (hasset : s.task.asset = .token contract)
    (h : (Window.compute lastScanned overlap range head).isInverted) :
    (s.scanWindow lastScanned head range overlap).run.Asks fun _ => False := by
  simp only [scanWindow, hasset, scanToken, h, if_true]
  exact trivial

/-- A scan in which no call fails has no fault. It inserts the records of its window, in their
order, counts those that were not in the ledger, and changes nothing else. A token window that ends
below its start is not asked for. -/
theorem scanWindow_writes_windowRecords (s : Scraper) (lastScanned head range overlap : UInt64)
    (w : Surroundings) :
    ∃ window : Window, window.first.toNat = lastScanned.toNat - overlap.toNat ∧
      window.last.toNat =
        min (min (lastScanned.toNat + range.toNat) (UInt64.size - 1)) head.toNat ∧
      (s.scanWindow lastScanned head range overlap).Ensures (.undisturbed fun _ => False)
        (fun o w' => o.window = window ∧
          w' = w.withLedger (w.store.ledger.insertAll (s.windowRecords w window)) ∧
          w'.store.ledger.rows.length = w.store.ledger.rows.length + o.emitted)
        (fun _ _ => False) w ∧
      ∀ contract, s.task.asset = .token contract → window.last < window.first →
        (s.scanWindow lastScanned head range overlap).run.Asks fun _ => False := by
  refine ⟨.compute lastScanned overlap range head, by simp [Window.compute],
    by simp [Window.compute], ?_, ?_⟩
  · refine (scanWindow_wrote s lastScanned head range overlap w).mono ?_ fun _ _ h => h
    intro o w' h
    obtain ⟨hwindow, hwrote⟩ := h
    exact ⟨hwindow, hwindow ▸ hwrote⟩
  · exact fun contract hasset h => scanWindow_asks_nothing hasset (decide_eq_true h)

end Scraper

end ChainIngest
