import ChainIngest.Proofs.ExactlyOnce
import ChainIngest.Proofs.TickPlans

/-! Transfers that nodes show late. A window begins where the overlap looks back to, so a transfer
that lies no further back when it is first shown is found by the first window that reaches it,
wherever earlier windows have ended. -/

namespace ChainIngest

/-- What a transfer is seen by: a log, or a transaction of a block. -/
inductive Sighting where
  | log (log : EventLog)
  | transaction (tx : Transaction)

namespace Scraper

/-- Scans that look at block `b` meet a transfer: every answer for blocks around `b` has the log of
it, or the block has the transaction, which goes to a recipient on the whitelist. -/
def Meets (s : Scraper) (b : UInt64) (sighting : Sighting) (id : TransferId) (w : Surroundings) :
    Prop :=
  match s.task.asset, sighting with
  | .token contract, .log log =>
    (∃ index tx event, log.Shows b index tx event ∧ id = ⟨s.task.chainId, tx, index⟩) ∧
      ∀ first last, first ≤ b → b ≤ last → log ∈ w.chains.logs s.node contract first last
  | .native, .transaction tx =>
    (∃ recipient sender, tx.recipient = some recipient ∧ tx.sender = some sender ∧
      (recipient ∈ s.recipients ∨ (s.task.chainId, recipient) ∈ w.store.recipients)) ∧
      id = ⟨s.task.chainId, tx.hash, tx.position⟩ ∧ tx ∈ (w.chains.block s.node b).transactions
  | _, _ => False

/-- While a scan is under way `K` stays true, and a transfer that is in the ledger stays there. -/
structure Seeks (s : Scraper) (C : Conduct) (K : Surroundings → Prop) (id : TransferId) :
    Prop where
  scans : C.pact.Allows s.Scans K
  grows : C.Keeps (id ∈ ·.store.ledger.ids)

variable {s : Scraper} {C : Conduct} {K : Surroundings → Prop} {w : Surroundings} {id : TransferId}
  {b : UInt64}

namespace Seeks

theorem scans_found (H : s.Seeks C K id) :
    C.pact.Allows s.Scans fun w => K w ∧ id ∈ w.store.ledger.ids where
  stable h hrely := ⟨H.scans.stable h.1 hrely, Conduct.stable_pact H.grows h.2 hrely⟩
  answered _ _ hlive := hlive.elim
  keeps hq h hanswer := by
    obtain ⟨hguar, hK⟩ := H.scans.keeps hq h.1 hanswer
    refine ⟨hguar, hK, ?_⟩
    rcases hq.effect hanswer with heq | ⟨t, heq⟩
    · rw [heq]
      exact h.2
    · rw [heq]
      exact Ledger.mem_ids_insert.mpr (.inl h.2)

/-- Once a transfer has been found, a scan that goes on leaves it there. -/
theorem goOn {a : Action α} (H : s.Seeks C K id)
    (halike : a.Alike s.Scans True (fun _ _ => True) a) (hw : K w ∧ id ∈ w.store.ledger.ids) :
    a.Abides C.pact (fun _ w' => K w' ∧ id ∈ w'.store.ledger.ids) (fun _ => K) w :=
  (Action.Abides.of_asks (halike.asks fun _ => trivial) H.scans_found hw).mono (fun _ _ h => h)
    fun _ _ h => h.1

/-- A part of a scan that has not come to the transfer yet. -/
theorem quiet {a : Action α} {R : α → α → Prop} (H : s.Seeks C K id)
    (halike : a.Alike s.Scans True R a) (hw : K w) :
    a.Abides C.pact (fun _ => K) (fun _ => K) w :=
  Action.Abides.of_asks (halike.asks fun _ => trivial) H.scans hw

theorem insert (H : s.Seeks C K id) (hid : t.id = id) (hw : K w) :
    (Engine.insertTransfer t).Abides C.pact (fun _ w' => K w' ∧ id ∈ w'.store.ledger.ids)
      (fun _ => K) w := by
  have hquery : s.Scans (.insertTransfer t) := trivial
  refine .of_program (.query H.scans hquery hw) ?_ fun fault w' h => h.choose_spec.2.2
  intro added w' hanswered
  obtain ⟨w₁, -, hanswer, hK⟩ := hanswered
  rcases hanswer with ⟨-, hafter⟩ | ⟨-, fault, hfault⟩
  · refine ⟨hK, ?_⟩
    rw [hafter]
    exact Ledger.mem_ids_insert.mpr (.inr hid)
  · cases hfault

end Seeks

theorem scanLogs_finds {index : UInt64} (H : s.Seeks C K ⟨s.task.chainId, tx, index⟩)
    (hlog : log ∈ logs) (hshows : log.Shows b index tx event) (emitted : Nat) (hw : K w) :
    (s.scanLogs contract logs emitted).Abides C.pact
      (fun _ w' => K w' ∧ ⟨s.task.chainId, tx, index⟩ ∈ w'.store.ledger.ids) (fun _ => K) w := by
  induction logs generalizing emitted w with
  | nil => cases hlog
  | cons head rest ih =>
    rw [scanLogs]
    apply Action.Abides.bind
    rcases List.mem_cons.mp hlog with rfl | hlog
    -- This is the log: it has a record, which is in the ledger once it has been inserted.
    · have hrecord : (s.logRecord? contract log).Abides C.pact
          (fun record? w' => K w' ∧ ∃ t, record? = some t ∧
            t.id = ⟨s.task.chainId, tx, index⟩) (fun _ => K) w := by
        simp only [logRecord?, logRecordBy?, hshows.block, hshows.index, hshows.tx, hshows.event]
        cases log.timestamp with
        | some time => exact .bind (.pure (.pure ⟨hw, _, rfl, rfl⟩))
        | none =>
          apply Action.Abides.bind
          refine (H.quiet (.blockTime rfl) hw).mono ?_ fun _ _ h => h
          exact fun time w' hK => .pure ⟨hK, _, rfl, rfl⟩
      refine hrecord.mono ?_ fun _ _ h => h
      intro record? w' h
      obtain ⟨hK, t, rfl, hid⟩ := h
      apply Action.Abides.bind
      refine (H.insert hid hK).mono ?_ fun _ _ h => h
      exact fun added w' hfound => H.goOn (scanLogs_alike ..) hfound
    -- The log is still to come: it does not matter what becomes of this one.
    · refine (H.quiet (logRecord?_alike contract head) hw).mono ?_ fun _ _ h => h
      intro record? w' hK
      cases record? with
      | none => exact ih hlog emitted hK
      | some t =>
        apply Action.Abides.bind
        refine (H.quiet (.insertTransfer trivial) hK).mono ?_ fun _ _ h => h
        exact fun added w' hK => ih hlog _ hK

theorem scanTransactions_finds {tx : Transaction} {recipients : List Address}
    (H : s.Seeks C K ⟨s.task.chainId, tx.hash, tx.position⟩)
    (htx : tx ∈ txs) (hto : tx.recipient.any recipients.contains)
    (hsender : tx.sender = some sender) (block : Block) (emitted : Nat) (hw : K w) :
    (s.scanTransactions recipients block txs emitted).Abides C.pact
      (fun _ w' => K w' ∧ ⟨s.task.chainId, tx.hash, tx.position⟩ ∈ w'.store.ledger.ids)
      (fun _ => K) w := by
  induction txs generalizing emitted w with
  | nil => cases htx
  | cons head rest ih =>
    rw [scanTransactions]
    rcases List.mem_cons.mp htx with rfl | htx
    · rw [if_pos hto, hsender]
      apply Action.Abides.bind
      refine (H.insert rfl hw).mono ?_ fun _ _ h => h
      exact fun added w' hfound => H.goOn (scanTransactions_alike ..) hfound
    · split
      · cases head.sender with
        | none =>
          apply Action.Abides.bind
          refine (H.quiet (.tell ..) hw).mono ?_ fun _ _ h => h
          exact fun _ w' hK => ih htx emitted hK
        | some from_ =>
          apply Action.Abides.bind
          refine (H.quiet (.insertTransfer trivial) hw).mono ?_ fun _ _ h => h
          exact fun added w' hK => ih htx _ hK
      · exact ih htx emitted hw

theorem scanBlocks_finds {recipients : List Address} {recipient : Address} {tx : Transaction}
    (H : s.Seeks C K ⟨s.task.chainId, tx.hash, tx.position⟩)
    (htx : ∀ w, K w → tx ∈ (w.chains.block s.node b).transactions)
    (hto : tx.recipient = some recipient) (hmem : recipient ∈ recipients)
    (hsender : tx.sender = some sender) (hb : b ∈ blockNumbers count number) (emitted : Nat)
    (hw : K w) :
    (s.scanBlocks recipients count number emitted).Abides C.pact
      (fun _ w' => K w' ∧ ⟨s.task.chainId, tx.hash, tx.position⟩ ∈ w'.store.ledger.ids)
      (fun _ => K) w := by
  induction count generalizing number emitted w with
  | zero => cases hb
  | succ count ih =>
    rw [scanBlocks]
    apply Action.Abides.bind
    rcases List.mem_cons.mp hb with rfl | hb
    · have hquery : s.Scans (.block s.node b) := rfl
      refine .of_program (.query H.scans hquery hw) ?_ fun _ _ h => h.choose_spec.2.2
      intro block w' hanswered
      obtain ⟨w₁, hK₁, hanswer, hK⟩ := hanswered
      rcases hanswer with ⟨hblock, -⟩ | ⟨-, fault, hfault⟩
      · obtain rfl := Except.ok.inj hblock
        apply Action.Abides.bind
        have hrecipient : tx.recipient.any recipients.contains := by simp [hto, hmem]
        refine (scanTransactions_finds H (htx w₁ hK₁) hrecipient hsender _ emitted hK).mono ?_
          fun _ _ h => h
        exact fun _ w₂ hfound => H.goOn (scanBlocks_alike ..) hfound
      · cases hfault
    · refine (H.quiet (.block rfl) hw).mono ?_ fun _ _ h => h
      intro block w₁ hK
      apply Action.Abides.bind
      refine (H.quiet (scanTransactions_alike ..) hK).mono ?_ fun _ _ h => h
      exact fun emitted w₂ hK => ih hb emitted hK

theorem scanNative_finds {tx : Transaction}
    (H : s.Seeks C K ⟨s.task.chainId, tx.hash, tx.position⟩)
    (htx : ∀ w, K w → tx ∈ (w.chains.block s.node b).transactions)
    (hto : tx.recipient = some recipient) (hsender : tx.sender = some sender)
    (hwanted : ∀ w, K w →
      recipient ∈ s.recipients ∨ (s.task.chainId, recipient) ∈ w.store.recipients)
    (hcovers : window.Covers .native b) (hw : K w) :
    (s.scanNative window).Abides C.pact
      (fun _ w' => K w' ∧ ⟨s.task.chainId, tx.hash, tx.position⟩ ∈ w'.store.ledger.ids)
      (fun _ => K) w := by
  unfold scanNative allRecipients
  rw [bind_assoc]
  apply Action.Abides.bind
  have hquery : s.Scans (.whitelist s.task.chainId) := rfl
  refine .of_program (.query H.scans hquery hw) ?_ fun _ _ h => h.choose_spec.2.2
  intro stored w' hanswered
  obtain ⟨w₁, hK₁, hanswer, hK⟩ := hanswered
  rcases hanswer with ⟨hstored, -⟩ | ⟨-, fault, hfault⟩
  · obtain rfl := Except.ok.inj hstored
    have hmem : recipient ∈ s.recipients ++ w₁.store.whitelist s.task.chainId :=
      List.mem_append.mpr ((hwanted w₁ hK₁).imp_right Store.mem_whitelist.mpr)
    have hsome : (s.recipients ++ w₁.store.whitelist s.task.chainId).isEmpty = false :=
      List.isEmpty_eq_false_iff.mpr (List.ne_nil_of_mem hmem)
    rw [pure_bind, hsome, if_neg Bool.false_ne_true]
    exact scanBlocks_finds H htx hto hmem hsender (mem_blockNumbers_window.mpr hcovers) 0 hK
  · cases hfault

theorem scanToken_finds {index : UInt64} (H : s.Seeks C K ⟨s.task.chainId, tx, index⟩)
    (hshows : log.Shows b index tx event)
    (hlog : ∀ w, K w → ∀ first last, first ≤ b → b ≤ last →
      log ∈ w.chains.logs s.node contract first last)
    (hcovers : window.Covers (.token contract) b) (hw : K w) :
    (s.scanToken contract window).Abides C.pact
      (fun _ w' => K w' ∧ ⟨s.task.chainId, tx, index⟩ ∈ w'.store.ledger.ids) (fun _ => K) w := by
  unfold scanToken
  split
  · next hinverted => exact absurd hcovers (Window.not_covers_of_isInverted hinverted)
  · apply Action.Abides.bind
    have hquery : s.Scans (.transferLogs s.node contract window.first window.last) := rfl
    refine .of_program (.query H.scans hquery hw) ?_ fun _ _ h => h.choose_spec.2.2
    intro logs w' hanswered
    obtain ⟨w₁, hK₁, hanswer, hK⟩ := hanswered
    rcases hanswer with ⟨hlogs, -⟩ | ⟨-, fault, hfault⟩
    · obtain rfl := Except.ok.inj hlogs
      exact scanLogs_finds H (hlog w₁ hK₁ _ _ hcovers.1 hcovers.2) hshows 0 hK
    · cases hfault

/-- A scan of a window that covers a transfer's block finds the transfer. -/
theorem scanWindow_finds (H : s.Seeks C K id) (hmeets : ∀ w, K w → s.Meets b sighting id w)
    (hcovers : (Window.compute c overlap range head).Covers s.task.asset b) (hw : K w) :
    (s.scanWindow c head range overlap).Abides C.pact
      (fun o w' => o.window = .compute c overlap range head ∧ K w' ∧ id ∈ w'.store.ledger.ids)
      (fun _ => K) w := by
  unfold scanWindow
  unfold Meets at hmeets
  cases hasset : s.task.asset with
  | native =>
    cases sighting with
    | log log => simp only [hasset] at hmeets; exact (hmeets w hw).elim
    | transaction tx =>
      simp only [hasset] at hmeets hcovers ⊢
      obtain ⟨⟨recipient, sender, hto, hsender, -⟩, rfl, -⟩ := hmeets w hw
      apply Action.Abides.bind
      refine (scanNative_finds H (fun w hw => (hmeets w hw).2.2) hto hsender ?_ hcovers hw).mono
        ?_ fun _ _ h => h
      · intro w hw
        obtain ⟨⟨recipient', -, hto', -, hwanted⟩, -, -⟩ := hmeets w hw
        rw [hto, Option.some.injEq] at hto'
        exact hto' ▸ hwanted
      · exact fun _ w' hfound => .pure ⟨rfl, hfound⟩
  | token contract =>
    cases sighting with
    | transaction tx => simp only [hasset] at hmeets; exact (hmeets w hw).elim
    | log log =>
      simp only [hasset] at hmeets hcovers ⊢
      obtain ⟨⟨index, tx, event, hshows, rfl⟩, -⟩ := hmeets w hw
      apply Action.Abides.bind
      refine (scanToken_finds H hshows (fun w hw => (hmeets w hw).2) hcovers hw).mono ?_
        fun _ _ h => h
      exact fun _ w' hfound => .pure ⟨rfl, hfound⟩

/-- The last block stands at `c`, and a transfer that scans of block `b` meet is in the ledger, or
the next window begins no later than at its block. -/
structure Awaits (s : Scraper) (b : UInt64) (sighting : Sighting) (id : TransferId)
    (overlap c : UInt64) (w : Surroundings) : Prop where
  lastBlock : w.height? s.task.lastBlockKey s.task.startBlock = some c
  lookback : w.height? s.task.overlapKey s.task.overlap = some overlap
  meets : s.Meets b sighting id w
  ahead : id ∈ w.store.ledger.ids ∨ Height.subFloored c overlap ≤ b

end Scraper

/-- Others leave the last block and the overlap of a scraper alone, keep a transfer in sight of its
scans, and take nothing from the ledger. -/
structure Conduct.Shows (C : Conduct) (s : Scraper) (b : UInt64) (sighting : Sighting)
    (id : TransferId) (overlap : UInt64) : Prop where
  lastBlock : ∀ text?, C.Keeps (·.store.checkpoints.get? s.task.lastBlockKey = text?)
  lookback : C.Keeps (·.height? s.task.overlapKey s.task.overlap = some overlap)
  meets : C.Keeps (s.Meets b sighting id)
  grows : C.Keeps (id ∈ ·.store.ledger.ids)

namespace Scraper

variable {s : Scraper} {C : Conduct} {w w' : Surroundings} {id : TransferId} {sighting : Sighting}
  {b c overlap : UInt64}

theorem Meets.congr (H : s.Meets b sighting id w) (hchains : w'.chains = w.chains)
    (hrecipients : w'.store.recipients = w.store.recipients) : s.Meets b sighting id w' := by
  unfold Meets at H ⊢
  rw [hchains, hrecipients]
  exact H

namespace Awaits

theorem keeps (hC : C.Shows s b sighting id overlap) :
    C.Keeps (s.Awaits b sighting id overlap c) := by
  intro w w' H hdrift
  refine ⟨?_, hC.lookback H.lookback hdrift, hC.meets H.meets hdrift, ?_⟩
  · exact (Checkpoints.height?_congr (hC.lastBlock _ rfl hdrift)).trans H.lastBlock
  · exact H.ahead.imp_left fun hid => hC.grows hid hdrift

theorem withLedger (H : s.Awaits b sighting id overlap c w) (t : Transfer) :
    s.Awaits b sighting id overlap c (w.withLedger (w.store.ledger.insert t).2) :=
  ⟨H.lastBlock, H.lookback, H.meets.congr rfl rfl,
    H.ahead.imp_left fun hid => Ledger.mem_ids_insert.mpr (.inl hid)⟩

theorem afterRead (H : s.Awaits b sighting id overlap c w) (h : (key, initial) ∈ s.task.readings) :
    s.Awaits b sighting id overlap c (w.afterRead key initial) := by
  have hadmits : s.task.Admits key initial := ScanTask.admits_of_mem h
  refine ⟨?_, ?_, H.meets.congr rfl rfl, H.ahead⟩
  · rw [height?_afterRead ScanTask.lastBlock_mem hadmits]
    exact H.lastBlock
  · rw [height?_afterRead ScanTask.overlap_mem hadmits]
    exact H.lookback

theorem afterWrite (H : s.Awaits b sighting id overlap c w) {c' : UInt64}
    (hahead : id ∈ w.store.ledger.ids ∨ Height.subFloored c' overlap ≤ b) :
    s.Awaits b sighting id overlap c' (w.afterWrite s.task.lastBlockKey c') := by
  refine ⟨(Checkpoints.holds_put ..).height?, ?_, H.meets.congr rfl rfl, hahead⟩
  rw [height?_afterWrite ScanTask.lastBlockKey_ne_overlapKey.symm]
  exact H.lookback

theorem withGuard (H : s.Awaits b sighting id overlap c w) (guard : Guard) (isHeld : Bool) :
    s.Awaits b sighting id overlap c (w.withGuard guard isHeld) :=
  ⟨H.lastBlock, H.lookback, H.meets.congr rfl rfl, H.ahead⟩

theorem scans (hC : C.Shows s b sighting id overlap) :
    C.pact.Allows s.Scans (s.Awaits b sighting id overlap c) :=
  allows_scans (keeps hC) fun t H => H.withLedger t

theorem seeks (hC : C.Shows s b sighting id overlap) :
    s.Seeks C (s.Awaits b sighting id overlap c) id :=
  ⟨scans hC, hC.grows⟩

theorem plansUnder (hC : C.Shows s b sighting id overlap) :
    s.PlansUnder C.pact (fun w => w) (s.Awaits b sighting id overlap c) fun _ => True :=
  plansUnder_conduct (keeps hC) fun hmem H => H.afterRead hmem

/-- A window that reaches the transfer's block covers it, unless the transfer has been found. -/
theorem covers (H : s.Awaits b sighting id overlap c w)
    (hreach : s.task.asset.Reaches (Window.compute c overlap range head).last b) :
    id ∈ w.store.ledger.ids ∨ (Window.compute c overlap range head).Covers s.task.asset b :=
  H.ahead.imp_right fun hfirst => ⟨hfirst, hreach⟩

/-- If the window does not cover the transfer's block then it ends before it, and the next window
begins no later than at the block. -/
theorem ahead_next (H : s.Awaits b sighting id overlap c w)
    (hfound : (Window.compute c overlap range head).Covers s.task.asset b →
      id ∈ w.store.ledger.ids) :
    id ∈ w.store.ledger.ids ∨
      Height.subFloored (max (Window.compute c overlap range head).last c) overlap ≤ b := by
  by_cases hreach : s.task.asset.Reaches (Window.compute c overlap range head).last b
  · exact .inl ((H.covers hreach).elim (fun hid => hid) hfound)
  -- The window ends no later than at the block, and from `c` the overlap looks back to it already.
  · refine H.ahead.imp_right fun hfirst => ?_
    have hlast : (Window.compute c overlap range head).last ≤ b :=
      UInt64.not_lt.mp (mt Asset.Reaches.of_lt hreach)
    rw [UInt64.le_iff_toNat_le] at hfirst hlast ⊢
    simp only [Height.toNat_subFloored, Height.toNat_max] at hfirst ⊢
    omega

end Awaits

/-- The last block stands at `c`, and if `found` then the transfer is in the ledger. -/
def AwaitsIf (s : Scraper) (b : UInt64) (sighting : Sighting) (id : TransferId)
    (overlap c : UInt64) (found : Prop) (w : Surroundings) : Prop :=
  s.Awaits b sighting id overlap c w ∧ (found → id ∈ w.store.ledger.ids)

theorem AwaitsIf.keeps (hC : C.Shows s b sighting id overlap) :
    C.Keeps (s.AwaitsIf b sighting id overlap c found) :=
  fun H hdrift => ⟨Awaits.keeps hC H.1 hdrift, fun h => hC.grows (H.2 h) hdrift⟩

/-- What a tick leaves behind that began with the last block at `c`. -/
def AwaitsAfter (s : Scraper) (b : UInt64) (sighting : Sighting) (id : TransferId)
    (overlap c : UInt64) : Except Fault TickOutcome → Surroundings → Prop
  | .ok o => s.AwaitsIf b sighting id overlap o.lastScanned (s.task.asset.Reaches o.window.last b)
  | .error _ => s.Awaits b sighting id overlap c

theorem AwaitsAfter.keeps (hC : C.Shows s b sighting id overlap)
    (result : Except Fault TickOutcome) :
    C.Keeps (s.AwaitsAfter b sighting id overlap c result) := by
  cases result with
  | ok o => exact AwaitsIf.keeps hC
  | error fault => exact Awaits.keeps hC

theorem AwaitsAfter.withGuard {result : Except Fault TickOutcome}
    (H : s.AwaitsAfter b sighting id overlap c result w) (guard : Guard) (isHeld : Bool) :
    s.AwaitsAfter b sighting id overlap c result (w.withGuard guard isHeld) := by
  cases result with
  | ok o => exact ⟨H.1.withGuard guard isHeld, H.2⟩
  | error fault => exact Awaits.withGuard H guard isHeld

theorem scanWindow_awaits {p : Plan} (hC : C.Shows s b sighting id overlap)
    (hp : s.Planned (fun w => w) (s.Awaits b sighting id overlap c) p)
    (hw : s.Awaits b sighting id overlap c w) :
    (s.scanWindow p.lastScanned p.head p.range p.overlap).Abides C.pact
      (fun o w' => o.window = .compute c overlap p.range p.head ∧
        s.AwaitsIf b sighting id overlap c (o.window.Covers s.task.asset b) w')
      (fun _ => s.Awaits b sighting id overlap c) w := by
  obtain ⟨w₁, hw₁, hoverlap⟩ := hp.overlap
  obtain ⟨w₂, hw₂, hlast⟩ := hp.lastScanned
  obtain rfl := Option.some.inj (hw₁.lookback.symm.trans hoverlap)
  obtain rfl := Option.some.inj (hw₂.lastBlock.symm.trans hlast)
  by_cases hcovers :
      (Window.compute p.lastScanned p.overlap p.range p.head).Covers s.task.asset b
  · refine (scanWindow_finds (Awaits.seeks hC) (fun _ hw => hw.meets) hcovers hw).mono ?_
      fun _ _ h => h
    exact fun o w' h => ⟨h.1, h.2.1, fun _ => h.2.2⟩
  · have hscans := Awaits.scans (c := p.lastScanned) hC
    refine (scanWindow_keeps hscans _ _ _ _ hw).mono ?_ fun _ _ h => h
    exact fun o w' h => ⟨h.1, h.2, fun hcov => absurd (h.1 ▸ hcov) hcovers⟩

/-- One tick: if it succeeds with a window that reaches the transfer's block then the transfer is in
the ledger, and if not then the next window begins no later than at the block. -/
theorem tickHeld_awaits (hC : C.Shows s b sighting id overlap)
    (hw : s.Awaits b sighting id overlap c w) :
    s.tickHeld.run.Abides C.pact (s.AwaitsAfter b sighting id overlap c) w := by
  have hscans := Awaits.scans (c := c) hC
  apply Action.Abides.of_results
  rw [tickHeld_eq]
  apply Action.Abides.bind
  refine ((Awaits.plansUnder hC).readPlan_abides hw).mono ?_ fun _ _ h => h.1
  intro p w₁ hplan
  obtain ⟨hw₁, hp, -⟩ := hplan
  obtain ⟨w₂, hw₂, hlast⟩ := hp.lastScanned
  obtain rfl := Option.some.inj (hw₂.lastBlock.symm.trans hlast)
  apply Action.Abides.bind
  refine (scanWindow_awaits hC hp hw₁).mono ?_ fun _ _ h => h
  intro o w₃ hscanned
  obtain ⟨hwindow, hmid⟩ := hscanned
  have hreach : ∀ w, s.AwaitsIf b sighting id overlap p.lastScanned
      (o.window.Covers s.task.asset b) w →
      s.task.asset.Reaches o.window.last b → id ∈ w.store.ledger.ids := by
    intro w hmid h
    rw [hwindow] at h
    exact (hmid.1.covers h).elim (fun hid => hid) (hwindow ▸ hmid.2)
  refine (advance_abides C.pact_over (Conduct.stable_pact (AwaitsIf.keeps hC)) hmid
    (D := s.AwaitsIf b sighting id overlap (p.next o) (s.task.asset.Reaches o.window.last b))
    ?_ ?_ ?_ ?_ ?_).mono ?_ fun _ _ h => h
  · intro hstays w hmid
    refine ⟨?_, hreach w hmid⟩
    rw [hstays]
    exact hmid.1
  · exact fun _ _ _ _ _ => trivial
  · intro w answer w' hmid _ hworld
    subst hworld
    refine ⟨hmid.1.afterWrite ?_, hreach w hmid⟩
    rw [Plan.next, hwindow]
    exact hmid.1.ahead_next (hwindow ▸ hmid.2)
  · exact fun w w' fault hmid hanswer => hanswer.of_failed_write ▸ hmid.1
  · exact Conduct.allows_tells (AwaitsIf.keeps hC)
  · intro o' w' h
    obtain ⟨rfl, hdone⟩ := h
    exact hdone

/-- A tick does beside others what it does once it has the guard, if the guard does not matter. -/
theorem tick_of_tickHeld {K : Surroundings → Prop}
    {post : Except Fault TickOutcome → Surroundings → Prop} (keeps : C.Keeps K)
    (keepsPost : ∀ result, C.Keeps (post result))
    (guarded : ∀ {w isHeld}, K w → K (w.withGuard s.guard isHeld))
    (guardedPost : ∀ {result w isHeld}, post result w → post result (w.withGuard s.guard isHeld))
    (body : ∀ {w}, K w → s.tickHeld.run.Abides C.pact post w) (hw : K w) :
    s.tick.run.Abides C.pact post w := by
  refine Program.Abides.guarded post (Conduct.stable_pact keeps) hw (fun _ _ hlive => hlive.elim)
    ?_ (fun result => Conduct.stable_pact (keepsPost result)) (fun _ _ _ hlive => hlive.elim) ?_
  · intro w w' hw hacquired
    refine ⟨trivial, body ?_⟩
    rcases hacquired with ⟨-, rfl⟩ | ⟨rfl, -⟩
    · exact guarded hw
    · exact hw
  · intro result w w' hpost hreleased
    refine ⟨trivial, ?_⟩
    rcases hreleased with rfl | ⟨rfl, -⟩
    · exact guardedPost hpost
    · exact hpost

theorem tick_awaits (hC : C.Shows s b sighting id overlap)
    (hw : s.Awaits b sighting id overlap c w) :
    s.tick.run.Abides C.pact (s.AwaitsAfter b sighting id overlap c) w :=
  tick_of_tickHeld (Awaits.keeps hC) (AwaitsAfter.keeps hC) (fun h => h.withGuard _ _)
    (fun h => h.withGuard _ _) (tickHeld_awaits hC) hw

/-- Ticks, whether they fail or not, leave the transfer found or ahead. -/
theorem Ticks.awaits (hC : C.Shows s b sighting id overlap)
    (hw : s.Awaits b sighting id overlap c w) (hticks : s.Ticks C w w') :
    ∃ c', s.Awaits b sighting id overlap c' w' := by
  induction hticks with
  | refl => exact ⟨c, hw⟩
  | @tick w₁ result w₂ _ hrun ih =>
    obtain ⟨c', hw₁⟩ := ih
    have hafter := Conduct.of_runs (tick_awaits hC hw₁) hrun
    cases result with
    | error fault => exact ⟨c', hafter⟩
    | ok o => exact ⟨o.lastScanned, hafter.1⟩
  | drift _ hdrift ih =>
    obtain ⟨c', hw₁⟩ := ih
    exact ⟨c', Awaits.keeps hC hw₁ hdrift⟩

/-- A transfer that is shown from some tick on, no further back than that tick's window begins, is
in the ledger once a tick has succeeded whose window reaches the transfer's block: however many
ticks have failed before, and wherever the heads have been. -/
theorem late_transfer_found (hC : C.Shows s b sighting id overlap)
    (hlast : w.height? s.task.lastBlockKey s.task.startBlock = some c)
    (hoverlap : w.height? s.task.overlapKey s.task.overlap = some overlap)
    (hmeets : s.Meets b sighting id w) (hb : Height.subFloored c overlap ≤ b)
    (hticks : s.Ticks C w w₁) (hrun : s.tick.run.Runs C.Answers w₁ (.ok o) w₂)
    (hreach : s.task.asset.Reaches o.window.last b) : id ∈ w₂.store.ledger.ids := by
  obtain ⟨c', hw₁⟩ := hticks.awaits hC ⟨hlast, hoverlap, hmeets, .inr hb⟩
  exact (Conduct.of_runs (tick_awaits hC hw₁) hrun).2 hreach

end Scraper

/-- Nobody else does anything. -/
def Conduct.undisturbed (mayFail : Engine.Query → Prop) : Conduct where
  mayFail
  drift := Eq
  drift_refl _ := rfl

/-- What nobody else does anything to stays. -/
theorem Conduct.undisturbed_keeps (mayFail : Engine.Query → Prop) (K : Surroundings → Prop) :
    (Conduct.undisturbed mayFail).Keeps K := fun hK hdrift => hdrift ▸ hK

/-- What happens when no call fails may happen when some may. -/
theorem Conduct.undisturbed_runs {p : Program Engine α} (mayFail : Engine.Query → Prop)
    (H : p.Runs (Conduct.undisturbed fun _ => False).Answers w value w') :
    p.Runs (Conduct.undisturbed mayFail).Answers w value w' := by
  refine H.mono fun w q answer w' hanswer => ?_
  obtain ⟨w₁, hdrift, h⟩ := hanswer
  exact ⟨w₁, hdrift, h.imp_right fun h => h.1.elim⟩

theorem Stream.sampleToken_spared (mayFail : Engine.Query → Prop) :
    (Conduct.undisturbed mayFail).Spares Stream.sampleToken.scraper ⟨2, (· = 30)⟩ where
  ledger _ _ _ h hdrift := hdrift ▸ h
  guard _ _ _ h hdrift := hdrift ▸ h
  lastBlock _ _ _ h hdrift := hdrift ▸ h
  tuned h hdrift := hdrift ▸ h

theorem Stream.sampleToken_aside (mayFail : Engine.Query → Prop) :
    Stream.sampleToken.scraper.Aside (Conduct.undisturbed mayFail)
      fun w => Stream.sampleToken.view w.chains w.store.recipients :=
  .of_unwritten (K := fun chains recipients _ => Stream.sampleToken.view chains recipients)
    fun h hdrift => hdrift ▸ h

theorem Stream.sampleToken_stands :
    Stream.sampleToken.scraper.Stands ⟨2, (· = 30)⟩
      (fun w => Stream.sampleToken.view w.chains w.store.recipients) 10 false false .sample where
  aside := Stream.sampleToken_begins.view
  guard := rfl
  tuned := ⟨Stream.sampleToken_begins.tuned.range, Stream.sampleToken_begins.tuned.overlap, 30,
    (Checkpoints.holds_put ..).height?, rfl⟩
  lastBlock := Stream.sampleToken_begins.lastBlock
  stored := nofun

/-- A tick in which no call fails scans to block 9 or further and stores the last block. -/
theorem Scraper.sampleToken_ticks (hw : Stream.sampleToken.scraper.Stands ⟨2, (· = 30)⟩
    (fun w => Stream.sampleToken.view w.chains w.store.recipients) 10 false false w) :
    ∃ o w', Scraper.sampleToken.tick.run.Runs (Conduct.undisturbed fun _ => False).Answers w
      (.ok o) w' ∧ 9 ≤ o.window.last ∧
      w'.store.checkpoints.Holds Scraper.sampleToken.task.lastBlockKey o.lastScanned := by
  have hensures := Stream.tick_ensures (Stream.sampleToken_spared fun _ => False)
    (Stream.sampleToken_aside fun _ => False) (fun _ h => h) hw rfl
  obtain ⟨result, w', hrun, hpost⟩ := hensures.run.exists_runs
  cases result with
  | error fault => exact hpost.fallible.elim fun _ h => h.elim
  | ok o =>
    refine ⟨o, w', hrun, ?_, ?_⟩
    · obtain ⟨range, -, hwindow⟩ := hpost.window
      have hhead : o.head = 30 := hpost.head
      rw [hwindow, hhead, UInt64.le_iff_toNat_le]
      simp only [Window.compute, Height.toNat_min, Height.toNat_addCapped]
      have h : (9 : UInt64).toNat = 9 ∧ (10 : UInt64).toNat = 10 ∧ (30 : UInt64).toNat = 30 :=
        ⟨rfl, rfl, rfl⟩
      have hsize : UInt64.size - 1 ≥ 10 := by decide
      omega
    · obtain ⟨ts, -, hw', -, -⟩ := hpost.scanned
      exact hw'.stored rfl

theorem Scraper.sampleToken_meets :
    Scraper.sampleToken.Meets 9 (.log (.sample 9)) ⟨1, .sample 9, 0⟩ .sample := by
  refine ⟨⟨0, .sample 9, _, EventLog.sample_shows 9, rfl⟩, fun first last hfirst hlast => ?_⟩
  simp only [Surroundings.sample, List.mem_map, List.mem_filter]
  exact ⟨9, ⟨by simp, by simp [hfirst, hlast]⟩, rfl⟩

/-- The scraper stands at block 10. The log of block 9 is found by the tick after one that fails. -/
theorem Scraper.late_transfer_found_after_failed_tick :
    ∃ w₁ o w₂, Scraper.sampleToken.Ticks (Conduct.undisturbed fun _ => True) .sample w₁ ∧
      Scraper.sampleToken.tick.run.Runs (Conduct.undisturbed fun _ => True).Answers w₁ (.ok o) w₂ ∧
      9 ≤ o.window.last ∧ (⟨1, .sample 9, 0⟩ : TransferId) ∈ w₂.store.ledger.ids := by
  have hfailed := Scraper.tick_runs_of_failing_read (C := Conduct.undisturbed fun _ => True)
    (s := .sampleToken) (fun _ => trivial) (w := .sample) rfl (.reported "store unavailable" [])
  have haside := Stream.sampleToken_aside fun _ => True
  have hstands := (Stream.sampleToken_stands.withGuard haside true).withGuard haside false
  obtain ⟨o, w₂, hclean, hlast, -⟩ := Scraper.sampleToken_ticks hstands
  have hrun := Conduct.undisturbed_runs (fun _ => True) hclean
  refine ⟨_, o, w₂, .tick .refl hfailed, hrun, hlast, ?_⟩
  have hshows : (Conduct.undisturbed fun _ => True).Shows .sampleToken 9 (.log (.sample 9))
      ⟨1, .sample 9, 0⟩ 2 :=
    ⟨fun _ _ _ h hdrift => hdrift ▸ h, fun h hdrift => hdrift ▸ h, fun h hdrift => hdrift ▸ h,
      fun h hdrift => hdrift ▸ h⟩
  exact Scraper.late_transfer_found hshows Stream.sampleToken_begins.lastBlock
    Stream.sampleToken_begins.tuned.overlap Scraper.sampleToken_meets (by decide)
    (.tick .refl hfailed) hrun hlast

end ChainIngest
