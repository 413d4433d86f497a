import ChainIngest.Proofs.WindowRecords

/-! Scrapers that have caught up. The next window lies within the one that has brought the last
block to the head, so all that it finds is in the ledger; another tick adds nothing and leaves
everything as it is. -/

namespace ChainIngest

/-- Once the last block is at the head, the next window covers no block that this one has not. -/
theorem Window.covers_of_next {c overlap range head block : UInt64} {a : Asset}
    (h : head ≤ max (compute c overlap range head).last c)
    (hcovers : (compute (max (compute c overlap range head).last c) overlap range head).Covers a
      block) : (compute c overlap range head).Covers a block := by
  have hfirst : (compute c overlap range head).first ≤
      (compute (max (compute c overlap range head).last c) overlap range head).first :=
    Height.subFloored_mono (Height.le_max_right ..) overlap
  refine ⟨UInt64.le_trans hfirst hcovers.1, ?_⟩
  rw [compute_last_eq h]
  exact hcovers.2.mono compute_last_le

namespace Scraper

variable {s : Scraper} {C : Conduct} {w w' w₀ : Surroundings} {known : List (String × UInt64)}

/-! ### Records of smaller windows -/

/-- The node of a token task answers every query for logs from the same logs. -/
def TellsLogs (s : Scraper) (w : Surroundings) : Prop :=
  ∀ contract, s.task.asset = .token contract → ∃ logs, ∀ first last,
    AnswersLogs logs first last (w.chains.logs s.node contract first last)

theorem mem_nativeRecords : t ∈ s.nativeRecords w window ↔
    ∃ number, window.Covers .native number ∧
      t ∈ s.blockRecords (s.recipients ++ w.store.whitelist s.task.chainId)
        (w.chains.block s.node number) := by
  simp only [nativeRecords, List.mem_flatMap, ← blockNumbers_eq_wholeBlocks,
    mem_blockNumbers_window]

/-- The records of a token window are those of the logs in its blocks. -/
theorem mem_tokenRecords {logs : EventLog → Prop}
    (hlogs : ∀ first last, AnswersLogs logs first last (w.chains.logs s.node contract first last)) :
    t ∈ s.tokenRecords contract w window ↔
      ∃ log block, logs log ∧ log.block = some block ∧ window.Covers (.token contract) block ∧
        s.eventRecord? contract log (w.chains.blockTime s.node block) = some t := by
  unfold tokenRecords
  split
  · next hinverted =>
    simp [Window.not_covers_of_isInverted hinverted]
  · simp only [List.mem_filterMap, Option.bind_eq_some_iff]
    constructor
    · rintro ⟨log, hmem, block, hblock, hrecord⟩
      obtain ⟨hlog, hcovers⟩ := (hlogs _ _ log block hblock).mp hmem
      exact ⟨log, block, hlog, hblock, hcovers, hrecord⟩
    · rintro ⟨log, block, hlog, hblock, hcovers, hrecord⟩
      exact ⟨log, (hlogs _ _ log block hblock).mpr ⟨hlog, hcovers⟩, block, hblock, hrecord⟩

/-- A window that covers less has no other records. -/
theorem mem_windowRecords_mono {window window' : Window} (hnode : s.TellsLogs w)
    (h : ∀ block, window'.Covers s.task.asset block → window.Covers s.task.asset block)
    (ht : t ∈ s.windowRecords w window') : t ∈ s.windowRecords w window := by
  unfold windowRecords at ht ⊢
  cases hasset : s.task.asset with
  | native =>
    simp only [hasset, mem_nativeRecords] at ht h ⊢
    obtain ⟨number, hcovers, ht⟩ := ht
    exact ⟨number, h number hcovers, ht⟩
  | token contract =>
    obtain ⟨logs, hlogs⟩ := hnode contract hasset
    simp only [hasset, mem_tokenRecords hlogs] at ht h ⊢
    obtain ⟨log, block, hlog, hblock, hcovers, hrecord⟩ := ht
    exact ⟨log, block, hlog, hblock, h block hcovers, hrecord⟩

/-- A record of a window is one that scans of a block in the window meet. -/
theorem exists_meets {window : Window} (hnode : s.TellsLogs w) (ht : t ∈ s.windowRecords w window) :
    ∃ block sighting, window.Covers s.task.asset block ∧ s.Meets block sighting t.id w := by
  unfold windowRecords at ht
  unfold Meets
  cases hasset : s.task.asset with
  | native =>
    simp only [hasset, mem_nativeRecords] at ht ⊢
    obtain ⟨number, hcovers, ht⟩ := ht
    obtain ⟨tx, recipient, sender, htx, hto, hwanted, hsender, rfl⟩ :=
      (mem_blockRecords fun _ => .rfl).mp ht
    rw [List.mem_append, Store.mem_whitelist] at hwanted
    exact ⟨number, .transaction tx, hcovers, ⟨recipient, sender, hto, hsender, hwanted⟩, rfl, htx⟩
  | token contract =>
    obtain ⟨logs, hlogs⟩ := hnode contract hasset
    simp only [hasset, mem_tokenRecords hlogs] at ht ⊢
    obtain ⟨log, block, hlog, hblock, hcovers, hrecord⟩ := ht
    obtain ⟨block', index, tx, event, hshows, rfl⟩ := eventRecord?_eq_some_iff.mp hrecord
    obtain rfl := Option.some.inj (hshows.block.symm.trans hblock)
    exact ⟨block', .log log, hcovers, ⟨index, tx, event, hshows, rfl⟩, fun first last hfirst hlast =>
      (hlogs first last log block' hblock).mpr ⟨hlog, hfirst, hlast⟩⟩

/-! ### What others leave alone -/

/-- A scraper's node tells the same, and the same recipients are stored for its chain. -/
structure SeesAlike (s : Scraper) (w w' : Surroundings) : Prop where
  block : w'.chains.block s.node = w.chains.block s.node
  blockTime : w'.chains.blockTime s.node = w.chains.blockTime s.node
  logs : w'.chains.logs s.node = w.chains.logs s.node
  whitelist : w'.store.whitelist s.task.chainId = w.store.whitelist s.task.chainId

/-- The checkpoints of a scraper and what it sees are left as they are, and nothing is taken from
the ledger. -/
structure LeavesBe (s : Scraper) (w w' : Surroundings) : Prop extends s.SeesAlike w w' where
  text : ∀ {key initial}, (key, initial) ∈ s.task.readings →
    w'.store.checkpoints.get? key = w.store.checkpoints.get? key
  ids : ∀ id ∈ w.store.ledger.ids, id ∈ w'.store.ledger.ids

namespace SeesAlike

theorem refl (s : Scraper) (w : Surroundings) : s.SeesAlike w w := ⟨rfl, rfl, rfl, rfl⟩

theorem trans (H : s.SeesAlike w₀ w) (H' : s.SeesAlike w w') : s.SeesAlike w₀ w' :=
  ⟨H'.block.trans H.block, H'.blockTime.trans H.blockTime, H'.logs.trans H.logs,
    H'.whitelist.trans H.whitelist⟩

theorem windowRecords_eq (H : s.SeesAlike w w') (window : Window) :
    s.windowRecords w' window = s.windowRecords w window := by
  simp only [windowRecords, nativeRecords, tokenRecords, H.block, H.blockTime, H.logs,
    H.whitelist]

theorem meets {id : TransferId} (H : s.SeesAlike w w') (h : s.Meets b sighting id w) :
    s.Meets b sighting id w' := by
  unfold Meets at h ⊢
  simp only [← Store.mem_whitelist] at h ⊢
  rw [H.block, H.logs, H.whitelist]
  exact h

end SeesAlike

/-- The scraper sees the same as in `w₀`, and some of its checkpoints hold certain heights. -/
structure Rests (s : Scraper) (w₀ : Surroundings) (known : List (String × UInt64))
    (w : Surroundings) : Prop where
  sees : s.SeesAlike w₀ w
  own : ∀ key height, (key, height) ∈ known → ∃ initial, (key, initial) ∈ s.task.readings
  holds : ∀ key height, (key, height) ∈ known → w.store.checkpoints.Holds key height

namespace Rests

theorem keeps (hC : ∀ {w w'}, C.drift w w' → s.LeavesBe w w') : C.Keeps (s.Rests w₀ known) := by
  intro w w' H hdrift
  refine ⟨H.sees.trans (hC hdrift).toSeesAlike, H.own, fun key height hmem => ?_⟩
  obtain ⟨initial, hreading⟩ := H.own key height hmem
  exact (H.holds key height hmem).congr ((hC hdrift).text hreading)

theorem withLedger (H : s.Rests w₀ known w) (l : Ledger) : s.Rests w₀ known (w.withLedger l) :=
  ⟨H.sees.trans ⟨rfl, rfl, rfl, rfl⟩, H.own, H.holds⟩

theorem withGuard (H : s.Rests w₀ known w) (guard : Guard) (isHeld : Bool) :
    s.Rests w₀ known (w.withGuard guard isHeld) :=
  ⟨H.sees.trans ⟨rfl, rfl, rfl, rfl⟩, H.own, H.holds⟩

theorem afterRead (H : s.Rests w₀ known w) (key : String) (initial : UInt64) :
    s.Rests w₀ known (w.afterRead key initial) :=
  ⟨H.sees.trans ⟨rfl, rfl, rfl, rfl⟩, H.own, fun k height hmem =>
    (H.holds k height hmem).getOrCreate⟩

/-- One more height is known. -/
theorem snoc (H : s.Rests w₀ known w) (h : (key, initial) ∈ s.task.readings)
    (hholds : w.store.checkpoints.Holds key height) :
    s.Rests w₀ (known ++ [(key, height)]) w := by
  refine ⟨H.sees, fun k n hmem => ?_, fun k n hmem => ?_⟩
  · rcases List.mem_append.mp hmem with hmem | hmem
    · exact H.own k n hmem
    · obtain ⟨rfl, -⟩ := Prod.mk.inj (List.mem_singleton.mp hmem)
      exact ⟨initial, h⟩
  · rcases List.mem_append.mp hmem with hmem | hmem
    · exact H.holds k n hmem
    · obtain ⟨rfl, rfl⟩ := Prod.mk.inj (List.mem_singleton.mp hmem)
      exact hholds

/-- Moving the last block changes its own height alone. -/
theorem afterWrite {p : Plan} (H : s.Rests w₀ (p.heights s) w) (next : UInt64) :
    s.Rests w₀ (Plan.heights s { p with lastScanned := next })
      (w.afterWrite s.task.lastBlockKey next) := by
  have hkeep : ∀ {key height}, (key, height) ∈ p.heights s → key ≠ s.task.lastBlockKey →
      (w.afterWrite s.task.lastBlockKey next).store.checkpoints.Holds key height :=
    fun hmem hne => (H.holds _ _ hmem).put_of_ne hne
  have hrange : (w.afterWrite s.task.lastBlockKey next).store.checkpoints.Holds
      s.task.scanRangeKey p.range :=
    hkeep (by simp [Plan.heights]) ScanTask.lastBlockKey_ne_scanRangeKey.symm
  have hoverlap : (w.afterWrite s.task.lastBlockKey next).store.checkpoints.Holds
      s.task.overlapKey p.overlap :=
    hkeep (by simp [Plan.heights]) ScanTask.lastBlockKey_ne_overlapKey.symm
  have hhead : (w.afterWrite s.task.lastBlockKey next).store.checkpoints.Holds
      s.task.headKey p.head :=
    hkeep (by simp [Plan.heights]) ScanTask.lastBlockKey_ne_headKey.symm
  have hnone : s.Rests w₀ [] (w.afterWrite s.task.lastBlockKey next) :=
    ⟨H.sees.trans ⟨rfl, rfl, rfl, rfl⟩, nofun, nofun⟩
  exact (((hnone.snoc ScanTask.scanRange_mem hrange).snoc ScanTask.overlap_mem hoverlap).snoc
    ScanTask.lastBlock_mem (Checkpoints.holds_put ..)).snoc ScanTask.head_mem hhead

theorem readHeight (hC : ∀ {w w'}, C.drift w w' → s.LeavesBe w w')
    (h : (key, initial) ∈ s.task.readings) (H : s.Rests w₀ known w) :
    (Engine.readHeight key initial).Abides C.pact
      (fun height => s.Rests w₀ (known ++ [(key, height)])) (fun _ _ => True) w := by
  have hplans : s.PlansUnder C.pact (fun w => w) (s.Rests w₀ known) fun _ => True :=
    plansUnder_conduct (keeps hC) fun _ H => H.afterRead _ _
  refine (hplans.readHeight_abides h H).mono ?_ fun _ _ _ => trivial
  exact fun height w' h' => h'.1.snoc h h'.2

/-- After a plan has been read, the scraper's checkpoints hold it. -/
theorem readPlan (hC : ∀ {w w'}, C.drift w w' → s.LeavesBe w w') (H : s.Rests w₀ [] w) :
    s.readPlan.Abides C.pact (fun p w' => p.range ≠ 0 ∧ s.Rests w₀ (p.heights s) w')
      (fun _ _ => True) w := by
  unfold Scraper.readPlan
  apply Action.Abides.bind
  refine (readHeight hC ScanTask.scanRange_mem H).mono ?_ fun _ _ h => h
  intro range w₁ h₁
  split
  · apply Action.Abides.bind
    exact .throw trivial
  · next hpos =>
    apply Action.Abides.bind
    refine (readHeight hC ScanTask.overlap_mem h₁).mono ?_ fun _ _ h => h
    intro overlap w₂ h₂
    apply Action.Abides.bind
    refine (readHeight hC ScanTask.lastBlock_mem h₂).mono ?_ fun _ _ h => h
    intro lastScanned w₃ h₃
    apply Action.Abides.bind
    refine (readHeight hC ScanTask.head_mem h₃).mono ?_ fun _ _ h => h
    intro head w₄ h₄
    exact .pure ⟨hpos, h₄⟩

end Rests

/-! ### The tick that catches up -/

/-- The scraper has caught up, and all that its next window has is in the ledger. -/
structure Idle (s : Scraper) (w₀ : Surroundings) (p : Plan) (w : Surroundings) : Prop where
  rests : s.Rests w₀ (p.heights s) w
  range : p.range ≠ 0
  caughtUp : p.head ≤ p.lastScanned
  ids : ∀ t ∈ s.windowRecords w₀ p.window, t.id ∈ w.store.ledger.ids

theorem keeps_ids (hC : ∀ {w w'}, C.drift w w' → s.LeavesBe w w') (ts : List Transfer) :
    C.Keeps fun w => ∀ t ∈ ts, t.id ∈ w.store.ledger.ids :=
  fun h hdrift t ht => (hC hdrift).ids t.id (h t ht)

/-- A scan finds all the records of its window, whatever others insert meanwhile. -/
theorem scanWindow_finds_records (hC : ∀ {w w'}, C.drift w w' → s.LeavesBe w w')
    (hnode : s.TellsLogs w₀) (c head range overlap : UInt64) (H : s.Rests w₀ known w) :
    (s.scanWindow c head range overlap).Abides C.pact
      (fun o w' => (o.window = .compute c overlap range head ∧ s.Rests w₀ known w') ∧
        ∀ t : {t // t ∈ s.windowRecords w₀ (.compute c overlap range head)},
          t.1.id ∈ w'.store.ledger.ids) (fun _ _ => True) w := by
  have hscans : C.pact.Allows s.Scans (s.Rests w₀ known) :=
    allows_scans (Rests.keeps hC) fun _ H => H.withLedger _
  apply Action.Abides.and_forall
  · exact (scanWindow_keeps hscans c head range overlap H).mono (fun _ _ h => h) fun _ _ _ => trivial
  · rintro ⟨t, ht⟩
    obtain ⟨block, sighting, hcovers, hmeets⟩ := exists_meets hnode ht
    exact (scanWindow_finds ⟨hscans, fun h hdrift => (hC hdrift).ids _ h⟩
      (fun w hw => hw.sees.meets hmeets) hcovers H).mono (fun _ _ h => h.2.2) fun _ _ _ => trivial

/-- If a tick has succeeded and caught up then the scraper is idle. -/
def IdlesIf (s : Scraper) (w₀ : Surroundings) : Except Fault TickOutcome → Surroundings → Prop
  | .ok o, w => o.caughtUp → ∃ p, s.Idle w₀ p w
  | .error _, _ => True

theorem tickHeld_idles (hC : ∀ {w w'}, C.drift w w' → s.LeavesBe w w') (hnode : s.TellsLogs w₀)
    (H : s.Rests w₀ [] w) : s.tickHeld.run.Abides C.pact (s.IdlesIf w₀) w := by
  apply Action.Abides.of_results
  rw [tickHeld_eq]
  apply Action.Abides.bind
  refine (Rests.readPlan hC H).mono ?_ fun _ _ h => h
  intro p w₁ hplan
  obtain ⟨hpos, hrests⟩ := hplan
  apply Action.Abides.bind
  refine (scanWindow_finds_records hC hnode _ _ _ _ hrests).mono ?_ fun _ _ h => h
  intro o w₂ hscanned
  obtain ⟨⟨hwindow, hrests⟩, hfound⟩ := hscanned
  have hids : ∀ t ∈ s.windowRecords w₀ p.window, t.id ∈ w₂.store.ledger.ids :=
    fun t ht => hfound ⟨t, ht⟩
  have hkeeps (p' : Plan) : C.Keeps fun w => s.Rests w₀ (p'.heights s) w ∧
      ∀ t ∈ s.windowRecords w₀ p.window, t.id ∈ w.store.ledger.ids :=
    fun h hdrift => ⟨Rests.keeps hC h.1 hdrift, keeps_ids hC _ h.2 hdrift⟩
  have hadvance : (s.advance p o).Abides C.pact (fun o' w => o' = p.outcome o ∧
      s.Rests w₀ (Plan.heights s { p with lastScanned := p.next o }) w ∧
      ∀ t ∈ s.windowRecords w₀ p.window, t.id ∈ w.store.ledger.ids) (fun _ _ => True) w₂ :=
    advance_abides C.pact_over (Conduct.stable_pact (hkeeps p)) ⟨hrests, hids⟩ ?stays
      (fun _ _ _ _ _ => trivial) ?moves (fun _ _ _ _ _ => trivial) (Conduct.allows_tells (hkeeps _))
  case stays =>
    intro hstays w h
    rw [hstays]
    exact h
  case moves =>
    intro w answer w' h _ hworld
    subst hworld
    exact ⟨h.1.afterWrite (p.next o), h.2⟩
  refine hadvance.mono ?_ fun _ _ h => h
  intro o' w₃ hadvanced hcaught
  obtain ⟨rfl, hrests, hids⟩ := hadvanced
  have hle : p.head ≤ p.next o := of_decide_eq_true hcaught
  refine ⟨{ p with lastScanned := p.next o }, hrests, hpos, hle, fun t ht =>
    hids t (mem_windowRecords_mono hnode ?_ ht)⟩
  intro block hcovers
  simp only [Plan.window, Plan.next, hwindow] at hle hcovers
  exact Window.covers_of_next hle hcovers

/-! ### Idle ticks -/

namespace Idle

variable {p : Plan}

theorem keeps (hC : ∀ {w w'}, C.drift w w' → s.LeavesBe w w') : C.Keeps (s.Idle w₀ p) :=
  fun H hdrift => ⟨Rests.keeps hC H.rests hdrift, H.range, H.caughtUp, keeps_ids hC _ H.ids hdrift⟩

theorem withGuard (H : s.Idle w₀ p w) (guard : Guard) (isHeld : Bool) :
    s.Idle w₀ p (w.withGuard guard isHeld) :=
  ⟨H.rests.withGuard guard isHeld, H.range, H.caughtUp, H.ids⟩

theorem afterRead (H : s.Idle w₀ p w) (key : String) (initial : UInt64) :
    s.Idle w₀ p (w.afterRead key initial) :=
  ⟨H.rests.afterRead key initial, H.range, H.caughtUp, H.ids⟩

theorem insert (H : s.Idle w₀ p w) (t : Transfer) :
    s.Idle w₀ p (w.withLedger (w.store.ledger.insert t).2) :=
  ⟨H.rests.withLedger _, H.range, H.caughtUp, fun u hu =>
    Ledger.mem_ids_insert.mpr (.inl (H.ids u hu))⟩

theorem holds_range (H : s.Idle w₀ p w) :
    w.store.checkpoints.Holds s.task.scanRangeKey p.range :=
  H.rests.holds _ _ (by simp [Plan.heights])

theorem holds_overlap (H : s.Idle w₀ p w) :
    w.store.checkpoints.Holds s.task.overlapKey p.overlap :=
  H.rests.holds _ _ (by simp [Plan.heights])

theorem holds_lastBlock (H : s.Idle w₀ p w) :
    w.store.checkpoints.Holds s.task.lastBlockKey p.lastScanned :=
  H.rests.holds _ _ (by simp [Plan.heights])

theorem holds_head (H : s.Idle w₀ p w) : w.store.checkpoints.Holds s.task.headKey p.head :=
  H.rests.holds _ _ (by simp [Plan.heights])

/-- The last block stays where it is. -/
theorem next_eq (H : s.Idle w₀ p w) {o : ScanOutcome} (h : o.window = p.window) :
    p.next o = p.lastScanned := by
  rw [Plan.next, h]
  exact Height.max_eq_right (UInt64.le_trans Window.compute_last_le H.caughtUp)

/-- An idle scraper reads the same plan over and over. -/
theorem plan_eq (h : s.Planned (fun w => w) (s.Idle w₀ p) q) : q = p := by
  obtain ⟨⟨w₁, h₁, hrange⟩, -, ⟨w₂, h₂, hoverlap⟩, ⟨w₃, h₃, hlast⟩, ⟨w₄, h₄, hhead⟩⟩ := h
  have hranges : q.range = p.range := Option.some.inj (hrange.symm.trans h₁.holds_range.height?)
  have hoverlaps : q.overlap = p.overlap :=
    Option.some.inj (hoverlap.symm.trans h₂.holds_overlap.height?)
  have hlasts : q.lastScanned = p.lastScanned :=
    Option.some.inj (hlast.symm.trans h₃.holds_lastBlock.height?)
  have hheads : q.head = p.head := Option.some.inj (hhead.symm.trans h₄.holds_head.height?)
  cases q
  cases p
  rw [Plan.mk.injEq]
  exact ⟨hranges, hoverlaps, hlasts, hheads⟩

theorem tickHeld_abides (hC : ∀ {w w'}, C.drift w w' → s.LeavesBe w w') (H : s.Idle w₀ p w) :
    s.tickHeld.run.Abides C.pact (fun _ => s.Idle w₀ p) w := by
  have hplans : s.PlansUnder C.pact (fun w => w) (s.Idle w₀ p) fun _ => True :=
    plansUnder_conduct (keeps hC) fun _ H => H.afterRead _ _
  have hscans : C.pact.Allows s.Scans (s.Idle w₀ p) :=
    allows_scans (keeps hC) fun t H => H.insert t
  suffices habides : s.tickHeld.Abides C.pact (fun _ => s.Idle w₀ p) (fun _ => s.Idle w₀ p) w from
    Action.Abides.of_results habides
  rw [tickHeld_eq]
  apply Action.Abides.bind
  refine (hplans.readPlan_abides H).mono ?_ fun _ _ h => h.1
  intro q w₁ hread
  obtain ⟨H, hplanned, -⟩ := hread
  obtain rfl := plan_eq hplanned
  apply Action.Abides.bind
  refine (scanWindow_keeps hscans _ _ _ _ H).mono ?_ fun _ _ h => h
  intro o w₂ hscanned
  obtain ⟨hwindow, H⟩ := hscanned
  have hnext : q.next o = q.lastScanned := H.next_eq hwindow
  have hadvance : (s.advance q o).Abides C.pact (fun o' w => o' = q.outcome o ∧ s.Idle w₀ q w)
      (fun _ => s.Idle w₀ q) w₂ :=
    advance_abides C.pact_over (Conduct.stable_pact (keeps hC)) H (fun _ _ h => h)
      (fun _ _ _ _ _ => trivial) ?moves (fun w w' fault h hanswer => hanswer.of_failed_write ▸ h)
      (Conduct.allows_tells (keeps hC))
  case moves =>
    intro w answer w' h _ hworld
    subst hworld
    have hrests := h.rests.afterWrite (q.next o)
    rw [hnext] at hrests ⊢
    exact ⟨hrests, h.range, h.caughtUp, h.ids⟩
  exact hadvance.mono (fun _ _ h => h.2) fun _ _ h => h

end Idle

theorem IdlesIf.keeps (hC : ∀ {w w'}, C.drift w w' → s.LeavesBe w w')
    (result : Except Fault TickOutcome) : C.Keeps (s.IdlesIf w₀ result) := by
  cases result with
  | error fault => exact fun _ _ => trivial
  | ok o =>
    intro w w' H hdrift hcaught
    obtain ⟨p, hidle⟩ := H hcaught
    exact ⟨p, hidle.keeps hC hdrift⟩

theorem IdlesIf.withGuard {result : Except Fault TickOutcome} (H : s.IdlesIf w₀ result w)
    (guard : Guard) (isHeld : Bool) : s.IdlesIf w₀ result (w.withGuard guard isHeld) := by
  cases result with
  | error fault => exact trivial
  | ok o =>
    intro hcaught
    obtain ⟨p, hidle⟩ := H hcaught
    exact ⟨p, hidle.withGuard guard isHeld⟩

/-- A tick that catches up leaves the scraper idle. -/
theorem tick_idles (hC : ∀ {w w'}, C.drift w w' → s.LeavesBe w w') (hnode : s.TellsLogs w) :
    s.tick.run.Abides C.pact (s.IdlesIf w) w :=
  tick_of_tickHeld (Rests.keeps hC) (IdlesIf.keeps hC) (fun h => h.withGuard _ _)
    (fun h => h.withGuard _ _) (tickHeld_idles hC hnode) ⟨.refl s w, nofun, nofun⟩

/-- A tick leaves an idle scraper idle, whether it fails or not. -/
theorem Idle.tick_abides {p : Plan} (hC : ∀ {w w'}, C.drift w w' → s.LeavesBe w w')
    (H : s.Idle w₀ p w) : s.tick.run.Abides C.pact (fun _ => s.Idle w₀ p) w :=
  tick_of_tickHeld (Idle.keeps hC) (fun _ => Idle.keeps hC) (fun h => h.withGuard _ _)
    (fun h => h.withGuard _ _) (Idle.tickHeld_abides hC) H

theorem Ticks.idle {p : Plan} (hC : ∀ {w w'}, C.drift w w' → s.LeavesBe w w')
    (H : s.Idle w₀ p w) (hticks : s.Ticks C w w') : s.Idle w₀ p w' := by
  induction hticks with
  | refl => exact H
  | @tick w₁ result w₂ _ hrun ih =>
    have hidle := Conduct.of_runs (ih.tick_abides hC) hrun
    exact hidle
  | drift _ hdrift ih => exact ih.keeps hC hdrift

/-! ### What an idle tick does -/

/-- Reading a height that is held changes nothing. -/
theorem readHeight_of_holds {post : UInt64 → Surroundings → Prop}
    {fail : Fault → Surroundings → Prop} (hholds : w.store.checkpoints.Holds key height)
    (h : post height w) :
    (Engine.readHeight key initial).Ensures (.undisturbed fun _ => False) post fail w := by
  refine .readHeight (P := (· = w)) (Conduct.undisturbed_keeps _ (· = w)) rfl ?_ ?_ ?_
  · rintro _ rfl
    exact ⟨height, hholds.height?⟩
  · rintro _ height' rfl hread
    obtain rfl := Option.some.inj (hholds.height?.symm.trans hread)
    obtain ⟨text, hget, -⟩ := hholds
    rwa [Surroundings.afterRead, Checkpoints.getOrCreate_of_some hget]
  · exact fun _ _ _ hfail => hfail.elim fun _ h => h.elim

namespace Idle

variable {p : Plan}

theorem readPlan_ensures (H : s.Idle w₀ p w) :
    s.readPlan.Ensures (.undisturbed fun _ => False) (fun q w' => q = p ∧ w' = w)
      (fun _ _ => False) w := by
  unfold readPlan
  apply Action.Ensures.bind
  apply readHeight_of_holds H.holds_range
  rw [if_neg H.range]
  apply Action.Ensures.bind
  apply readHeight_of_holds H.holds_overlap
  apply Action.Ensures.bind
  apply readHeight_of_holds H.holds_lastBlock
  apply Action.Ensures.bind
  apply readHeight_of_holds H.holds_head
  exact .pure ⟨rfl, rfl⟩

/-- All that a scan inserts is in the ledger already. -/
theorem scanWindow_ensures (H : s.Idle w₀ p w) :
    (s.scanWindow p.lastScanned p.head p.range p.overlap).Ensures (.undisturbed fun _ => False)
      (fun o w' => o.window = p.window ∧ o.emitted = 0 ∧ w' = w) (fun _ _ => False) w := by
  refine (scanWindow_wrote s p.lastScanned p.head p.range p.overlap w).mono ?_ fun _ _ h => h
  rintro o w' ⟨hwindow, rfl, hcount⟩
  have hsame : w.store.ledger.insertAll (s.windowRecords w o.window) = w.store.ledger := by
    apply Ledger.insertAll_of_mem
    intro t ht
    rw [hwindow, H.rests.sees.windowRecords_eq] at ht
    exact H.ids t ht
  rw [hsame] at hcount ⊢
  exact ⟨hwindow, Nat.left_eq_add.mp hcount, rfl⟩

theorem advance_ensures (H : s.Idle w₀ p w) {o : ScanOutcome} (hwindow : o.window = p.window)
    (hemitted : o.emitted = 0) :
    (s.advance p o).Ensures (.undisturbed fun _ => False) (fun o' w' => o'.emitted = 0 ∧ w' = w)
      (fun _ _ => False) w := by
  unfold advance
  simp only [H.next_eq hwindow, ne_eq, not_true_eq_false, if_false]
  apply Action.Ensures.bind
  refine .tell (P := (· = w)) (Conduct.undisturbed_keeps _ (· = w)) rfl ?_
  rintro _ rfl
  exact .pure ⟨hemitted, rfl⟩

theorem tickHeld_ensures (H : s.Idle w₀ p w) :
    s.tickHeld.Ensures (.undisturbed fun _ => False) (fun o w' => o.emitted = 0 ∧ w' = w)
      (fun _ _ => False) w := by
  rw [tickHeld_eq]
  apply Action.Ensures.bind
  refine H.readPlan_ensures.mono ?_ fun _ _ h => h
  rintro _ _ ⟨rfl, rfl⟩
  apply Action.Ensures.bind
  refine H.scanWindow_ensures.mono ?_ fun _ _ h => h
  rintro o _ ⟨hwindow, hemitted, rfl⟩
  exact H.advance_ensures hwindow hemitted

/-- A tick of an idle scraper in which no call fails succeeds, adds nothing and changes nothing. -/
theorem tick_ensures (H : s.Idle w₀ p w) (hfree : w.held s.guard = false) :
    s.tick.run.Ensures (Conduct.undisturbed fun _ => False).Answers
      (fun result w' => ∃ o, result = .ok o ∧ o.emitted = 0 ∧ w' = w) w := by
  have hbody : s.tickHeld.run.Ensures (Conduct.undisturbed fun _ => False).Answers
      (fun result w' => ∃ o, result = .ok o ∧ o.emitted = 0 ∧ w' = w.withGuard s.guard true)
      (w.withGuard s.guard true) := by
    refine (H.withGuard s.guard true).tickHeld_ensures.run.mono ?_
    intro result w' h
    cases result with
    | error fault => exact h.elim
    | ok o => exact ⟨o, rfl, h⟩
  apply Conduct.ensures_guarded (Conduct.undisturbed_keeps _ (· = w)) rfl
  case body =>
    intro w' hw'
    rw [hw']
    exact hbody
  case free =>
    rintro _ rfl
    exact hfree
  case keepsPost => exact fun _ _ _ h hdrift => hdrift ▸ h
  case release =>
    rintro result _ ⟨o, hok, hemitted, rfl⟩
    exact ⟨o, hok, hemitted, Surroundings.withGuard_free hfree⟩

end Idle

/-- Once a tick has succeeded and caught up, another tick in which no call fails succeeds, adds no
record and leaves everything as it is, whatever ticks there have been in between. -/
theorem tick_after_caughtUp (hC : ∀ {w w'}, C.drift w w' → s.LeavesBe w w')
    (hnode : s.TellsLogs w) (hrun : s.tick.run.Runs C.Answers w (.ok o) w₁) (hcaught : o.caughtUp)
    (hticks : s.Ticks C w₁ w₂) (hfree : w₂.held s.guard = false) :
    s.tick.run.Ensures (Conduct.undisturbed fun _ => False).Answers
      (fun result w' => ∃ o', result = .ok o' ∧ o'.emitted = 0 ∧ w' = w₂) w₂ := by
  obtain ⟨p, hidle⟩ := Conduct.of_runs (tick_idles hC hnode) hrun hcaught
  exact (hticks.idle hC hidle).tick_ensures hfree

theorem sampleToken_tellsLogs (key : String) (height : UInt64) :
    Scraper.sampleToken.TellsLogs (Surroundings.sample.afterWrite key height) := by
  intro contract hasset
  obtain rfl := Asset.token.inj hasset
  exact ⟨_, Stream.sampleToken_begins.view.1⟩

/-- From block 29 a tick comes to the head, which is block 30. -/
theorem sampleToken_catches_up : ∃ o w₁,
    Scraper.sampleToken.tick.run.Runs (Conduct.undisturbed fun _ => False).Answers
      (Surroundings.sample.afterWrite Scraper.sampleToken.task.lastBlockKey 29) (.ok o) w₁ ∧
    o.caughtUp ∧ w₁.held Scraper.sampleToken.guard = false := by
  have haside := Stream.sampleToken_aside fun _ => False
  have hensures := Stream.tick_ensures (Stream.sampleToken_spared fun _ => False) haside
    (fun _ h => h) (Stream.sampleToken_stands.afterWrite haside 29) rfl
  obtain ⟨result, w₁, hrun, hpost⟩ := hensures.run.exists_runs
  cases result with
  | error fault => exact hpost.fallible.elim fun _ h => h.elim
  | ok o =>
    obtain ⟨ts, -, hstands, -⟩ := hpost.scanned
    refine ⟨o, w₁, hrun, decide_eq_true ?_, hstands.guard⟩
    obtain ⟨range, hrange, hwindow⟩ := hpost.window
    have hhead : o.head = 30 := hpost.head
    rw [hpost.lastScanned, hwindow, hhead]
    have hlast : (30 : UInt64) ≤ max (Window.compute 29 2 range 30).last 29 := by
      by_contra hlt
      have hmoved := Window.lt_max_compute_last hrange (UInt64.not_le.mp hlt)
      rw [UInt64.le_iff_toNat_le] at hlt
      rw [UInt64.lt_iff_toNat_lt] at hmoved
      have h : (29 : UInt64).toNat = 29 ∧ (30 : UInt64).toNat = 30 := ⟨rfl, rfl⟩
      omega
    exact hlast

/-- The next tick finds the transfers of blocks 29 and 30 again, and leaves all as it is. -/
theorem sampleToken_ticks_again : ∃ o w₁,
    Scraper.sampleToken.tick.run.Runs (Conduct.undisturbed fun _ => False).Answers
      (Surroundings.sample.afterWrite Scraper.sampleToken.task.lastBlockKey 29) (.ok o) w₁ ∧
    Scraper.sampleToken.tick.run.Ensures (Conduct.undisturbed fun _ => False).Answers
      (fun result w' => ∃ o', result = .ok o' ∧ o'.emitted = 0 ∧ w' = w₁) w₁ := by
  obtain ⟨o, w₁, hrun, hcaught, hfree⟩ := sampleToken_catches_up
  refine ⟨o, w₁, hrun, ?_⟩
  have halone : ∀ {w w'}, (Conduct.undisturbed fun _ => False).drift w w' →
      Scraper.sampleToken.LeavesBe w w' := by
    rintro w _ rfl
    exact ⟨.refl _ w, fun _ => rfl, fun _ h => h⟩
  exact tick_after_caughtUp halone (sampleToken_tellsLogs _ _) hrun hcaught .refl hfree

end Scraper

end ChainIngest
