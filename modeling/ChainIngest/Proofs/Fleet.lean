import ChainIngest.Proofs.Progress

/-! Scrapers of one chain that take turns. Their checkpoints differ, so each stands where its own
ticks have left it; the ledger is common to all of them. -/

namespace ChainIngest

/-- Scrapers of one chain with different assets, checkpoints and guards. -/
structure Fleet where
  chain : String
  chainId : UInt64
  node : Node
  scrapers : List Scraper
  chain_eq : ∀ s ∈ scrapers, s.task.chain = chain
  chainId_eq : ∀ s ∈ scrapers, s.task.chainId = chainId
  node_eq : ∀ s ∈ scrapers, s.node = node
  range_pos : ∀ s ∈ scrapers, s.task.scanRange ≠ 0
  index_inj : ∀ s ∈ scrapers, ∀ s' ∈ scrapers, s.index = s'.index → s = s'
  asset_inj : ∀ s ∈ scrapers, ∀ s' ∈ scrapers, s.task.asset = s'.task.asset → s = s'
  keys_disjoint : ∀ s ∈ scrapers, ∀ s' ∈ scrapers, s ≠ s' → s.task.keys.Disjoint s'.task.keys

/-- What a chain holds for good: its blocks, the logs of each contract, and when its blocks were
made. `wanted` are the recipients whose transactions are recorded. -/
structure ChainHistory where
  blocks : UInt64 → Block
  logs : Address → EventLog → Prop
  time : UInt64 → UInt64
  wanted : Address → Prop
  number_eq : ∀ n, (blocks n).number = n

namespace ChainHistory

/-- The records that a scraper is after. -/
def Sought (d : ChainHistory) (s : Scraper) (t : Transfer) : Prop :=
  match s.task.asset with
  | .native => s.IsNativeRecord d.blocks d.wanted t
  | .token contract =>
    s.IsTokenRecord (d.logs contract) (fun block time => time = d.time block) contract t

/-- What a scraper sees agrees with the chain's history. -/
def View (d : ChainHistory) (s : Scraper) (chains : ChainContents)
    (recipients : List (UInt64 × Address)) : Prop :=
  match s.task.asset with
  | .native => (∀ n, chains.block s.node n = d.blocks n) ∧
    ∀ a, (a ∈ s.recipients ∨ (s.task.chainId, a) ∈ recipients) ↔ d.wanted a
  | .token contract =>
    (∀ first last, Scraper.AnswersLogs (d.logs contract) first last
      (chains.logs s.node contract first last)) ∧
    ∀ block, chains.blockTime s.node block = d.time block

/-- The stream of a scraper of the chain. -/
def stream (d : ChainHistory) (s : Scraper) : Stream where
  scraper := s
  view := d.View s
  sought := d.Sought s
  scans := by
    intro C K w l c overlap range head H hview
    unfold View at hview
    unfold Sought
    cases hasset : s.task.asset with
    | native =>
      simp only [hasset] at hview ⊢
      exact hasset ▸ (Stream.native s hasset d.blocks d.number_eq d.wanted).scans c overlap range
        head H hview
    | token contract =>
      simp only [hasset] at hview ⊢
      exact hasset ▸ (Stream.token s contract hasset (d.logs contract)
        fun block time => time = d.time block).scans c overlap range head H hview

end ChainHistory

namespace Fleet

/-- No call fails, and between any two queries somebody may store a head that is allowed. -/
def conduct (F : Fleet) (allowed : UInt64 → Prop) : Conduct where
  mayFail _ := False
  drift w w' := w' = w ∨ ∃ h, allowed h ∧ w' = w.afterWrite (CheckpointKey.head F.chain) h
  drift_refl _ := .inl rfl

/-- Ticks that succeed, with their outcomes, the last one first, and heads stored between them. -/
inductive Run (F : Fleet) (allowed : UInt64 → Prop) (w₀ : Surroundings) :
    List (Scraper × TickOutcome) → Surroundings → Prop
  | start : Run F allowed w₀ [] w₀
  | tick : Run F allowed w₀ trace w → s ∈ F.scrapers →
      s.tick.run.Runs (F.conduct allowed).Answers w (.ok o) w' →
      Run F allowed w₀ ((s, o) :: trace) w'
  | drift : Run F allowed w₀ trace w → (F.conduct allowed).drift w w' → Run F allowed w₀ trace w'

/-- What a scraper of the fleet is scanned on. -/
def terms (allowed : UInt64 → Prop) (s : Scraper) : Terms := ⟨s.task.overlap, allowed⟩

/-- What ticks of `s` leave alone: what the chain and the whitelist hold, and where the others
stand. -/
structure Others (F : Fleet) (d : ChainHistory) (allowed : UInt64 → Prop) (s : Scraper)
    (cs : Scraper → UInt64) (w : Surroundings) : Prop where
  view : ∀ s' ∈ F.scrapers, d.View s' w.chains w.store.recipients
  stands : ∀ s' ∈ F.scrapers, s' ≠ s →
    s'.Stands (terms allowed s') (fun _ => True) (cs s') false false w

variable {F : Fleet} {d : ChainHistory} {allowed : UInt64 → Prop} {s : Scraper}
  {cs : Scraper → UInt64} {w w' : Surroundings}

theorem conduct_not_fallible : ¬(F.conduct allowed).Fallible := fun ⟨_, h⟩ => h

theorem conduct_spares (hs : s ∈ F.scrapers) : (F.conduct allowed).Spares s (terms allowed s) where
  ledger l w w' h hdrift := by
    rcases hdrift with rfl | ⟨_, -, rfl⟩ <;> exact h
  guard isHeld w w' h hdrift := by
    rcases hdrift with rfl | ⟨_, -, rfl⟩ <;> exact h
  lastBlock text? w w' h hdrift := by
    rcases hdrift with rfl | ⟨_, -, rfl⟩
    · exact h
    · exact (Checkpoints.get?_put ..).trans ((if_neg CheckpointKey.lastBlock_ne_head).trans h)
  tuned {w w'} h hdrift := by
    rcases hdrift with rfl | ⟨height, hallowed, rfl⟩
    · exact h
    · have hrange : s.task.scanRangeKey ≠ CheckpointKey.head F.chain :=
        CheckpointKey.scanRange_ne_head
      have hoverlap : s.task.overlapKey ≠ CheckpointKey.head F.chain :=
        CheckpointKey.overlap_ne_head
      have hhead : s.task.headKey = CheckpointKey.head F.chain :=
        congrArg CheckpointKey.head (F.chain_eq s hs)
      refine ⟨?_, ?_, height, ?_, hallowed⟩
      · rw [Scraper.height?_afterWrite hrange]
        exact h.range
      · rw [Scraper.height?_afterWrite hoverlap]
        exact h.overlap
      · rw [hhead]
        exact (Checkpoints.holds_put ..).height?

theorem stands_drift (hs : s ∈ F.scrapers) (hdrift : (F.conduct allowed).drift w w')
    (H : s.Stands (terms allowed s) (fun _ => True) c false false w) :
    s.Stands (terms allowed s) (fun _ => True) c false false w' :=
  Scraper.Stands.keeps (conduct_spares hs)
    ⟨fun _ _ => trivial, fun _ _ => trivial, fun _ _ => trivial, fun _ _ => trivial,
      fun _ _ => trivial⟩ H hdrift

theorem Others.drift (H : F.Others d allowed s cs w) (hdrift : (F.conduct allowed).drift w w') :
    F.Others d allowed s cs w' := by
  refine ⟨?_, fun s' hs' hne => stands_drift hs' hdrift (H.stands s' hs' hne)⟩
  rcases hdrift with rfl | ⟨_, -, rfl⟩ <;> exact H.view

/-- A scraper does not touch what is another's. -/
theorem aside_others (hs : s ∈ F.scrapers) :
    s.Aside (F.conduct allowed) (F.Others d allowed s cs) where
  keeps H hdrift := H.drift hdrift
  insert {w} l H := ⟨H.view, fun s' hs' hne =>
    have hw := H.stands s' hs' hne
    ⟨trivial, hw.guard, ⟨hw.tuned.range, hw.tuned.overlap, hw.tuned.head⟩, hw.lastBlock, nofun⟩⟩
  read hmem H := ⟨H.view, fun s' hs' hne => (H.stands s' hs' hne).afterRead_of_admits
    (ScanTask.admits_of_disjoint (F.keys_disjoint s' hs' s hs hne) hmem) trivial⟩
  write height H := ⟨H.view, fun s' hs' hne => (H.stands s' hs' hne).afterWrite_of_ne
    (fun hmem => F.keys_disjoint s' hs' s hs hne hmem (by simp [ScanTask.keys]))
    CheckpointKey.lastBlock_ne_head.symm trivial⟩
  guard isHeld H := ⟨H.view, fun s' hs' hne => (H.stands s' hs' hne).withGuard_of_ne
    (fun hguard => hne (F.index_inj s' hs' s hs (Guard.scraper.inj hguard))) trivial⟩

/-- Every scraper stands where `cs` says, with all that it has passed in the ledger; and each row of
the ledger is a record that one of them is after. -/
structure Standing (F : Fleet) (d : ChainHistory) (allowed : UInt64 → Prop) (top : UInt64)
    (cs : Scraper → UInt64) (w : Surroundings) : Prop where
  view : ∀ s ∈ F.scrapers, d.View s w.chains w.store.recipients
  stands : ∀ s ∈ F.scrapers, s.Stands (terms allowed s) (fun _ => True) (cs s) false false w
  progress : ∀ s ∈ F.scrapers,
    (d.stream s).Progress s.task.overlap s.task.startBlock top (cs s) w.store.ledger
  sound : ∀ t ∈ w.store.ledger.rows, ∃ s ∈ F.scrapers, d.Sought s t
  grows : Ledger.empty.Grows w.store.ledger w.store.ledger.rows

/-- Everything that a scraper is after up to `top` is in the ledger. -/
def Covered (d : ChainHistory) (top : UInt64) (s : Scraper) (l : Ledger) : Prop :=
  ∀ t, d.Sought s t → Height.subFloored s.task.startBlock s.task.overlap ≤ t.block →
    s.task.asset.Reaches top t.block → t.id ∈ l.ids

variable {top : UInt64}

/-- Where a fleet stands that has not scanned anything. -/
theorem Standing.at_start (hcheckpoints : w.store.checkpoints = .empty)
    (hledger : w.store.ledger = .empty) (hfree : ∀ s ∈ F.scrapers, w.held s.guard = false)
    (hview : ∀ s ∈ F.scrapers, d.View s w.chains w.store.recipients) (hallowed : allowed 0) :
    F.Standing d allowed top (·.task.startBlock) w where
  view := hview
  stands s hs := by
    have hnone : ∀ key initial, w.height? key initial = some initial := fun key initial => by
      rw [Surroundings.height?, hcheckpoints]
      exact Checkpoints.height?_of_none (Checkpoints.get?_empty)
    exact ⟨trivial, hfree s hs, ⟨⟨_, hnone .., F.range_pos s hs⟩, hnone .., _, hnone .., hallowed⟩,
      hnone .., nofun⟩
  progress s _ := .at_start ..
  sound := by simp [hledger, Ledger.empty]
  grows := by
    rw [hledger]
    exact .refl _

theorem Standing.drift (H : F.Standing d allowed top cs w)
    (hdrift : (F.conduct allowed).drift w w') : F.Standing d allowed top cs w' := by
  have hstands := fun s hs => stands_drift hs hdrift (H.stands s hs)
  rcases hdrift with rfl | ⟨_, -, rfl⟩ <;> exact ⟨H.view, hstands, H.progress, H.sound, H.grows⟩

theorem Standing.tick_ensures (H : F.Standing d allowed top cs w) (hs : s ∈ F.scrapers) :
    s.tick.Ensures (F.conduct allowed)
      ((d.stream s).Ticked (terms allowed s) (F.Others d allowed s cs) (cs s) w.store.ledger false)
      (fun _ => (d.stream s).TickFailed (F.conduct allowed) (terms allowed s)
        (F.Others d allowed s cs) (cs s) w.store.ledger false) w := by
  have hothers : F.Others d allowed s cs w := ⟨H.view, fun s' hs' _ => H.stands s' hs'⟩
  exact Stream.tick_ensures (conduct_spares hs) (aside_others hs) (fun w hw => hw.view s hs)
    { H.stands s hs with aside := hothers } rfl

/-- A tick of one scraper moves that one alone, and adds only what it is after. -/
theorem Standing.of_ticked (H : F.Standing d allowed top cs w) (hs : s ∈ F.scrapers)
    (htick : (d.stream s).Ticked (terms allowed s) (F.Others d allowed s cs) (cs s) w.store.ledger
      false o w') (htop : o.head ≤ top) :
    F.Standing d allowed top (Function.update cs s o.lastScanned) w' := by
  obtain ⟨ts, hfinds, hw, hl, -⟩ := htick.scanned
  have hothers := hw.aside
  obtain ⟨added, hsub, hgrows⟩ := H.grows.insertAll ts
  rw [← hl] at hgrows
  have hrows : w'.store.ledger.rows = w.store.ledger.rows ++ added := hgrows.rows
  refine ⟨hothers.view, fun s' hs' => ?_, fun s' hs' => ?_, fun t ht => ?_, hrows ▸ hgrows⟩
  · by_cases hne : s' = s
    · subst hne
      rw [Function.update_self]
      exact { hw.weaken with aside := trivial }
    · rw [Function.update_of_ne hne]
      exact hothers.stands s' hs' hne
  · by_cases hne : s' = s
    · subst hne
      rw [Function.update_self]
      exact (H.progress s' hs').of_ticked htick htop
    · rw [Function.update_of_ne hne]
      exact (H.progress s' hs').mono fun id hid => hl ▸ Ledger.mem_ids_insertAll_of_mem hid ts
  · rw [hrows] at ht
    rcases List.mem_append.mp ht with ht | ht
    · exact H.sound t ht
    · exact ⟨s, hs, (hfinds.sound t (hsub.subset ht)).1⟩

/-- After a tick that has caught up with `top`, everything up to there is in the ledger. -/
theorem Standing.covered (H : F.Standing d allowed top cs w) (hs : s ∈ F.scrapers)
    (htick : (d.stream s).Ticked (terms allowed s) (F.Others d allowed s cs) (cs s) w.store.ledger
      false o w') (hcaught : o.caughtUp) (hhead : o.head = top) :
    Covered d top s w'.store.ledger := by
  have hlast : o.window.last = top := (htick.last_eq_head hcaught).trans hhead
  exact fun t h₁ h₂ h₃ => (H.progress s hs).covered_of_ticked htick h₁ h₂ (hlast ▸ h₃)

/-- Every run leaves the fleet standing somewhere, and what was covered stays so. -/
theorem Standing.of_run {w₀ : Surroundings} (hallowed : ∀ h, allowed h → h ≤ top)
    (H : F.Standing d allowed top cs w₀) (hrun : F.Run allowed w₀ trace w) :
    (∃ cs', F.Standing d allowed top cs' w) ∧
      ∀ s o, (s, o) ∈ trace → o.caughtUp → o.head = top → Covered d top s w.store.ledger := by
  induction hrun with
  | start => exact ⟨⟨cs, H⟩, nofun⟩
  | @tick trace w s o w' _ hs htick ih =>
    obtain ⟨⟨cs', H'⟩, hcovered⟩ := ih
    have hticked := (H'.tick_ensures hs).run.of_runs htick
    obtain ⟨ts, -, -, hl, -⟩ := hticked.scanned
    refine ⟨⟨_, H'.of_ticked hs hticked (hallowed _ hticked.head)⟩, ?_⟩
    intro s' o' hmem hcaught hhead
    rcases List.mem_cons.mp hmem with heq | hmem
    · obtain ⟨rfl, rfl⟩ := Prod.mk.inj heq
      exact H'.covered hs hticked hcaught hhead
    · intro t h₁ h₂ h₃
      rw [hl]
      exact Ledger.mem_ids_insertAll_of_mem (hcovered s' o' hmem hcaught hhead t h₁ h₂ h₃) ts
  | drift _ hdrift ih =>
    obtain ⟨⟨cs', H'⟩, hcovered⟩ := ih
    refine ⟨⟨cs', H'.drift hdrift⟩, ?_⟩
    rcases hdrift with rfl | ⟨_, -, rfl⟩ <;> exact hcovered

/-! ### Runs that catch up -/

theorem Run.mono {w₀ : Surroundings} {allowed' : UInt64 → Prop} (H : F.Run allowed w₀ trace w)
    (h : ∀ height, allowed height → allowed' height) : F.Run allowed' w₀ trace w := by
  have hdrift : ∀ w w', (F.conduct allowed).drift w w' → (F.conduct allowed').drift w w' := by
    intro w w' hdrift
    exact hdrift.imp_right fun ⟨height, hheight, heq⟩ => ⟨height, h height hheight, heq⟩
  induction H with
  | start => exact .start
  | tick _ hs htick ih =>
    refine .tick ih hs (htick.mono ?_)
    intro w q answer w' hanswers
    obtain ⟨w₁, hd, hanswer⟩ := hanswers
    exact ⟨w₁, hdrift w w₁ hd, hanswer⟩
  | drift _ hd ih => exact .drift ih (hdrift _ _ hd)

theorem Run.trans {w₀ w₁ : Surroundings} (H : F.Run allowed w₀ trace w₁)
    (H' : F.Run allowed w₁ trace' w) : F.Run allowed w₀ (trace' ++ trace) w := by
  induction H' with
  | start => exact H
  | tick _ hs htick ih => exact .tick ih hs htick
  | drift _ hd ih => exact .drift ih hd

/-- A fleet stands on whatever head is stored. -/
theorem Standing.of_head {allowed' : UInt64 → Prop} (H : F.Standing d allowed top cs w)
    (hhead : w.height? (CheckpointKey.head F.chain) 0 = some h) (hallowed : allowed' h) :
    F.Standing d allowed' top cs w := by
  refine { H with stands := fun s hs => ?_ }
  have hw := H.stands s hs
  have hkey : s.task.headKey = CheckpointKey.head F.chain :=
    congrArg CheckpointKey.head (F.chain_eq s hs)
  exact ⟨trivial, hw.guard, ⟨hw.tuned.range, hw.tuned.overlap, h, hkey ▸ hhead, hallowed⟩,
    hw.lastBlock, nofun⟩

theorem Standing.exists_tick (H : F.Standing d (· = top) top cs w) (hs : s ∈ F.scrapers) :
    ∃ o w', F.Run (· = top) w [(s, o)] w' ∧ o.head = top ∧
      F.Standing d (· = top) top (Function.update cs s o.lastScanned) w' ∧
      (o.caughtUp = false → cs s < o.lastScanned ∧ o.lastScanned < top) := by
  obtain ⟨fault | o, w', hrun, hpost⟩ := (H.tick_ensures hs).run.exists_runs
  · exact absurd hpost.fallible conduct_not_fallible
  · have hhead : o.head = top := hpost.head
    refine ⟨o, w', .tick .start hs hrun, hhead,
      H.of_ticked hs hpost (hhead ▸ UInt64.le_refl _), fun hcaught => ?_⟩
    have hlt : o.lastScanned < o.head := by simpa [TickOutcome.caughtUp] using hcaught
    refine ⟨?_, hhead ▸ hlt⟩
    obtain ⟨range, hrange, hwindow⟩ := hpost.window
    rw [hpost.lastScanned, hwindow] at hlt ⊢
    exact Window.lt_max_compute_last hrange hlt

/-- A scraper that goes on ticking catches up. -/
theorem Standing.exists_caughtUp (H : F.Standing d (· = top) top cs w) (hs : s ∈ F.scrapers) :
    ∃ trace w' cs', F.Run (· = top) w trace w' ∧ F.Standing d (· = top) top cs' w' ∧
      ∃ o, (s, o) ∈ trace ∧ o.caughtUp ∧ o.head = top := by
  induction hn : top.toNat - (cs s).toNat using Nat.strongRecOn generalizing cs w with
  | _ n ih =>
    obtain ⟨o, w', hrun, hhead, H', hprogress⟩ := H.exists_tick hs
    cases hcaught : o.caughtUp with
    | true => exact ⟨_, w', _, hrun, H', o, List.mem_singleton.mpr rfl, hcaught, hhead⟩
    | false =>
      obtain ⟨hlt, htop⟩ := hprogress hcaught
      rw [UInt64.lt_iff_toNat_lt] at hlt htop
      obtain ⟨trace, w'', cs'', hrun', H'', o', hmem, h⟩ := ih _ (by
        rw [Function.update_self]
        omega) H' rfl
      exact ⟨_, w'', cs'', hrun.trans hrun', H'', o', List.mem_append_left _ hmem, h⟩

/-- All scrapers of a fleet can catch up. -/
theorem Standing.exists_all_caughtUp (H : F.Standing d (· = top) top cs w) :
    ∃ trace w', F.Run (· = top) w trace w' ∧
      ∀ s ∈ F.scrapers, ∃ o, (s, o) ∈ trace ∧ o.caughtUp ∧ o.head = top := by
  -- The induction is on the scrapers still to catch up; the fleet stays as it is.
  have hsome : ∀ ss : List Scraper, (∀ s ∈ ss, s ∈ F.scrapers) →
      ∃ trace w' cs', F.Run (· = top) w trace w' ∧ F.Standing d (· = top) top cs' w' ∧
        ∀ s ∈ ss, ∃ o, (s, o) ∈ trace ∧ o.caughtUp ∧ o.head = top := by
    intro ss hss
    induction ss with
    | nil => exact ⟨[], w, cs, .start, H, nofun⟩
    | cons s ss ih =>
      obtain ⟨trace, w₁, cs₁, hrun, H₁, hcaught⟩ :=
        ih fun s' hs' => hss s' (List.mem_cons_of_mem s hs')
      obtain ⟨trace', w₂, cs₂, hrun', H₂, o, hmem, ho⟩ :=
        H₁.exists_caughtUp (hss s List.mem_cons_self)
      refine ⟨_, w₂, cs₂, hrun.trans hrun', H₂, fun s' hs' => ?_⟩
      rcases List.mem_cons.mp hs' with rfl | hs'
      · exact ⟨o, List.mem_append_left _ hmem, ho⟩
      · obtain ⟨o', hmem', ho'⟩ := hcaught s' hs'
        exact ⟨o', List.mem_append_right _ hmem', ho'⟩
  obtain ⟨trace, w', -, hrun, -, hcaught⟩ := hsome F.scrapers fun _ hs => hs
  exact ⟨trace, w', hrun, hcaught⟩

end Fleet

end ChainIngest
