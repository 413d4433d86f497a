import Mathlib.Data.List.Pairwise
import ChainIngest.Proofs.Bystanders
import ChainIngest.Proofs.CatchUps
import ChainIngest.Proofs.CheckpointWriters
import ChainIngest.Proofs.HeadRefreshes

/-! Startup while calls fail. Trackers are apart from each other and so are workers; what refreshing
heads comes to, and then catching up, is what each tracker and each worker comes to by itself. A
worker whose calls fail is of no account to the others. -/

namespace ChainIngest

open Process (Idles)

namespace Scheduler

/-- What refreshing heads comes to: each tracker to its own end, and nothing else has changed. -/
structure Refreshed (trackers : List HeadTracker) (ends : HeadTracker → Watched)
    (w₀ : Surroundings) (st : Watched) : Prop where
  heads : ∀ t ∈ trackers,
    t.ComesTo (ends t) (max (w₀.storedHead t.chain) (w₀.chains.head t.node)) st
  rest : Watched.parts.Agree (fun x => (∀ t ∈ trackers, ¬t.party.footprint.writes x) ∧
    x ≠ .inr .scheduler ∧ x ≠ .inr .prices) (.start w₀) st

variable {F : Outages} {trackers : List HeadTracker} {ends : HeadTracker → Watched}
  {w₀ : Surroundings} {st st' : Watched}

theorem Refreshed.congr (H : Refreshed trackers ends w₀ st)
    (h : Watched.parts.Agree (fun x => x ≠ .inr .scheduler ∧ x ≠ .inr .prices) st st') :
    Refreshed trackers ends w₀ st' where
  heads t ht := by
    refine (H.heads t ht).congr (h.mono fun x hx => ⟨?_, ?_⟩)
    · rintro rfl
      cases hx
    · rintro rfl
      cases hx
  rest := H.rest.trans (h.mono fun _ hx => hx.2)

/-- Trackers that have no checkpoint in common, and no node. -/
def TrackersApart (trackers : List HeadTracker) : Prop :=
  trackers.Pairwise fun t t' =>
    CheckpointKey.head t.chain ≠ CheckpointKey.head t'.chain ∧ t.node ≠ t'.node

theorem spares_tracker {t t' : HeadTracker}
    (hheads : CheckpointKey.head t.chain ≠ CheckpointKey.head t'.chain)
    (hnodes : t.node ≠ t'.node) : t.party.footprint.Spares t'.party.footprint := by
  apply Party.spares
  · intro x hwrites hreads
    cases x with
    | text key => exact hreads
    | head chain => exact hheads (Eq.trans (Eq.symm hwrites) hreads)
    | guard guard => exact hnodes (Guard.head.inj (Eq.trans (Eq.symm hwrites) hreads))
    | outside => exact hwrites
  · exact fun heq => hnodes (Caller.tracker.inj heq)

theorem refreshHeadsBy_fulfils (hapart : TrackersApart trackers)
    (hends : ∀ t ∈ trackers, Process.Fulfils (F.Answers.of t.party.caller) t.party.footprint
      (fun _ => t.ComesTo (ends t) (max (w₀.storedHead t.chain) (w₀.chains.head t.node)))
      (.run t.refresh.run) (.start w₀)) :
    (refreshHeadsBy trackers).Fulfils F.Answers .whole
      (fun _ => Refreshed trackers ends w₀) (.start w₀) := by
  let foot (t : HeadTracker) : Footprint Watched.parts := t.party.footprint
  let results : Process (Engine.By Caller) (List (Except Fault UInt64)) :=
    .all (trackers.map fun t => (Process.run t.refresh.run).askedBy (.tracker t.node))
  have hall : results.Fulfils F.Answers (.all trackers foot) (fun _ st => ∀ t ∈ trackers,
      t.ComesTo (ends t) (max (w₀.storedHead t.chain) (w₀.chains.head t.node)) st) (.start w₀) :=
    .all (hapart.imp fun h => ⟨spares_tracker h.1 h.2, spares_tracker h.1.symm h.2.symm⟩)
      fun t ht => (hends t ht).askedBy
  have hreads : ¬(Footprint.all trackers foot).reads (.inr .scheduler) := by
    rintro ⟨t, -, h⟩
    cases h
  refine (hall.thenIdles (fun results => .run (.forM _ fun _ => announceHead_asks ..)) hreads).mono
    .refl ?_
  intro _ st' h
  obtain ⟨⟨results, hheads⟩, hrest⟩ := h
  refine ⟨hheads, hrest.mono ?_⟩
  rintro x ⟨htrackers, hscheduler, -⟩ (⟨t, ht, hwrites⟩ | hwrites)
  · exact htrackers t ht hwrites
  · exact hscheduler hwrites

/-- Scrapers that write no checkpoint in common, and are numbered differently. -/
def ScrapersApart (scrapers : List Scraper) : Prop :=
  scrapers.Pairwise fun s s' => s.task.keys.Disjoint s'.task.keys ∧ s.index ≠ s'.index

theorem ScrapersApart.disjoint {scrapers : List Scraper} (H : ScrapersApart scrapers)
    {s s' : Scraper} (hs : s ∈ scrapers) (hs' : s' ∈ scrapers) (hne : s ≠ s') :
    s.task.keys.Disjoint s'.task.keys := by
  have : Std.Symm fun s s' : Scraper =>
      s.task.keys.Disjoint s'.task.keys ∧ s.index ≠ s'.index :=
    ⟨fun _ _ h => ⟨List.disjoint_symm h.1, h.2.symm⟩⟩
  exact (List.Pairwise.forall H hs hs' hne).1

theorem spares_scraper {s s' : Scraper} (hkeys : s.task.keys.Disjoint s'.task.keys)
    (hindex : s.index ≠ s'.index) : s.party.footprint.Spares s'.party.footprint := by
  apply Party.spares
  · intro x hwrites hreads
    cases x with
    | text key =>
      rcases hwrites with hmem | rfl
      · exact hkeys hmem hreads
      · exact ScanTask.key_ne_head hreads rfl
    | head chain => exact hwrites
    | guard guard => exact hindex (Guard.scraper.inj (Eq.trans (Eq.symm hwrites) hreads))
    | outside => exact hwrites
  · exact fun heq => hindex (Caller.task.inj heq)

/-- What catching up comes to: each worker to its own end, and nothing else has changed. -/
structure CaughtUp (scrapers : List Scraper) (ends : Scraper → Watched) (targets : Scraper → UInt64)
    (st st' : Watched) : Prop where
  workers : ∀ s ∈ scrapers, s.task.enabled → s.CatchesUp (ends s) (targets s) st'
  rest : Watched.parts.Agree (fun x =>
    (∀ s ∈ scrapers, s.task.enabled → ¬s.party.footprint.writes x) ∧ x ≠ .inr .scheduler) st st'

variable {scrapers : List Scraper} {lasts : Scraper → Watched} {targets : Scraper → UInt64}

theorem catchUpBy_fulfils (hapart : ScrapersApart scrapers)
    (hlasts : ∀ s ∈ scrapers, s.task.enabled →
      Process.Fulfils (F.Answers.of s.party.caller) s.party.footprint
        (fun _ => s.CatchesUp (lasts s) (targets s)) (CatchUp.worker s) st) :
    (catchUpBy scrapers).Fulfils F.Answers .whole
      (fun _ st' => CaughtUp scrapers lasts targets st st') st := by
  have henabled : ∀ s, s ∈ scrapers.filter (·.task.enabled) ↔ s ∈ scrapers ∧ s.task.enabled :=
    fun s => List.mem_filter
  let foot (s : Scraper) : Footprint Watched.parts := s.party.footprint
  let tells : Footprint Watched.parts := .ofCaller .scheduler
  refine .andThen ((Idles.tell F .scheduler _).keeps.mono .refl ?_)
  intro _ st₁ hkept
  have hworkers : ∀ s ∈ scrapers.filter (·.task.enabled), Process.Fulfils F.Answers (foot s)
      (fun p st' => p.Asks Engine.Idle ∧ s.CatchesUp (lasts s) (targets s) st')
      (((CatchUp.worker s).askedBy (.task s.index)).map (CatchUp.announce s)) st₁ := by
    intro s hs
    have hunread : ∀ x, s.party.footprint.reads x → ¬tells.writes x := by
      rintro x hreads rfl
      cases hreads
    have hworker := (hlasts s ((henabled s).mp hs).1 ((henabled s).mp hs).2).shift
      (hkept.mono hunread)
    exact .map (hworker.askedBy.mono .refl fun result _ h => ⟨CatchUp.announce_asks s result, h⟩)
  have hall : (Process.allInOrder (·.askedBy .scheduler) ((scrapers.filter (·.task.enabled)).map
      fun s => ((CatchUp.worker s).askedBy (.task s.index)).map (CatchUp.announce s))).Fulfils
      F.Answers (tells.join (.all (scrapers.filter (·.task.enabled)) foot))
      (fun _ st' => ∀ s ∈ scrapers.filter (·.task.enabled),
        s.CatchesUp (lasts s) (targets s) st') st₁ := by
    refine .allInOrder (fun p st' h => (Idles.run h st').askedBy) ?_ nofun
      ((hapart.filter _).imp fun h =>
        ⟨spares_scraper h.1 h.2, spares_scraper (List.disjoint_symm h.1) h.2.symm⟩) hworkers
    refine fun s _ => ⟨?_, nofun⟩
    rintro x rfl h
    cases h
  have hreads : ¬(tells.join (.all (scrapers.filter (·.task.enabled)) foot)).reads
      (.inr .scheduler) := by
    rintro (h | ⟨s, -, h⟩)
    · exact h
    · cases h
  refine (hall.thenIdles (fun _ => Idles.tell F .scheduler _) hreads).mono .refl ?_
  intro _ st₂ h
  obtain ⟨⟨_, hworkers⟩, hrest⟩ := h
  refine ⟨fun s hs hon => hworkers s ((henabled s).mpr ⟨hs, hon⟩), ?_⟩
  refine (hkept.mono fun x hx => hx.2).trans (hrest.mono ?_)
  rintro x ⟨hscrapers, hscheduler⟩ ((hwrites | ⟨s, hs, hwrites⟩) | hwrites)
  · exact hscheduler hwrites
  · exact hscrapers s ((henabled s).mp hs).1 ((henabled s).mp hs).2 hwrites
  · exact hscheduler hwrites

/-- A scheduler can begin: no two of its trackers or scrapers share what they write, the checkpoints
that are there hold numbers, no range is zero, and nothing else is under way. -/
structure Ready (S : Scheduler) (w : Surroundings) : Prop where
  trackers : TrackersApart S.trackers
  scrapers : ScrapersApart S.scrapers
  heads : ∀ t ∈ S.trackers, ∃ head, w.height? (CheckpointKey.head t.chain) 0 = some head
  readings : ∀ s ∈ S.scrapers, s.task.enabled → ∀ key initial,
    (key, initial) ∈ s.task.readings → ∃ height, w.height? key initial = some height
  ranges : ∀ s ∈ S.scrapers, s.task.enabled →
    w.height? s.task.scanRangeKey s.task.scanRange ≠ some 0
  free : ∀ guard, w.held guard = false
  goesOn : w.cancelled = false

/-- Startup, of which the two parts are known: it ends, and ends as they do. -/
theorem startupBy_fulfils {S : Scheduler} {post : Watched → Prop}
    (hheads : (refreshHeadsBy S.trackers).Fulfils F.Answers .whole
      (fun _ => Refreshed S.trackers ends w₀) (.start w₀))
    (hscrapes : ∀ st, Refreshed S.trackers ends w₀ st →
      (catchUpBy S.scrapers).Fulfils F.Answers .whole (fun _ => post) st) :
    S.startupBy.Fulfils F.Answers .whole (fun _ => post) (.start w₀) := by
  unfold startupBy
  refine .andThen (hheads.mono .refl ?_)
  intro _ st hst
  refine .andThen (Aggregator.snapshotPrices_idles.keeps.mono .refl ?_)
  intro result st₁ hkept
  have hst₁ : Refreshed S.trackers ends w₀ st₁ := hst.congr (hkept.mono fun x hx => hx.2)
  cases result with
  | ok value => exact hscrapes st₁ hst₁
  | error fault =>
    refine .andThen ((Idles.tell F .scheduler _).keeps.mono .refl ?_)
    intro _ st₂ hkept₂
    exact hscrapes st₂ (hst₁.congr (hkept₂.mono fun x hx => hx.1))

/-! ### What a worker finds -/

namespace Refreshed

variable {s : Scraper}

/-- What a tracker writes of what a worker reads it reads itself. -/
theorem reads_of_writes {t : HeadTracker} {x : Watched.parts.Name}
    (hwrites : t.party.footprint.writes x) (hreads : s.party.footprint.reads x) :
    t.party.footprint.reads x := by
  cases x with
  | inl x =>
    cases x with
    | text key => exact absurd hwrites (ScanTask.key_ne_head hreads)
    | head chain => exact hwrites
    | guard guard => cases Eq.trans (Eq.symm hwrites) hreads
    | outside => exact absurd hwrites id
  | inr i => cases Eq.trans (Eq.symm hwrites) hreads

theorem unwritten {x : Watched.parts.Name} (H : Refreshed trackers ends w₀ st)
    (hreads : s.party.footprint.reads x)
    (hwrites : ∀ t ∈ trackers, ¬t.party.footprint.writes x) :
    Watched.parts.content x (.start w₀) = Watched.parts.content x st := by
  refine H.rest x ⟨hwrites, ?_, ?_⟩
  · rintro rfl
    cases hreads
  · rintro rfl
    cases hreads

/-- However heads have been refreshed, a worker cannot tell. -/
theorem like (H : Refreshed trackers ends w₀ st) (H' : Refreshed trackers ends w₀ st') :
    s.party.Like st st' := by
  intro x hreads
  by_cases hwrites : ∃ t ∈ trackers, t.party.footprint.writes x
  · obtain ⟨t, ht, hwrites⟩ := hwrites
    have hread := reads_of_writes hwrites hreads
    exact ((H.heads t ht).like x hread).symm.trans ((H'.heads t ht).like x hread)
  · have hnone : ∀ t ∈ trackers, ¬t.party.footprint.writes x := fun t ht h => hwrites ⟨t, ht, h⟩
    exact (H.unwritten hreads hnone).symm.trans (H'.unwritten hreads hnone)

theorem text {key : String} (H : Refreshed trackers ends w₀ st) (hkey : key ∈ s.task.keys) :
    w₀.store.checkpoints.get? key = st.world.store.checkpoints.get? key :=
  H.unwritten (s := s) (x := .inl (.text key)) hkey fun _ _ => ScanTask.key_ne_head hkey

/-- The head of a worker's chain can be read. -/
theorem exists_head (H : Refreshed trackers ends w₀ st)
    (hreads : ∃ head, w₀.height? s.task.headKey 0 = some head) :
    ∃ head, st.world.height? s.task.headKey 0 = some head := by
  by_cases hwrites : ∃ t ∈ trackers, t.party.footprint.writes (.inl (.head s.task.chain))
  · obtain ⟨t, ht, hkey⟩ := hwrites
    have hsame : s.task.headKey = CheckpointKey.head t.chain := hkey
    exact hsame ▸ (H.heads t ht).numeric
  · have htext : w₀.headText s.task.chain = st.world.headText s.task.chain :=
      H.unwritten (s := s) (x := .inl (.head s.task.chain)) (Eq.refl _)
        fun t ht h => hwrites ⟨t, ht, h⟩
    obtain ⟨head, hhead⟩ := hreads
    exact ⟨head, (Surroundings.height?_head_congr htext).symm.trans hhead⟩

/-- A worker that is ready stands where its checkpoints say. -/
theorem standsAt {S : Scheduler} (hready : S.Ready w₀) (H : Refreshed S.trackers ends w₀ st)
    (hs : s ∈ S.scrapers) (hon : s.task.enabled)
    (hlast : w₀.height? s.task.lastBlockKey s.task.startBlock = some c) :
    ∃ overlap, s.StandsAt overlap (st.world.storedHead s.task.chain) c false false st.world := by
  have hheight : ∀ {key initial}, key ∈ s.task.keys →
      st.world.height? key initial = w₀.height? key initial :=
    fun hkey => Checkpoints.height?_congr (H.text hkey).symm
  have hkeys : s.task.lastBlockKey ∈ s.task.keys ∧ s.task.scanRangeKey ∈ s.task.keys ∧
      s.task.overlapKey ∈ s.task.keys := by simp [ScanTask.keys]
  obtain ⟨overlap, hoverlap⟩ := hready.readings s hs hon _ _ ScanTask.overlap_mem
  obtain ⟨range, hrange⟩ := hready.readings s hs hon _ _ ScanTask.scanRange_mem
  obtain ⟨head, hhead⟩ := H.exists_head (hready.readings s hs hon _ _ ScanTask.head_mem)
  have hstored : st.world.storedHead s.task.chain = head := congrArg (·.getD 0) hhead
  have hguard : w₀.held s.guard = st.world.held s.guard :=
    H.unwritten (s := s) (x := .inl (.guard s.guard)) (Eq.refl _) fun t _ h =>
      absurd (show Guard.scraper s.index = Guard.head t.node from h) Guard.noConfusion
  have houtside : (w₀.chains, w₀.store.recipients, w₀.cancelled) =
      (st.world.chains, st.world.store.recipients, st.world.cancelled) :=
    H.unwritten (s := s) (x := .inl .outside) trivial fun _ _ => id
  have hcancelled : w₀.cancelled = st.world.cancelled :=
    (Prod.mk.inj (Prod.mk.inj houtside).2).2
  have hne : range ≠ 0 := fun hzero => hready.ranges s hs hon (hzero ▸ hrange)
  exact ⟨overlap, hcancelled.symm.trans hready.goesOn, hguard.symm.trans (hready.free s.guard),
    ⟨⟨range, (hheight hkeys.2.1).trans hrange, hne⟩, (hheight hkeys.2.2).trans hoverlap,
      ⟨head, hhead, hstored.symm⟩⟩, (hheight hkeys.1).trans hlast,
    fun h => absurd h Bool.false_ne_true⟩

end Refreshed

/-! ### Startup -/

/-- What startup leaves behind. A chain's stored head, if no call of its refresh has failed, is what
has been stored or what its node tells, whichever is higher. A task's last block, if no call of its
own has failed, is where it has been or at the stored head, whichever is higher. -/
structure StartedUp (S : Scheduler) (w₀ : Surroundings) (st : Watched) : Prop where
  heads : ∀ t ∈ S.trackers, st.failed (.tracker t.node) = false →
    st.world.storedHead t.chain = max (w₀.storedHead t.chain) (w₀.chains.head t.node)
  caughtUp : ∀ s ∈ S.scrapers, s.task.enabled → st.failed (.task s.index) = false →
    ∀ initial, w₀.height? s.task.lastBlockKey s.task.startBlock = some initial →
      st.world.store.checkpoints.Holds s.task.lastBlockKey
        (max initial (st.world.storedHead s.task.chain))
  disabled : ∀ s ∈ S.scrapers, s.task.enabled = false → ∀ key ∈ s.task.keys,
    st.world.store.checkpoints.get? key = w₀.store.checkpoints.get? key

/-- Where a worker is to bring its last block, once heads have been refreshed. -/
def target (w₀ : Surroundings) (st : Watched) (s : Scraper) : UInt64 :=
  max ((w₀.height? s.task.lastBlockKey s.task.startBlock).getD 0)
    (st.world.storedHead s.task.chain)

variable {S : Scheduler}

theorem exists_refreshed (hready : S.Ready w₀) (F : Outages) :
    ∃ ends, (refreshHeadsBy S.trackers).Fulfils F.Answers .whole
      (fun _ => Refreshed S.trackers ends w₀) (.start w₀) := by
  have hends : ∀ t ∈ S.trackers, ∃ last,
      Process.Fulfils (F.Answers.of t.party.caller) t.party.footprint
        (fun _ => t.ComesTo last (max (w₀.storedHead t.chain) (w₀.chains.head t.node)))
        (.run t.refresh.run) (.start w₀) := by
    intro t ht
    obtain ⟨stored, hstored⟩ := hready.heads t ht
    have hst : t.StandsAt stored (w₀.chains.head t.node) false (Watched.start w₀).world :=
      ⟨hstored, rfl, hready.free t.guard⟩
    have hsame : w₀.storedHead t.chain = stored := congrArg (·.getD 0) hstored
    obtain ⟨last, hlast⟩ := HeadTracker.refresh_fulfils (F := F) hst
    exact ⟨last, hsame ▸ hlast _ (.refl _)⟩
  have : Nonempty Watched := ⟨.start w₀⟩
  choose! ends hends using hends
  exact ⟨ends, refreshHeadsBy_fulfils hready.trackers hends⟩

theorem exists_caughtUp (hready : S.Ready w₀) (F : Outages)
    (hst : Refreshed S.trackers ends w₀ st) :
    ∃ lasts, ∀ scrapers, scrapers.Sublist S.scrapers → ∀ st₁, Refreshed S.trackers ends w₀ st₁ →
      (catchUpBy scrapers).Fulfils F.Answers .whole
        (fun _ => CaughtUp scrapers lasts (target w₀ st) st₁) st₁ := by
  have hlasts : ∀ s ∈ S.scrapers, s.task.enabled → ∃ last, ∀ st', s.party.Like st st' →
      Process.Fulfils (F.Answers.of s.party.caller) s.party.footprint
        (fun _ => s.CatchesUp last (target w₀ st s)) (CatchUp.worker s) st' := by
    intro s hs hon
    obtain ⟨initial, hinitial⟩ := hready.readings s hs hon _ _ ScanTask.lastBlock_mem
    obtain ⟨overlap, hstands⟩ := hst.standsAt hready hs hon hinitial
    have htarget : target w₀ st s = max initial (st.world.storedHead s.task.chain) := by
      rw [target, hinitial, Option.getD_some]
    exact htarget ▸ Scraper.worker_fulfils hstands
  have : Nonempty Watched := ⟨.start w₀⟩
  choose! lasts hlasts using hlasts
  refine ⟨lasts, fun scrapers hsub st₁ hst₁ => catchUpBy_fulfils (hready.scrapers.sublist hsub) ?_⟩
  exact fun s hs hon => hlasts s (hsub.subset hs) hon st₁ (hst.like hst₁)

/-- Workers leave the heads alone. -/
theorem CaughtUp.storedHead (H : CaughtUp scrapers lasts targets st st') (chain : String) :
    st'.world.storedHead chain = st.world.storedHead chain := by
  have htext : st.world.headText chain = st'.world.headText chain :=
    H.rest (.inl (.head chain)) ⟨fun _ _ _ => id, nofun⟩
  exact congrArg (·.getD 0) (Surroundings.height?_head_congr htext).symm

theorem StartedUp.of_caughtUp {st₁ st₂ : Watched} (hready : S.Ready w₀)
    (hst : Refreshed S.trackers ends w₀ st) (hst₁ : Refreshed S.trackers ends w₀ st₁)
    (H : CaughtUp S.scrapers lasts (target w₀ st) st₁ st₂) : S.StartedUp w₀ st₂ where
  heads t ht hok := by
    have hnoted := H.rest (.inr (.tracker t.node)) ⟨fun _ _ _ => nofun, nofun⟩
    have hfailed : st₁.failed (.tracker t.node) = st₂.failed (.tracker t.node) :=
      (Prod.mk.inj hnoted).2
    have hhead := (hst₁.heads t ht).refreshed (hfailed.trans hok)
    exact (H.storedHead t.chain).trans (congrArg (·.getD 0) hhead)
  caughtUp s hs hon hok initial hinitial := by
    have hhead : st.world.headText s.task.chain = st₁.world.headText s.task.chain :=
      hst.like hst₁ (s := s) (.inl (.head s.task.chain)) (Eq.refl _)
    have hstored : st.world.storedHead s.task.chain = st₂.world.storedHead s.task.chain :=
      (congrArg (·.getD 0) (Surroundings.height?_head_congr hhead)).trans (H.storedHead _).symm
    have hholds := (H.workers s hs hon).lastBlock hok
    rw [target, hinitial, Option.getD_some, hstored] at hholds
    exact hholds
  disabled s hs hoff key hkey := by
    have hunwritten : ∀ s' ∈ S.scrapers, s'.task.enabled →
        ¬s'.party.footprint.writes (.inl (.text key)) := by
      rintro s' hs' hon (hmem | hhead)
      · have hne : s ≠ s' := by
          rintro rfl
          exact absurd hon (Bool.eq_false_iff.mp hoff)
        exact hready.scrapers.disjoint hs hs' hne hkey hmem
      · exact ScanTask.key_ne_head hkey hhead
    exact (H.rest (.inl (.text key)) ⟨hunwritten, nofun⟩).symm.trans (hst₁.text hkey).symm

/-- Whichever calls fail, and however the workers go on beside each other, startup ends. The tasks
that have had no failure are then at their heads. Where any task's last block is has been settled by
the task alone: if no other one is started it is the same. -/
theorem startup_isolates_failures {S : Scheduler} {w₀ : Surroundings} (hready : S.Ready w₀)
    (F : Outages) :
    S.startupBy.erase = S.startup ∧ ∃ texts : Scraper → Option String,
      S.startupBy.Ends F.Answers (fun _ st => S.StartedUp w₀ st ∧
        ∀ s ∈ S.scrapers, s.task.enabled →
          st.world.store.checkpoints.get? s.task.lastBlockKey = texts s) (.start w₀) ∧
      ∀ s ∈ S.scrapers, s.task.enabled →
        ({ S with scrapers := [s] } : Scheduler).startupBy.Ends F.Answers
          (fun _ st => st.world.store.checkpoints.get? s.task.lastBlockKey = texts s)
          (.start w₀) := by
  -- Where trackers and workers end is settled here, before it is said which tasks are started: it
  -- is the same beside all other tasks and alone.
  obtain ⟨ends, hheads⟩ := exists_refreshed hready F
  obtain ⟨_, st, hst⟩ := hheads.ends.exists_post
  obtain ⟨lasts, hscrapes⟩ := exists_caughtUp hready F hst
  have hends : ∀ scrapers, scrapers.Sublist S.scrapers →
      ({ S with scrapers } : Scheduler).startupBy.Ends F.Answers
        (fun _ st₂ => ∃ st₁, Refreshed S.trackers ends w₀ st₁ ∧
          CaughtUp scrapers lasts (target w₀ st) st₁ st₂) (.start w₀) := by
    intro scrapers hsub
    refine (startupBy_fulfils (S := { S with scrapers }) hheads fun st₁ hst₁ => ?_).ends
    exact (hscrapes scrapers hsub st₁ hst₁).mono .refl fun _ st₂ h => ⟨st₁, hst₁, h⟩
  have htext : ∀ {scrapers st₁ st₂ s}, CaughtUp scrapers lasts (target w₀ st) st₁ st₂ →
      s ∈ scrapers → s.task.enabled → st₂.world.store.checkpoints.get? s.task.lastBlockKey =
        (lasts s).world.store.checkpoints.get? s.task.lastBlockKey := by
    intro scrapers st₁ st₂ s H hs hon
    have hmem : s.task.lastBlockKey ∈ s.task.keys := by simp [ScanTask.keys]
    exact ((H.workers s hs hon).like (.inl (.text s.task.lastBlockKey)) hmem).symm
  refine ⟨startupBy_erase S,
    fun s => (lasts s).world.store.checkpoints.get? s.task.lastBlockKey, ?_, fun s hs hon => ?_⟩
  · refine (hends S.scrapers (.refl _)).mono ?_
    rintro _ st₂ ⟨st₁, hst₁, H⟩
    exact ⟨.of_caughtUp hready hst hst₁ H, fun s hs hon => htext H hs hon⟩
  · refine (hends [s] (List.singleton_sublist.mpr hs)).mono ?_
    rintro _ st₂ ⟨st₁, -, H⟩
    exact htext H List.mem_cons_self hon

end Scheduler

/-- All calls fail of the second task, and of what asks for prices. -/
def Outages.sample : Outages
  | .task 1, _, _ | .prices, _, _ => some (.reported "unavailable" [])
  | _, _, _ => none

/-- The samples' scrapers and one that is disabled, with a tracker of their chain. -/
def Scheduler.sample : Scheduler where
  cadences := ⟨12, 20, 60⟩
  trackers := [⟨"mainnet", .poll, 0, [], HeadTracker.defaultResubscribeDelay⟩]
  scrapers := [.sampleToken, .sampleNative,
    ⟨2, ⟨"mainnet", 1, "OFF", .token (.zero 20), 18, false, 5, 2, 10⟩, 0, []⟩]
  aggregator := ⟨.zero 20, .zero 20, .zero 20, .zero⟩

theorem Scheduler.sample_ready : sample.Ready .sample where
  trackers := List.pairwise_singleton ..
  scrapers := by
    simp only [ScrapersApart, sample, ScanTask.keys_disjoint_iff]
    decide
  heads t ht := by
    obtain rfl := List.mem_singleton.mp ht
    exact ⟨30, (Checkpoints.holds_put ..).height?⟩
  readings s hs hon key initial h := by
    simp only [sample, List.mem_cons, List.not_mem_nil, or_false] at hs
    rcases hs with rfl | rfl | rfl
    · exact Stream.sampleToken_begins.tuned.numeric Stream.sampleToken_begins.lastBlock h
    · exact Stream.sampleNative_begins.tuned.numeric Stream.sampleNative_begins.lastBlock h
    · cases hon
  ranges s hs hon := by
    simp only [sample, List.mem_cons, List.not_mem_nil, or_false] at hs
    rcases hs with rfl | rfl | rfl
    · obtain ⟨range, hrange, hne⟩ := Stream.sampleToken_begins.tuned.range
      exact fun hzero => hne (Option.some.inj (hrange.symm.trans hzero))
    · obtain ⟨range, hrange, hne⟩ := Stream.sampleNative_begins.tuned.range
      exact fun hzero => hne (Option.some.inj (hrange.symm.trans hzero))
    · cases hon
  free _ := rfl
  goesOn := rfl

/-- The first task is brought to the head although all calls of the second one fail, and no
checkpoint is created for the disabled one. -/
theorem Scheduler.sample_startup :
    sample.startupBy.Ends Outages.sample.Answers (fun _ st =>
      st.world.store.checkpoints.Holds "last_block_mainnet_sups" 30 ∧
        st.world.store.checkpoints.get? "last_block_mainnet_off" = none) (.start .sample) := by
  obtain ⟨-, texts, hends, -⟩ := startup_isolates_failures sample_ready Outages.sample
  have htracker := hends.and_kept (J := fun st => st.failed (.tracker 0) = false)
    (Outages.unfailed fun _ _ => rfl) rfl
  have htask := htracker.and_kept (J := fun st => st.failed (.task 0) = false)
    (Outages.unfailed fun _ _ => rfl) rfl
  refine htask.mono ?_
  rintro _ st ⟨⟨⟨hstarted, -⟩, htracker⟩, htask⟩
  have hhead : st.world.storedHead "mainnet" = 30 :=
    (hstarted.heads _ List.mem_cons_self htracker).trans (by decide)
  have hlast := hstarted.caughtUp .sampleToken List.mem_cons_self rfl htask 10
    Stream.sampleToken_begins.lastBlock
  have hoff := hstarted.disabled _ (List.mem_of_getElem? (i := 2) rfl) rfl
    "last_block_mainnet_off" (by decide)
  refine ⟨?_, hoff.trans (by decide)⟩
  rw [show Scraper.sampleToken.task.chain = "mainnet" from rfl, hhead] at hlast
  exact hlast

end ChainIngest
