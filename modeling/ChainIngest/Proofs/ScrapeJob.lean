import Mathlib.Algebra.GroupWithZero.Nat
import ChainIngest.Proofs.Reachability
import ChainIngest.Proofs.RowCounts
import ChainIngest.Proofs.Startup

/-! The scrape job ticks all enabled scrapers at the same time. In whichever order the ticks go on,
the job leaves the checkpoints and the identities that the ticks leave one after another, and adds
as many rows. A record that two tasks find is counted by whichever comes first. -/

namespace ChainIngest

/-- Two stores hold the same checkpoints, and rows of the same identities. -/
structure Store.SameContents (a b : Store) : Prop where
  checkpoints : ∀ key, a.checkpoints.get? key = b.checkpoints.get? key
  ids : ∀ id, id ∈ a.ledger.ids ↔ id ∈ b.ledger.ids
  rows : ∀ id, (∃ t ∈ a.ledger.rows, t.id = id) ↔ ∃ t ∈ b.ledger.rows, t.id = id

namespace Scraper

variable {s : Scraper} {F : Outages} {w₀ : Surroundings} {st : Watched}

/-- A tick ends if nobody holds the scraper's guard. -/
theorem tick_abides (hfree : st.world.held s.guard = false) :
    s.tick.run.Abides (s.party.pact F) (fun _ _ => True) st := by
  have hallows : (s.party.pact F).Allows s.AsksHeld fun _ => True :=
    Party.allows (fun _ hq => hq.works) (fun _ _ => trivial)
      (fun hq => absurd hq AsksHeld.not_acquire) fun _ _ _ => trivial
  have hstable : (s.party.pact F).Stable fun st => st.world.held s.guard = false := by
    intro st st' h hrely
    exact ((Party.like_iff.mp hrely).1 (.guard s.guard) (Eq.refl _)).symm.trans h
  refine s.party.guarded (fun _ _ => True) (Eq.refl s.guard) (Eq.refl s.guard) hstable ?stableMid
    (fun _ h => h) ?body (fun _ _ h => h) hfree
  case stableMid => exact fun _ _ _ _ _ => trivial
  case body => exact fun _ _ => tickHeld_asks.abides hallows trivial

/-- What a tick comes to: it cannot be told from `last`, and it tells how many rows it has added
unless calls are to fail. -/
structure TicksTo (s : Scraper) (F : Outages) (last : Noted) (result : Except Fault TickOutcome)
    (st : Noted) : Prop where
  alike : s.party.AlikeIn last st
  counts : (∀ i n q, F i n q = none) → CountsRows result (st.deeds s.party.caller).added

theorem tick_fulfils (F : Outages) (hfree : w₀.held s.guard = false) :
    ∃ last, Process.Fulfils (F.Notes.of s.party.caller) s.party.noting (s.TicksTo F last)
      (.run s.tick.run) (.start w₀) := by
  have hcounts (result : Except Fault TickOutcome) (st : Noted)
      (hrun : s.tick.run.Runs (s.party.notedPact F).among (.start w₀) result st)
      (hF : ∀ i n q, F i n q = none) : CountsRows result (st.deeds s.party.caller).added :=
    tick_counts.of_runs (Party.runs_rowCount hF hrun)
  have hgoes : s.tick.run.Alike s.party.asks True (ResultsAlike True OutcomesAlike) s.tick.run :=
    tick_alike
  have habides : s.tick.run.Abides (s.party.pact F) (fun _ _ => True) (Noted.start w₀).watched :=
    tick_abides hfree
  obtain ⟨last, hlast⟩ := Party.fulfils_alike
    (K := fun result d => (∀ i n q, F i n q = none) → CountsRows result d.added)
    hgoes habides hcounts
  exact ⟨last, hlast.mono .refl fun _ _ h => ⟨h.1, h.2⟩⟩

end Scraper

namespace Scheduler

/-- A tick, asked by its task. -/
def tickBy (s : Scraper) : Process (Engine.By Caller) (Except Fault TickOutcome) :=
  (Process.run s.tick.run).askedBy (.task s.index)

/-- The ticks of the scrape job. -/
def ticksBy (scrapers : List Scraper) :
    Process (Engine.By Caller) (List (Except Fault TickOutcome)) :=
  .all ((scrapers.filter (·.task.enabled)).map tickBy)

/-- The same ticks, one after another. -/
def ticksInOrderBy (scrapers : List Scraper) :
    Process (Engine.By Caller) (List (Except Fault TickOutcome)) :=
  .inOrder ((scrapers.filter (·.task.enabled)).map tickBy)

/-- The scrape job, with who asks each query. -/
def scrapeTransfersBy (scrapers : List Scraper) : Process (Engine.By Caller) Unit := do
  let enabled := scrapers.filter (·.task.enabled)
  let results ← ticksBy scrapers
  let announced : Program Engine Unit := do
    announceScrapes (enabled.zip results)
    if 0 < emittedBy results then Engine.tell (.scraped (emittedBy results) enabled.length)
  (Process.run announced).askedBy .scheduler

theorem scrapeTransfersBy_erase (scrapers : List Scraper) :
    (scrapeTransfersBy scrapers).erase = scrapeTransfers scrapers := by
  unfold scrapeTransfersBy scrapeTransfers ticksBy tickBy
  simp only [Process.erase_bind, Process.erase_all, List.map_map, Function.comp_def,
    Process.erase_askedBy]

/-- What the ticks of some scrapers come to: each to its own end, nothing else has changed, and what
is in the store is accounted for. -/
structure Scraped (scrapers : List Scraper) (F : Outages) (lasts : Scraper → Noted)
    (w₀ : Surroundings) (results : List (Except Fault TickOutcome)) (st : Noted) : Prop where
  ticks : List.Forall₂ (fun s result => s.TicksTo F (lasts s) result st) scrapers results
  rest : Noted.parts.Agree (¬(Footprint.all scrapers (·.party.noting)).writes ·) (.start w₀) st
  accounted : st.Accounted w₀

namespace Scraped

variable {scrapers : List Scraper} {F : Outages} {lasts : Scraper → Noted} {w₀ : Surroundings}
  {results results' : List (Except Fault TickOutcome)} {st st' : Noted}

theorem alike (H : Scraped scrapers F lasts w₀ results st) :
    ∀ s ∈ scrapers, s.party.AlikeIn (lasts s) st := by
  have halike : List.Forall₂ (fun s _ => s.party.AlikeIn (lasts s) st ∧ True) scrapers results :=
    H.ticks.imp fun _ _ h => ⟨h.alike, trivial⟩
  exact ((List.forall₂_and_left _ _).mp halike).1

/-- Who is not among the callers of the ticks has done nothing. -/
theorem deeds_of_notMem (H : Scraped scrapers F lasts w₀ results st) {i : Caller}
    (hi : ∀ s ∈ scrapers, i ≠ s.party.caller) : st.deeds i = .none := by
  refine (H.rest (.inr i) ?_).symm
  rintro ⟨s, hs, heq⟩
  exact hi s hs heq

theorem same_deeds (H : Scraped scrapers F lasts w₀ results st)
    (H' : Scraped scrapers F lasts w₀ results' st') (i : Caller) :
    (st.deeds i).Same (st'.deeds i) := by
  by_cases hi : ∃ s ∈ scrapers, i = s.party.caller
  · obtain ⟨s, hs, rfl⟩ := hi
    exact (H.alike s hs).symm.same.trans (H'.alike s hs).same
  · have hnone : ∀ s ∈ scrapers, i ≠ s.party.caller := fun s hs heq => hi ⟨s, hs, heq⟩
    rw [H.deeds_of_notMem hnone, H'.deeds_of_notMem hnone]
    exact ⟨rfl, rfl⟩

/-- What no tick writes is as it has been. -/
theorem unwritten {x : Part} (H : Scraped scrapers F lasts w₀ results st)
    (hx : ∀ s ∈ scrapers, ¬s.Touches x) :
    Surroundings.parts.content x w₀ = Surroundings.parts.content x st.watched.world := by
  refine H.rest (.inl (.inl x)) ?_
  rintro ⟨s, hs, hwrites⟩
  exact hx s hs hwrites

theorem get?_eq (H : Scraped scrapers F lasts w₀ results st)
    (H' : Scraped scrapers F lasts w₀ results' st') (key : String) :
    st.watched.world.store.checkpoints.get? key =
      st'.watched.world.store.checkpoints.get? key := by
  by_cases hown : ∃ s ∈ scrapers, key ∈ s.task.keys
  · obtain ⟨s, hs, hkey⟩ := hown
    have hlast := (H.alike s hs).like (.inl (.text key)) hkey
    exact hlast.symm.trans ((H'.alike s hs).like (.inl (.text key)) hkey)
  by_cases hhead : ∃ s ∈ scrapers, key = s.task.headKey
  · obtain ⟨s, -, rfl⟩ := hhead
    -- Ticks do not write heads, but they create those that are not there: whether they do is known
    -- from what they have done.
    have htext := (H.unwritten (x := .head s.task.chain) fun _ _ => id).symm.trans
      (H'.unwritten (x := .head s.task.chain) fun _ _ => id)
    refine Surroundings.get?_head_congr htext ?_
    refine (H.accounted.keys _).trans (Iff.trans ?_ (H'.accounted.keys _).symm)
    exact or_congr_right (exists_congr fun i => by rw [(H.same_deeds H' i).keys])
  · have hkey : ∀ s ∈ scrapers, ¬s.Touches (.text key) := by
      intro s hs hwrites
      rcases hwrites with hmem | heq
      · exact hown ⟨s, hs, hmem⟩
      · exact hhead ⟨s, hs, heq⟩
    have hsame : w₀.store.checkpoints.get? key = st.watched.world.store.checkpoints.get? key :=
      H.unwritten hkey
    exact hsame.symm.trans (H'.unwritten hkey)

theorem mem_ids_iff (H : Scraped scrapers F lasts w₀ results st)
    (H' : Scraped scrapers F lasts w₀ results' st') (id : TransferId) :
    id ∈ st.watched.world.store.ledger.ids ↔ id ∈ st'.watched.world.store.ledger.ids := by
  rw [H.accounted.ids, H'.accounted.ids]
  exact or_congr_right (exists_congr fun i => by rw [(H.same_deeds H' i).ids])

theorem sameContents (H : Scraped scrapers F lasts w₀ results st)
    (H' : Scraped scrapers F lasts w₀ results' st') :
    st.watched.world.store.SameContents st'.watched.world.store where
  checkpoints := H.get?_eq H'
  ids := H.mem_ids_iff H'
  rows id := by
    obtain ⟨rows, hgrows, -⟩ := H.accounted.rows
    obtain ⟨rows', hgrows', -⟩ := H'.accounted.rows
    rw [hgrows.exists_row_iff, hgrows'.exists_row_iff, H.mem_ids_iff H' id]

theorem length_rows_eq (H : Scraped scrapers F lasts w₀ results st)
    (H' : Scraped scrapers F lasts w₀ results' st') :
    st.watched.world.store.ledger.rows.length = st'.watched.world.store.ledger.rows.length := by
  obtain ⟨rows, hgrows, -⟩ := H.accounted.rows
  obtain ⟨rows', hgrows', -⟩ := H'.accounted.rows
  rw [hgrows.rows, hgrows'.rows, List.length_append, List.length_append,
    hgrows.length_eq hgrows' (H.mem_ids_iff H')]

theorem emittedBy_eq (H : Scraped scrapers F lasts w₀ results st) (hF : ∀ i n q, F i n q = none) :
    emittedBy results = (scrapers.map fun s => (st.deeds s.party.caller).added).sum := by
  have hcounts : List.Forall₂ (fun s result =>
      Scraper.CountsRows result (st.deeds s.party.caller).added) scrapers results :=
    H.ticks.imp fun _ _ h => h.counts hF
  clear H
  induction hcounts with
  | nil => rfl
  | @cons s result scrapers results hcount _ ih =>
    rw [List.map_cons, List.sum_cons, ← ih]
    cases result with
    | ok o => exact congrArg (· + emittedBy results) hcount
    | error fault =>
      have hzero : (st.deeds s.party.caller).added = 0 := hcount
      rw [hzero, Nat.zero_add]
      rfl

/-- Without a call that fails, the ticks count the rows that have been added. -/
theorem length_rows (H : Scraped scrapers F lasts w₀ results st) (hapart : ScrapersApart scrapers)
    (hF : ∀ i n q, F i n q = none) : st.watched.world.store.ledger.rows.length =
      w₀.store.ledger.rows.length + emittedBy results := by
  obtain ⟨rows, hgrows, hsum⟩ := H.accounted.rows
  have hnodup : (scrapers.map (·.party.caller)).Nodup := by
    refine List.pairwise_map.mpr (hapart.imp fun h heq => h.2 ?_)
    exact Caller.task.inj heq
  have hlength := hsum (scrapers.map (·.party.caller)).toFinset fun i hi => by
    rw [H.deeds_of_notMem, Deeds.none]
    intro s hs heq
    exact hi (List.mem_toFinset.mpr (List.mem_map.mpr ⟨s, hs, heq.symm⟩))
  rw [List.sum_toFinset _ hnodup, List.map_map] at hlength
  rw [hgrows.rows, List.length_append, hlength, H.emittedBy_eq hF]
  rfl

end Scraped

variable {scrapers : List Scraper} {F : Outages} {lasts : Scraper → Noted} {w₀ : Surroundings}

theorem exists_ticksTo (F : Outages) (hfree : ∀ s ∈ scrapers, w₀.held s.guard = false) :
    ∃ lasts : Scraper → Noted, ∀ s ∈ scrapers,
      Process.Fulfils F.Notes s.party.noting (s.TicksTo F (lasts s)) (tickBy s) (.start w₀) := by
  have hends : ∀ s ∈ scrapers, ∃ last, Process.Fulfils F.Notes s.party.noting (s.TicksTo F last)
      (tickBy s) (.start w₀) := by
    intro s hs
    obtain ⟨last, hlast⟩ := Scraper.tick_fulfils F (hfree s hs)
    exact ⟨last, hlast.askedBy⟩
  have : Nonempty Noted := ⟨.start w₀⟩
  choose! lasts hlasts using hends
  exact ⟨lasts, hlasts⟩

/-- Scrapers that are apart do not get in each other's way, whatever is noted down of them. -/
theorem ScrapersApart.noting (hapart : ScrapersApart scrapers) : scrapers.Pairwise fun s s' =>
    s.party.noting.Spares s'.party.noting ∧ s'.party.noting.Spares s.party.noting := by
  refine hapart.imp fun h => ⟨Party.spares_noting (spares_scraper h.1 h.2), ?_⟩
  exact Party.spares_noting (spares_scraper (List.disjoint_symm h.1) h.2.symm)

theorem all_scraped (hapart : ScrapersApart scrapers)
    (hlasts : ∀ s ∈ scrapers, Process.Fulfils F.Notes s.party.noting (s.TicksTo F (lasts s))
      (tickBy s) (.start w₀)) :
    (Process.all (scrapers.map tickBy)).Ends F.Notes (Scraped scrapers F lasts w₀)
      (.start w₀) := by
  have hall := (Process.Fulfils.all_results hapart.noting hlasts).watching.ends
  refine (hall.and_kept (fun _ _ _ _ => Noted.Accounted.notes) Noted.Accounted.start).mono ?_
  exact fun results st h => ⟨h.1.1, h.1.2, h.2⟩

theorem inOrder_scraped (hapart : ScrapersApart scrapers)
    (hlasts : ∀ s ∈ scrapers, Process.Fulfils F.Notes s.party.noting (s.TicksTo F (lasts s))
      (tickBy s) (.start w₀)) :
    (Process.inOrder (scrapers.map tickBy)).Ends F.Notes (Scraped scrapers F lasts w₀)
      (.start w₀) := by
  have hall := Process.Fulfils.ends_inOrder hapart.noting hlasts
  refine (hall.and_kept (fun _ _ _ _ => Noted.Accounted.notes) Noted.Accounted.start).mono ?_
  exact fun results st h => ⟨h.1.1, h.1.2, h.2⟩

/-- However the ticks of the scrape job go on beside each other, they end, and leave the checkpoints
and the identities that they leave one after another. If no call fails, both times they count the
rows that have been added. -/
theorem scrapes_in_any_order (hapart : ScrapersApart scrapers)
    (hfree : ∀ s ∈ scrapers, s.task.enabled → w₀.held s.guard = false) (F : Outages) :
    (scrapeTransfersBy scrapers).erase = scrapeTransfers scrapers ∧
    (ticksBy scrapers).Ends F.Answers (fun results st =>
      (ticksInOrderBy scrapers).Ends F.Answers (fun results' st' =>
        st.world.store.SameContents st'.world.store ∧
        ((∀ i n q, F i n q = none) → emittedBy results = emittedBy results' ∧
          st.world.store.ledger.rows.length =
            w₀.store.ledger.rows.length + emittedBy results)) (.start w₀)) (.start w₀) := by
  have henabled : ScrapersApart (scrapers.filter (·.task.enabled)) := hapart.filter _
  have hfree' : ∀ s ∈ scrapers.filter (·.task.enabled), w₀.held s.guard = false := by
    intro s hs
    obtain ⟨hmem, hon⟩ := List.mem_filter.mp hs
    exact hfree s hmem hon
  obtain ⟨lasts, hlasts⟩ := exists_ticksTo F hfree'
  refine ⟨scrapeTransfersBy_erase scrapers, ?_⟩
  refine ((all_scraped henabled hlasts).of_views Outages.notes_views).mono ?_
  rintro results _ ⟨st, H, rfl⟩
  refine ((inOrder_scraped henabled hlasts).of_views Outages.notes_views).mono ?_
  rintro results' _ ⟨st', H', rfl⟩
  refine ⟨H.sameContents H', fun hF => ?_⟩
  have hrows := H.length_rows henabled hF
  have hrows' := H'.length_rows henabled hF
  have hsame := H.length_rows_eq H'
  exact ⟨by omega, hrows⟩

/-! ### A transaction that two tasks find -/

/-- What a program does alone it does too when it is asked by one of several callers and no call is
to fail. -/
theorem exists_runs_of {p : Program Engine α} (i : Caller)
    (H : p.Runs (Conduct.undisturbed fun _ => False).Answers w value w') (st : Watched)
    (hst : st.world = w) :
    ∃ st', p.Runs ((Outages.Answers fun _ _ _ => none).of i) st value st' ∧ st'.world = w' := by
  induction H generalizing st with
  | pure => exact ⟨st, .pure, hst⟩
  | @query w q answer w₁ _ _ _ hanswer _ ih =>
    obtain ⟨_, rfl, hanswer | ⟨hfails, -⟩⟩ := hanswer
    · obtain ⟨st', hrun, hst'⟩ := ih (st.after i w₁) rfl
      exact ⟨st', .query (.inr ⟨rfl, w₁, hst ▸ hanswer, rfl⟩) hrun, hst'⟩
    · exact hfails.elim

/-- Whoever asks what, rows are only added, and no two have one identity. -/
theorem grows_after_answers {F : Outages} {l : Ledger} (st : Watched)
    (q : (Engine.By Caller).Query) (answer : (Engine.By Caller).Answer q) (st' : Watched)
    (h : ∃ added, l.Grows st.world.store.ledger added) (hanswer : F.Answers st q answer st') :
    ∃ added, l.Grows st'.world.store.ledger added := by
  obtain ⟨added, hgrows⟩ := h
  rcases hanswer with ⟨-, rfl⟩ | ⟨-, w, hanswer, rfl⟩
  · exact ⟨added, hgrows⟩
  · rcases hanswer.ledger with ⟨hledger, -⟩ | ⟨t, hledger, -⟩
    · exact ⟨added, hledger ▸ hgrows⟩
    · obtain ⟨more, -, hmore⟩ := hgrows.insertAll [t]
      have hinserted : w.store.ledger = st.world.store.ledger.insertAll [t] := hledger
      exact ⟨_, hinserted ▸ hmore⟩

/-- One after another, the ticks of the samples come to where the first has found the log of
block 9. -/
theorem sample_finds : ∃ p st, (ticksInOrderBy sample.scrapers).Reaches
      (Outages.Answers fun _ _ _ => none) (.start .sample) p st ∧
    (⟨1, .sample 9, 0⟩ : TransferId) ∈ st.world.store.ledger.ids := by
  obtain ⟨o, w, hrun, hlast, -⟩ := Scraper.sampleToken_ticks Stream.sampleToken_stands
  have hshows : (Conduct.undisturbed fun _ => False).Shows .sampleToken 9 (.log (.sample 9))
      ⟨1, .sample 9, 0⟩ 2 :=
    ⟨fun _ _ _ h hdrift => hdrift ▸ h, fun h hdrift => hdrift ▸ h, fun h hdrift => hdrift ▸ h,
      fun h hdrift => hdrift ▸ h⟩
  have hfound : (⟨1, .sample 9, 0⟩ : TransferId) ∈ w.store.ledger.ids := by
    have hawaits : Scraper.sampleToken.Awaits 9 (.log (.sample 9)) ⟨1, .sample 9, 0⟩ 2 10 .sample :=
      ⟨Stream.sampleToken_begins.lastBlock, Stream.sampleToken_begins.tuned.overlap,
        Scraper.sampleToken_meets, .inr (by decide)⟩
    exact (Conduct.of_runs (Scraper.tick_awaits hshows hawaits) hrun).2 hlast
  obtain ⟨st, hticked, rfl⟩ := exists_runs_of (.task 0) hrun (.start .sample) rfl
  have hfirst := (Process.Reaches.of_runs hticked).askedBy
  exact ⟨_, st, hfirst.andThen _, hfound⟩

theorem mem_ids_after_answers {F : Outages} {id : TransferId} (st : Watched)
    (q : (Engine.By Caller).Query) (answer : (Engine.By Caller).Answer q) (st' : Watched)
    (h : id ∈ st.world.store.ledger.ids) (hanswer : F.Answers st q answer st') :
    id ∈ st'.world.store.ledger.ids := by
  rcases hanswer with ⟨-, rfl⟩ | ⟨-, w, hanswer, rfl⟩
  · exact h
  · exact (hanswer.mem_ids id).mpr (.inl h)

/-- The samples' token and native scrapers are both after the transaction of block 9, under one
identity. Whichever is first to insert it, there is one row of it, and it is counted once. -/
theorem sample_scrapes :
    ScrapersApart sample.scrapers ∧
      (∀ s ∈ sample.scrapers, s.task.enabled → Surroundings.sample.held s.guard = false) ∧
      (∃ t, Stream.sampleToken.sought t ∧ t.id = ⟨1, .sample 9, 0⟩) ∧
      (∃ t, Stream.sampleNative.sought t ∧ t.id = ⟨1, .sample 9, 0⟩) ∧
      (ticksBy sample.scrapers).Ends (Outages.Answers fun _ _ _ => none) (fun results st =>
        (st.world.store.ledger.rows.map Transfer.id).count ⟨1, .sample 9, 0⟩ = 1 ∧
        (ticksInOrderBy sample.scrapers).Ends (Outages.Answers fun _ _ _ => none)
          (fun results' st' => st.world.store.SameContents st'.world.store ∧
            emittedBy results = emittedBy results' ∧
            st.world.store.ledger.rows.length = emittedBy results) (.start .sample))
        (.start .sample) := by
  have hfree : ∀ s ∈ sample.scrapers, s.task.enabled → Surroundings.sample.held s.guard = false :=
    fun _ _ _ => rfl
  have htoken : ∃ t, Stream.sampleToken.sought t ∧ t.id = ⟨1, .sample 9, 0⟩ :=
    ⟨_, ⟨_, 9, 0, _, _, 9, ⟨9, by simp, rfl⟩, EventLog.sample_shows 9, .inr ⟨rfl, rfl⟩, rfl⟩, rfl⟩
  have hnative : ∃ t, Stream.sampleNative.sought t ∧ t.id = ⟨1, .sample 9, 0⟩ :=
    ⟨_, ⟨9, _, .zero 20, .zero 20, List.mem_singleton.mpr rfl, rfl, rfl, rfl, rfl⟩, rfl⟩
  refine ⟨sample_ready.scrapers, hfree, htoken, hnative, ?_⟩
  have hends := (scrapes_in_any_order sample_ready.scrapers hfree fun _ _ _ => none).2
  refine (hends.and_kept grows_after_answers ⟨[], .refl _⟩).mono ?_
  rintro results st ⟨h, added, hgrows⟩
  have hordered : (ticksInOrderBy sample.scrapers).Ends (Outages.Answers fun _ _ _ => none)
      (fun results' st' => st.world.store.SameContents st'.world.store ∧
        emittedBy results = emittedBy results' ∧
        st.world.store.ledger.rows.length = emittedBy results) (.start .sample) := by
    refine h.mono fun results' st' h' => ⟨h'.1, ?_⟩
    obtain ⟨hsame, hrows⟩ := h'.2 fun _ _ _ => rfl
    exact ⟨hsame, hrows.trans (Nat.zero_add _)⟩
  refine ⟨?_, hordered⟩
  -- One after another, the ticks leave the identity behind, and so they do here.
  obtain ⟨p, st₁, hreaches, hfound⟩ := sample_finds
  obtain ⟨results', st', ⟨hsame, -⟩, hlast⟩ :=
    ((hordered.of_reaches hreaches).and_kept mem_ids_after_answers hfound).exists_post
  have hmem := ((hgrows.ids _).mp ((hsame.ids _).mpr hlast)).resolve_left List.not_mem_nil
  have hrows : st.world.store.ledger.rows = added := hgrows.rows
  rw [hrows]
  exact List.count_eq_one_of_mem hgrows.nodup (List.mem_map.mpr hmem)

end Scheduler

end ChainIngest
