import ChainIngest.CatchUp
import ChainIngest.Proofs.Ticks

/-! How far a stream has come. Between ticks, everything sought that the last block has passed since
the stream's start is in the ledger (`Stream.Progress`), whichever ticks have failed; so a catch-up
that does not fail brings the rest. -/

namespace ChainIngest

/-- Ticks of a scraper one after another, each of which may succeed or fail, and what others do
between them. -/
inductive Scraper.Ticks (C : Conduct) (s : Scraper) : Surroundings → Surroundings → Prop
  | refl : Ticks C s w w
  | tick : Ticks C s w w₁ → s.tick.run.Runs C.Answers w₁ result w₂ → Ticks C s w w₂
  | drift : Ticks C s w w₁ → C.drift w₁ w₂ → Ticks C s w w₂

namespace Stream

/-- The stream has come from block `start` to block `c`, on the way to at most `top`. Once it has
left its start, all that is sought up to `c` is in the ledger; what the overlap looks back at from
the start is counted in. -/
structure Progress (st : Stream) (overlap start top c : UInt64) (l : Ledger) : Prop where
  start_le : start ≤ c
  le_top : c ≤ max start top
  covered : c = start ∨ ∀ t, st.sought t → Height.subFloored start overlap ≤ t.block →
    st.scraper.task.asset.Reaches c t.block → t.id ∈ l.ids

/-- From the ledger `before` on, only records have been inserted that are sought between the block
that the overlap looks back at from `start` and `top`. -/
def Inserted (st : Stream) (overlap start top : UInt64) (before l : Ledger) : Prop :=
  ∃ ts, l = before.insertAll ts ∧ ∀ t ∈ ts, st.sought t ∧
    Height.subFloored start overlap ≤ t.block ∧ st.scraper.task.asset.Reaches top t.block

variable {C : Conduct} {st : Stream} {terms : Terms} {K : Surroundings → Prop}
  {start top c : UInt64} {isHeld isStored : Bool} {w w' : Surroundings} {l l' before : Ledger}

theorem Progress.at_start (st : Stream) (overlap start top : UInt64) (l : Ledger) :
    st.Progress overlap start top start l := by
  refine ⟨UInt64.le_refl _, ?_, .inl rfl⟩
  rw [UInt64.le_iff_toNat_le, Height.toNat_max]
  omega

theorem Progress.mono (H : st.Progress overlap start top c l) (h : ∀ id ∈ l.ids, id ∈ l'.ids) :
    st.Progress overlap start top c l' :=
  { H with covered := H.covered.imp_right fun hall t h₁ h₂ h₃ => h _ (hall t h₁ h₂ h₃) }

/-- A window covers what no earlier one has covered: it begins where the overlap looks back to, so
at the start of the stream's first window or at most at the last block. -/
theorem Progress.covered_of_ticked (H : st.Progress terms.overlap start top c l)
    (htick : st.Ticked terms K c l isHeld o w) (hsought : st.sought t)
    (hfloor : Height.subFloored start terms.overlap ≤ t.block)
    (hlast : st.scraper.task.asset.Reaches o.window.last t.block) : t.id ∈ w.store.ledger.ids := by
  obtain ⟨range, -, hwindow⟩ := htick.window
  obtain ⟨ts, hfinds, -, hl, -⟩ := htick.scanned
  rw [hl, Ledger.mem_ids_insertAll]
  by_cases hfirst : o.window.first ≤ t.block
  · exact .inr (hfinds.complete t hsought ⟨hfirst, hlast⟩)
  · have hlt := UInt64.not_le.mp hfirst
    have hc : st.scraper.task.asset.Reaches c t.block := by
      rw [hwindow] at hlt
      exact .of_lt (UInt64.lt_of_lt_of_le hlt Window.compute_first_le)
    rcases H.covered with rfl | hall
    · rw [hwindow] at hfirst
      exact absurd hfloor hfirst
    · exact .inl (hall t hsought hfloor hc)

theorem Progress.of_ticked (H : st.Progress terms.overlap start top c l)
    (htick : st.Ticked terms K c l isHeld o w) (hhead : o.head ≤ top) :
    st.Progress terms.overlap start top o.lastScanned w.store.ledger := by
  have hnext := htick.lastScanned
  obtain ⟨range, -, hwindow⟩ := htick.window
  obtain ⟨ts, -, -, hl, -⟩ := htick.scanned
  have hle : max (Window.compute c terms.overlap range o.head).last c ≤ max c o.head :=
    Window.max_compute_last_le
  rw [← hwindow, ← hnext] at hle
  have hstart := H.start_le
  have hlow := H.le_top
  by_cases heq : o.lastScanned = c
  · rw [heq]
    exact H.mono fun id hid => hl ▸ Ledger.mem_ids_insertAll_of_mem hid _
  · have hlast : o.lastScanned = o.window.last := by
      rw [← UInt64.toNat_inj] at heq hnext ⊢
      rw [Height.toNat_max] at hnext
      omega
    simp only [UInt64.le_iff_toNat_le, Height.toNat_max] at hstart hlow hhead hle
    refine ⟨?_, ?_, .inr ?_⟩
    · rw [hnext, UInt64.le_iff_toNat_le, Height.toNat_max]
      omega
    · rw [UInt64.le_iff_toNat_le, Height.toNat_max]
      omega
    · rw [hlast]
      exact fun t h₁ h₂ h₃ => H.covered_of_ticked htick h₁ h₂ h₃

theorem Inserted.refl (st : Stream) (overlap start top : UInt64) (l : Ledger) :
    st.Inserted overlap start top l l :=
  ⟨[], rfl, by simp⟩

theorem Inserted.more (H : st.Inserted overlap start top before l)
    (h : ∀ t ∈ ts, st.sought t ∧ Height.subFloored start overlap ≤ t.block ∧
      st.scraper.task.asset.Reaches top t.block) :
    st.Inserted overlap start top before (l.insertAll ts) := by
  obtain ⟨us, rfl, hus⟩ := H
  refine ⟨us ++ ts, by rw [Ledger.insertAll_append], fun t ht => ?_⟩
  exact (List.mem_append.mp ht).elim (hus t) (h t)

theorem Inserted.of_ticked (H : st.Inserted terms.overlap start top before l) (hstart : start ≤ c)
    (htick : st.Ticked terms K c l isHeld o w) (hhead : o.head ≤ top) :
    st.Inserted terms.overlap start top before w.store.ledger := by
  obtain ⟨range, -, hwindow⟩ := htick.window
  obtain ⟨ts, hfinds, -, hl, -⟩ := htick.scanned
  rw [hl]
  refine H.more fun t ht => ?_
  obtain ⟨hsought, hfirst, hlast⟩ := hfinds.sound t ht
  rw [hwindow] at hfirst hlast
  exact ⟨hsought, UInt64.le_trans (Height.subFloored_mono hstart _) hfirst,
    hlast.mono (UInt64.le_trans Window.compute_last_le hhead)⟩

theorem Inserted.of_tickFailed (H : st.Inserted terms.overlap start top before l)
    (hstart : start ≤ c) (htop : ∀ h, terms.heads h → h ≤ top)
    (hfailed : st.TickFailed C terms K c l isHeld w) :
    st.Inserted terms.overlap start top before w.store.ledger := by
  obtain ⟨ts, hl, hts⟩ := hfailed.inserted
  rw [hl]
  refine H.more fun t ht => ?_
  obtain ⟨hsought, hfirst, head, hhead, hlast⟩ := hts t ht
  exact ⟨hsought, UInt64.le_trans (Height.subFloored_mono hstart _) hfirst,
    hlast.mono (htop head hhead)⟩

/-- Where a stream stands that has come from `start`, with the ledger as it was then. -/
structure Under (st : Stream) (terms : Terms) (K : Surroundings → Prop) (start top : UInt64)
    (before : Ledger) (c : UInt64) (isStored : Bool) (w : Surroundings) : Prop where
  stands : st.scraper.Stands terms K c false isStored w
  progress : st.Progress terms.overlap start top c w.store.ledger
  inserted : st.Inserted terms.overlap start top before w.store.ledger

theorem Under.of_ticked (H : st.Under terms K start top before c isStored w)
    (htick : st.Ticked terms K c w.store.ledger false o w') (hhead : o.head ≤ top) :
    st.Under terms K start top before o.lastScanned true w' := by
  obtain ⟨-, -, hw, -⟩ := htick.scanned
  exact ⟨hw, H.progress.of_ticked htick hhead,
    H.inserted.of_ticked H.progress.start_le htick hhead⟩

theorem Under.of_tickFailed (H : st.Under terms K start top before c isStored w)
    (htop : ∀ h, terms.heads h → h ≤ top)
    (hfailed : st.TickFailed C terms K c w.store.ledger false w') :
    st.Under terms K start top before c false w' := by
  obtain ⟨ts, hl, -⟩ := hfailed.inserted
  refine ⟨hfailed.stands, H.progress.mono ?_,
    H.inserted.of_tickFailed H.progress.start_le htop hfailed⟩
  exact fun id hid => hl ▸ Ledger.mem_ids_insertAll_of_mem hid ts

theorem Under.keeps (hC : C.Spares st.scraper terms) (hK : st.scraper.Aside C K) :
    C.Keeps (st.Under terms K start top before c isStored) := by
  intro w w' H hdrift
  have hl := hC.ledger _ (Eq.refl _) hdrift
  exact ⟨Scraper.Stands.keeps hC hK H.stands hdrift, hl ▸ H.progress, hl ▸ H.inserted⟩

/-- Ticks keep a stream's progress, whichever of them fail. -/
theorem Under.of_ticks (hC : C.Spares st.scraper terms) (hK : st.scraper.Aside C K)
    (hsees : ∀ w, K w → st.view w.chains w.store.recipients)
    (htop : ∀ h, terms.heads h → h ≤ top)
    (H : st.Under terms K start top before c false w) (hticks : st.scraper.Ticks C w w') :
    ∃ c', st.Under terms K start top before c' false w' := by
  induction hticks with
  | refl => exact ⟨c, H⟩
  | @tick w₁ result w₂ _ hrun ih =>
    obtain ⟨c₁, H₁⟩ := ih
    have hpost := (tick_ensures hC hK hsees H₁.stands rfl).run.of_runs hrun
    cases result with
    | error fault => exact ⟨c₁, H₁.of_tickFailed htop hpost⟩
    | ok o =>
      have H₂ := H₁.of_ticked hpost (htop _ hpost.head)
      exact ⟨o.lastScanned, H₂.stands.weaken, H₂.progress, H₂.inserted⟩
  | drift _ hdrift ih =>
    obtain ⟨c₁, H₁⟩ := ih
    exact ⟨c₁, H₁.keeps hC hK hdrift⟩

/-! ### Catching up -/

/-- The stream has been brought from `start` to `top`. -/
structure CaughtUp (st : Stream) (overlap start top : UInt64) (before : Ledger)
    (w : Surroundings) : Prop where
  lastBlock : w.store.checkpoints.Holds st.scraper.task.lastBlockKey (max start top)
  covered : ∀ t, st.sought t → Height.subFloored start overlap ≤ t.block →
    st.scraper.task.asset.Reaches top t.block → t.id ∈ w.store.ledger.ids
  inserted : st.Inserted overlap start top before w.store.ledger

/-- The window of a tick that leaves the last block at the head ends at the head. -/
theorem Ticked.last_eq_head (htick : st.Ticked terms K c l isHeld o w) (hcaught : o.caughtUp) :
    o.window.last = o.head := by
  obtain ⟨range, -, hwindow⟩ := htick.window
  have hle : o.head ≤ o.lastScanned := by simpa [TickOutcome.caughtUp] using hcaught
  rw [htick.lastScanned, hwindow] at hle
  rw [hwindow]
  exact Window.compute_last_eq hle

/-- A tick that leaves the last block at the head has caught up. -/
theorem Under.caughtUp (H : st.Under terms K start top before c isStored w)
    (htick : st.Ticked terms K c w.store.ledger false o w') (hhead : o.head = top)
    (hcaught : o.caughtUp) : st.CaughtUp terms.overlap start top before w' := by
  have H' := H.of_ticked htick (hhead ▸ UInt64.le_refl _)
  have hlast : o.window.last = top := (htick.last_eq_head hcaught).trans hhead
  have hle : o.head ≤ o.lastScanned := by simpa [TickOutcome.caughtUp] using hcaught
  have hmax : o.lastScanned = max start top := by
    have hstart := H'.progress.start_le
    have htop := H'.progress.le_top
    rw [hhead] at hle
    rw [← UInt64.toNat_inj]
    rw [UInt64.le_iff_toNat_le] at hle hstart htop
    rw [Height.toNat_max] at htop ⊢
    omega
  refine ⟨hmax ▸ H'.stands.stored rfl, fun t h₁ h₂ h₃ => ?_, H'.inserted⟩
  exact H.progress.covered_of_ticked htick h₁ h₂ (hlast ▸ h₃)

theorem Under.weaken (H : st.Under terms K start top before c isStored w) :
    st.Under terms K start top before c false w :=
  { H with stands := H.stands.weaken }

/-- One round of a catch-up brings the last block closer to the head or ends it. -/
theorem round_ensures (hC : C.Spares st.scraper terms) (hK : st.scraper.Aside C K)
    (hsees : ∀ w, K w → st.view w.chains w.store.recipients)
    (hheads : ∀ h, terms.heads h → h = top) (hsure : ¬C.Fallible)
    (hgo : ∀ w, K w → w.cancelled = false) (report : CatchUpReport)
    (H : st.Under terms K start top before c false w) :
    (CatchUp.round st.scraper report).Ensures C.Answers (fun
      | .inl _, w' => ∃ c', c < c' ∧ c' < top ∧ st.Under terms K start top before c' false w'
      | .inr result, w' => (∃ report', result = .ok report') ∧
        st.CaughtUp terms.overlap start top before w') w := by
  unfold CatchUp.round
  apply Program.Ensures.bind
  apply Conduct.ensures_ask (Under.keeps hC hK) H
  case answered => exact fun w _ => ⟨_, w, rfl, rfl⟩
  case fails => exact fun _ _ _ _ _ hfault => nomatch hfault
  intro w isCancelled w' H hanswer
  obtain ⟨rfl, rfl⟩ := hanswer
  simp only [hgo _ H.stands.aside, Bool.false_eq_true, if_false]
  apply Program.Ensures.bind
  refine (tick_ensures hC hK hsees H.stands rfl).run.mono ?_
  intro result w' hpost
  cases result with
  | error fault => exact absurd hpost.fallible hsure
  | ok o =>
    have hhead := hheads _ hpost.head
    have H' := H.of_ticked hpost (hhead ▸ UInt64.le_refl _)
    cases hcaught : o.caughtUp with
    | true =>
      simp only [hcaught, if_true]
      exact ⟨⟨_, rfl⟩, H.caughtUp hpost hhead hcaught⟩
    | false =>
      simp only [hcaught, Bool.false_eq_true, if_false]
      have hlt : o.lastScanned < top := by simpa [TickOutcome.caughtUp, hhead] using hcaught
      refine ⟨o.lastScanned, ?_, hlt, H'.weaken⟩
      obtain ⟨range, hrange, hwindow⟩ := hpost.window
      rw [← hhead] at hlt
      rw [hpost.lastScanned, hwindow] at hlt ⊢
      exact Window.lt_max_compute_last hrange hlt

/-- A catch-up in which no call fails, and which is not cancelled, ends at the head. -/
theorem worker_ends (hC : C.Spares st.scraper terms) (hK : st.scraper.Aside C K)
    (hsees : ∀ w, K w → st.view w.chains w.store.recipients)
    (hheads : ∀ h, terms.heads h → h = top) (hsure : ¬C.Fallible)
    (hgo : ∀ w, K w → w.cancelled = false)
    (H : st.Under terms K start top before c false w) :
    (CatchUp.worker st.scraper).Ends C.Answers (fun result w' =>
      (∃ report, result = .ok report) ∧ st.CaughtUp terms.overlap start top before w') w := by
  -- What is left is measured by the last block that the store holds: each round moves it forward.
  let last (w : Surroundings) : UInt64 :=
    (w.height? st.scraper.task.lastBlockKey st.scraper.task.startBlock).getD 0
  have hlast : ∀ {c w}, st.Under terms K start top before c false w → last w = c := fun H => by
    simp only [last, H.stands.lastBlock, Option.getD_some]
  apply Process.Ends.loop (fun _ w => ∃ c, st.Under terms K start top before c false w)
    (fun _ w => top.toNat - (last w).toNat) _ ⟨c, H⟩
  intro report w hunder
  obtain ⟨c, H⟩ := hunder
  refine .run ((round_ensures hC hK hsees hheads hsure hgo report H).mono ?_)
  intro next w' hpost
  cases next with
  | inl report' =>
    obtain ⟨c', hlt, htop, H'⟩ := hpost
    refine ⟨⟨c', H'⟩, ?_⟩
    rw [hlast H, hlast H']
    rw [UInt64.lt_iff_toNat_lt] at hlt htop
    omega
  | inr result => exact hpost

end Stream

end ChainIngest
