import ChainIngest.Proofs.Footprints
import ChainIngest.Proofs.Ticks

/-! A tick in three parts: it reads a plan from the checkpoints, scans the plan's window, and moves
the last block forward. Each part has its own rule for programs that run beside others. -/

namespace ChainIngest

open Engine (Failed)

/-- A height that is read is held. If there is none, because the call fails or the checkpoint holds
no number, then `F` holds. -/
theorem Action.Abides.readHeight {P : Pact Engine σ} {world : σ → Surroundings}
    {Q : Engine.Query → Prop} {K F : σ → Prop} {st : σ} (hP : P.Over world) (hQ : P.Allows Q K)
    (hq : Q (.readCheckpoint key (Number.showUInt64 initial)))
    (fails : ∀ {s₁ answer s₂}, K s₁ →
      P.answers s₁ (.readCheckpoint key (Number.showUInt64 initial)) answer s₂ →
      Failed (.readCheckpoint key (Number.showUInt64 initial)) answer → F s₂)
    (illegible : ∀ {s₁ answer s₂}, K s₁ →
      P.answers s₁ (.readCheckpoint key (Number.showUInt64 initial)) answer s₂ →
      (world s₁).height? key initial = none → F s₂)
    (hs : K st) :
    (Engine.readHeight key initial).Abides P
      (fun height s' => K s' ∧ (world s').store.checkpoints.Holds key height)
      (fun _ s' => K s' ∧ F s') st := by
  unfold Engine.readHeight Engine.readCheckpoint
  apply Action.Abides.bind
  refine .of_program (.query hQ hq hs) ?_ ?_
  · intro text s' hanswered
    obtain ⟨s₁, hK₁, hanswer, hK⟩ := hanswered
    rcases hP.responds hanswer with ⟨htext, hworld⟩ | ⟨-, fault, hfault⟩
    · have hafter : world s' = (world s₁).afterRead key initial := hworld
      obtain rfl := Except.ok.inj htext
      cases hheight : (world s₁).height? key initial with
      | some height =>
        have hread := Checkpoints.height?_eq_some_iff.mp hheight
        simp only [Store.read, hread]
        refine .pure ⟨hK, ?_⟩
        rw [hafter]
        exact Checkpoints.holds_getOrCreate hheight
      | none =>
        obtain ⟨reason, hread⟩ := Checkpoints.height?_eq_none_iff.mp hheight
        simp only [Store.read, hread]
        exact .throw ⟨hK, illegible hK₁ hanswer hheight⟩
    · cases hfault
  · intro fault s' hanswered
    obtain ⟨s₁, hK₁, hanswer, hK⟩ := hanswered
    exact ⟨hK, fails hK₁ hanswer ⟨fault, rfl⟩⟩

/-- Writing a height. A call that fails has no effect. -/
theorem Action.Abides.writeHeight {P : Pact Engine σ} {world : σ → Surroundings} {K : σ → Prop}
    {post : Unit → σ → Prop} {fail : Fault → σ → Prop} {st : σ} (hP : P.Over world)
    (stable : P.Stable K) (hs : K st)
    (guar : ∀ s₁ answer s₂, K s₁ →
      P.answers s₁ (.writeCheckpoint key (Number.showUInt64 height)) answer s₂ →
      P.guar s₁ (.writeCheckpoint key (Number.showUInt64 height)) answer s₂)
    (ok : ∀ s₁ answer s₂, K s₁ →
      P.answers s₁ (.writeCheckpoint key (Number.showUInt64 height)) answer s₂ →
      world s₂ = (world s₁).afterWrite key height → post () s₂)
    (fails : ∀ s₁ s₂ fault, K s₁ →
      P.answers s₁ (.writeCheckpoint key (Number.showUInt64 height)) (.error fault) s₂ →
      fail fault s₂) :
    (Engine.writeHeight key height).Abides P post fail st := by
  suffices H : Program.Abides P (fun
      | .ok (), s' => post () s'
      | .error fault, s' => fail fault s')
      (Engine.ask (.writeCheckpoint key (Number.showUInt64 height))) st from
    .of_program H (fun _ _ h => h) fun _ _ h => h
  apply Program.Abides.ask stable hs
  · exact fun s₁ _ hlive => hP.answered hlive ⟨rfl, rfl⟩
  · intro s₁ answer s₂ hK hanswer
    refine ⟨guar s₁ answer s₂ hK hanswer, ?_⟩
    cases answer with
    | error fault => exact fails s₁ s₂ fault hK hanswer
    | ok value =>
      rcases hP.responds hanswer with ⟨-, hworld⟩ | ⟨-, fault, hfault⟩
      · exact ok s₁ _ s₂ hK hanswer hworld
      · cases hfault

namespace Scraper

/-- What a tick reads before it scans. -/
structure Plan where
  range : UInt64
  overlap : UInt64
  lastScanned : UInt64
  head : UInt64

/-- The heights that a plan is read as, in the order in which they are read. -/
def Plan.heights (s : Scraper) (p : Plan) : List (String × UInt64) :=
  [(s.task.scanRangeKey, p.range), (s.task.overlapKey, p.overlap),
    (s.task.lastBlockKey, p.lastScanned), (s.task.headKey, p.head)]

/-- The window that is scanned. -/
def Plan.window (p : Plan) : Window := .compute p.lastScanned p.overlap p.range p.head

/-- The last block after a scan. -/
def Plan.next (p : Plan) (o : ScanOutcome) : UInt64 := max o.window.last p.lastScanned

/-- What a tick answers with after a scan. -/
def Plan.outcome (p : Plan) (o : ScanOutcome) : TickOutcome :=
  ⟨o.window, o.emitted, p.next o, p.head⟩

/-- The first part of a tick. -/
def readPlan (s : Scraper) : Action Plan := do
  let range ← Engine.readHeight s.task.scanRangeKey s.task.scanRange
  if range = 0 then throw (.emptyRange s.task.label)
  let overlap ← Engine.readHeight s.task.overlapKey s.task.overlap
  let lastScanned ← Engine.readHeight s.task.lastBlockKey s.task.startBlock
  let head ← Engine.readHeight s.task.headKey 0
  return ⟨range, overlap, lastScanned, head⟩

/-- The last part of a tick. -/
def advance (s : Scraper) (p : Plan) (o : ScanOutcome) : Action TickOutcome := do
  if p.next o ≠ p.lastScanned then Engine.writeHeight s.task.lastBlockKey (p.next o)
  Engine.tell (.scanned s.task.label o.window.first o.window.last o.emitted (p.next o))
  return p.outcome o

variable {s : Scraper}

theorem tickHeld_eq : s.tickHeld = (do
    let p ← s.readPlan
    let o ← s.scanWindow p.lastScanned p.head p.range p.overlap
    s.advance p o) := by
  simp only [tickHeld, readPlan, bind_assoc]
  refine bind_congr fun range => ?_
  split
  · rfl
  · simp only [bind_assoc, pure_bind]
    rfl

/-- The reading of one of a tick's checkpoints. -/
def Reads (s : Scraper) (q : Engine.Query) : Prop :=
  ∃ key initial, (key, initial) ∈ s.task.readings ∧
    q = .readCheckpoint key (Number.showUInt64 initial)

theorem Reads.of_mem (h : (key, initial) ∈ s.task.readings) :
    s.Reads (.readCheckpoint key (Number.showUInt64 initial)) :=
  ⟨key, initial, h, rfl⟩

/-- Reading changes nothing, but that a checkpoint may be created. -/
theorem Reads.effect {w w' : Surroundings} {q : Engine.Query} {answer : Engine.Answer q}
    (H : s.Reads q) (hanswer : w.Responds q answer w') :
    w' = w ∨ ∃ key initial, (key, initial) ∈ s.task.readings ∧ w' = w.afterRead key initial := by
  obtain ⟨key, initial, hmem, rfl⟩ := H
  rcases hanswer with hanswer | ⟨heq, -⟩
  · exact .inr ⟨key, initial, hmem, hanswer.2⟩
  · exact .inl heq

/-- Reading a plan keeps what others keep and what the creation of the task's checkpoints keeps. -/
theorem allows_reads {C : Conduct} {K : Surroundings → Prop} (h : C.Keeps K)
    (read : ∀ {w : Surroundings} {key initial}, (key, initial) ∈ s.task.readings → K w →
      K (w.afterRead key initial)) : C.pact.Allows s.Reads K := by
  refine Conduct.allows_pact h ?_
  intro w q answer w' hq hw hanswer
  rcases hq.effect hanswer with rfl | ⟨key, initial, hmem, rfl⟩
  · exact hw
  · exact read hmem hw

/-- While a plan is read, `K` stays true. If there is none in the end, because a call fails, a
checkpoint holds no number or the range is zero, then `F` holds. -/
structure PlansUnder (s : Scraper) (P : Pact Engine σ) (world : σ → Surroundings)
    (K F : σ → Prop) : Prop where
  pactOver : P.Over world
  reads : P.Allows s.Reads K
  fails : s.Reads q → K s₁ → P.answers s₁ q answer s₂ → Failed q answer → F s₂
  illegible : (key, initial) ∈ s.task.readings → K s₁ →
    P.answers s₁ (.readCheckpoint key (Number.showUInt64 initial)) answer s₂ →
    (world s₁).height? key initial = none → F s₂
  empty : K s₁ → (world s₁).height? s.task.scanRangeKey s.task.scanRange = some 0 → F s₁

theorem plansUnder_conduct {C : Conduct} {K : Surroundings → Prop} (h : C.Keeps K)
    (read : ∀ {w : Surroundings} {key initial}, (key, initial) ∈ s.task.readings → K w →
      K (w.afterRead key initial)) : s.PlansUnder C.pact (fun w => w) K fun _ => True where
  pactOver := C.pact_over
  reads := allows_reads h read
  fails _ _ _ _ := trivial
  illegible _ _ _ _ := trivial
  empty _ _ := trivial

/-- Each number of a plan has been read while `K` held. -/
structure Planned (s : Scraper) (world : σ → Surroundings) (K : σ → Prop) (p : Plan) : Prop where
  range : ∃ s₁, K s₁ ∧ (world s₁).height? s.task.scanRangeKey s.task.scanRange = some p.range
  range_ne : p.range ≠ 0
  overlap : ∃ s₁, K s₁ ∧ (world s₁).height? s.task.overlapKey s.task.overlap = some p.overlap
  lastScanned : ∃ s₁, K s₁ ∧
    (world s₁).height? s.task.lastBlockKey s.task.startBlock = some p.lastScanned
  head : ∃ s₁, K s₁ ∧ (world s₁).height? s.task.headKey 0 = some p.head

namespace PlansUnder

variable {P : Pact Engine σ} {world : σ → Surroundings} {K F : σ → Prop} {st : σ}

theorem readHeight_abides (H : s.PlansUnder P world K F) (h : (key, initial) ∈ s.task.readings)
    (hs : K st) :
    (Engine.readHeight key initial).Abides P
      (fun height s' => K s' ∧ (world s').store.checkpoints.Holds key height)
      (fun _ s' => K s' ∧ F s') st :=
  .readHeight H.pactOver H.reads (Reads.of_mem h) (H.fails (Reads.of_mem h)) (H.illegible h) hs

/-- Reading a plan, where `K'` is known in addition once the last block has been read. -/
theorem readPlan_stores {K' : σ → Prop} (H : s.PlansUnder P world K F)
    (H' : s.PlansUnder P world K' F) (weaken : ∀ s₁, K' s₁ → K s₁)
    (stores : ∀ s₁ last, K s₁ → (world s₁).store.checkpoints.Holds s.task.lastBlockKey last → K' s₁)
    (hs : K st) :
    s.readPlan.Abides P
      (fun p s' => K' s' ∧ s.Planned world K p ∧ (world s').height? s.task.headKey 0 = some p.head)
      (fun _ s' => K s' ∧ F s') st := by
  unfold readPlan
  apply Action.Abides.bind
  refine (H.readHeight_abides ScanTask.scanRange_mem hs).mono ?_ fun _ _ h => h
  intro range s₁ hrange
  split
  · next hzero =>
    subst hzero
    exact .bind (.throw ⟨hrange.1, H.empty hrange.1 hrange.2.height?⟩)
  · next hpos =>
    apply Action.Abides.bind
    refine (H.readHeight_abides ScanTask.overlap_mem hrange.1).mono ?_ fun _ _ h => h
    intro overlap s₂ hoverlap
    apply Action.Abides.bind
    refine (H.readHeight_abides ScanTask.lastBlock_mem hoverlap.1).mono ?_ fun _ _ h => h
    intro lastScanned s₃ hlast
    have hstored : K' s₃ := stores s₃ lastScanned hlast.1 hlast.2
    apply Action.Abides.bind
    refine (H'.readHeight_abides ScanTask.head_mem hstored).mono ?_
      fun _ s' h => ⟨weaken s' h.1, h.2⟩
    intro head s₄ hhead
    refine .pure ⟨hhead.1, ⟨⟨s₁, hrange.1, hrange.2.height?⟩, hpos, ⟨s₂, hoverlap.1, ?_⟩,
      ⟨s₃, hlast.1, hlast.2.height?⟩, ⟨s₄, weaken s₄ hhead.1, ?_⟩⟩, ?_⟩
    · exact hoverlap.2.height?
    · exact hhead.2.height?
    · exact hhead.2.height?

theorem readPlan_abides (H : s.PlansUnder P world K F) (hs : K st) :
    s.readPlan.Abides P
      (fun p s' => K s' ∧ s.Planned world K p ∧ (world s').height? s.task.headKey 0 = some p.head)
      (fun _ s' => K s' ∧ F s') st :=
  H.readPlan_stores H (fun _ h => h) (fun _ _ h _ => h) hs

end PlansUnder

/-- Moving the last block forward: it is written only if it moves, and the write may fail. -/
theorem advance_abides {P : Pact Engine σ} {world : σ → Surroundings} {M D : σ → Prop}
    {fail : Fault → σ → Prop} {p : Plan} {o : ScanOutcome} {st : σ} (hP : P.Over world)
    (stable : P.Stable M) (hs : M st)
    (stays : p.next o = p.lastScanned → ∀ s₁, M s₁ → D s₁)
    (guar : ∀ s₁ answer s₂, M s₁ →
      P.answers s₁ (.writeCheckpoint s.task.lastBlockKey (Number.showUInt64 (p.next o))) answer s₂ →
      P.guar s₁ (.writeCheckpoint s.task.lastBlockKey (Number.showUInt64 (p.next o))) answer s₂)
    (moves : ∀ s₁ answer s₂, M s₁ →
      P.answers s₁ (.writeCheckpoint s.task.lastBlockKey (Number.showUInt64 (p.next o))) answer s₂ →
      world s₂ = (world s₁).afterWrite s.task.lastBlockKey (p.next o) → D s₂)
    (fails : ∀ s₁ s₂ fault, M s₁ →
      P.answers s₁ (.writeCheckpoint s.task.lastBlockKey (Number.showUInt64 (p.next o)))
        (.error fault) s₂ → fail fault s₂)
    (tells : P.Allows (fun q => ∃ notice, q = .tell notice) D) :
    (s.advance p o).Abides P (fun o' s' => o' = p.outcome o ∧ D s') fail st := by
  have htell : ∀ s₁, D s₁ → Action.Abides P (fun o' s' => o' = p.outcome o ∧ D s') fail
      (do
        Engine.tell (.scanned s.task.label o.window.first o.window.last o.emitted (p.next o))
        return p.outcome o) s₁ := by
    intro s₁ hD
    apply Action.Abides.bind
    apply Action.Abides.tell tells ⟨_, rfl⟩ hD
    exact fun s₂ hD' => .pure ⟨rfl, hD'⟩
  unfold advance
  by_cases hmoves : p.next o = p.lastScanned
  · simp only [ne_eq, hmoves, not_true_eq_false, if_false]
    simp only [hmoves] at htell
    exact htell st (stays hmoves st hs)
  · simp only [ne_eq, hmoves, not_false_eq_true, if_true]
    apply Action.Abides.bind
    exact .writeHeight hP stable hs guar
      (fun s₁ answer s₂ hM hanswer hworld => htell s₂ (moves s₁ answer s₂ hM hanswer hworld)) fails

end Scraper

end ChainIngest
