import ChainIngest.Proofs.LateTransfers
import ChainIngest.Proofs.Outages

/-! Workers that catch up. What a worker comes to is settled by its own checkpoints, by its chain's
stored head, by what never changes and by which of its calls fail; and it changes nothing on which
another worker depends. -/

namespace ChainIngest

open Engine (Concur Failed)

namespace Scraper

variable {s : Scraper}

def Works (s : Scraper) : Engine.Query → Prop
  | .readCheckpoint key text =>
    ∃ initial, (key, initial) ∈ s.task.readings ∧ text = Number.showUInt64 initial
  | .writeCheckpoint key text =>
    key = s.task.lastBlockKey ∧ ∃ height, text = Number.showUInt64 height
  | .acquire guard | .release guard => guard = s.guard
  | .isCancelled => True
  | q => s.Scans q

/-- What a worker reads: its own checkpoints, the head of its chain, its guard, and what never
changes. -/
def Depends (s : Scraper) : Part → Prop
  | .text key => key ∈ s.task.keys
  | .head chain => chain = s.task.chain
  | .guard guard => guard = s.guard
  | .outside => True

/-- What a worker writes. The head of its chain is created by reading it. -/
def Touches (s : Scraper) : Part → Prop
  | .text key => key ∈ s.task.keys ∨ key = s.task.headKey
  | .head _ => False
  | .guard guard => guard = s.guard
  | .outside => False

variable {w w' w₁ w₂ w₁' w₂' : Surroundings}

/-- What a worker asks that is answered changes one of a few things. -/
theorem Works.effect {q : Engine.Query} {answer : Engine.Answer q} (H : s.Works q)
    (h : w.Answers q answer w') :
    (∃ key initial, (key, initial) ∈ s.task.readings ∧ w' = w.afterRead key initial) ∨
    (∃ height, w' = w.afterWrite s.task.lastBlockKey height) ∨
    (∃ isHeld, w' = w.withGuard s.guard isHeld) ∨ ∃ l, w' = w.withLedger l := by
  cases q with
  | readCheckpoint key text =>
    obtain ⟨initial, hmem, rfl⟩ := H
    exact .inl ⟨key, initial, hmem, h.2⟩
  | writeCheckpoint key text =>
    obtain ⟨rfl, height, rfl⟩ := H
    exact .inr (.inl ⟨height, h.2⟩)
  | acquire guard =>
    obtain rfl : guard = s.guard := H
    exact .inr (.inr (.inl ⟨true, h.2⟩))
  | release guard =>
    obtain rfl : guard = s.guard := H
    exact .inr (.inr (.inl ⟨false, h⟩))
  | insertTransfer t => exact .inr (.inr (.inr ⟨_, h.2⟩))
  | tell notice => exact .inr (.inr (.inr ⟨w.store.ledger, h⟩))
  | isCancelled | whitelist | block | blockTime | transferLogs =>
    exact .inr (.inr (.inr ⟨w.store.ledger, h.2⟩))
  | _ => exact absurd H id

theorem head_initial (hmem : (key, initial) ∈ s.task.readings) (chain : String)
    (hkey : CheckpointKey.head chain = key) : 0 = initial := by
  rcases ScanTask.mem_readings hmem with hown | ⟨-, rfl⟩
  · exact absurd hkey.symm (ScanTask.key_ne_head hown)
  · rfl

theorem Works.keeps {q : Engine.Query} {answer : Engine.Answer q} (H : s.Works q)
    (h : w.Answers q answer w') : Surroundings.parts.Agree (¬s.Touches ·) w w' := by
  rcases H.effect h with ⟨key, initial, hmem, rfl⟩ | ⟨height, rfl⟩ | ⟨isHeld, rfl⟩ | ⟨l, rfl⟩
  · refine (Surroundings.agree_afterRead (head_initial hmem)).mono ?_
    rintro x hx rfl
    exact hx ((ScanTask.mem_readings hmem).imp_right And.left)
  · refine Surroundings.agree_afterWrite.mono fun x hx => ⟨?_, ?_⟩
    · rintro rfl
      exact hx (.inl (by simp [ScanTask.keys]))
    · exact fun chain _ => CheckpointKey.lastBlock_ne_head.symm
  · refine Surroundings.agree_withGuard.mono ?_
    rintro x hx rfl
    exact hx (Eq.refl _)
  · exact Surroundings.agree_withLedger

theorem Works.settled {q : Engine.Query} {answer₁ answer₂ : Engine.Answer q} (H : s.Works q)
    (hlike : Surroundings.parts.Agree s.Depends w₁ w₂) (h₁ : w₁.Answers q answer₁ w₁')
    (h₂ : w₂.Answers q answer₂ w₂') :
    Concur q answer₁ answer₂ ∧ Surroundings.parts.Agree s.Depends w₁' w₂' := by
  obtain ⟨hchains, hrest⟩ := Prod.mk.inj (hlike .outside trivial)
  obtain ⟨hrecipients, hcancelled⟩ := Prod.mk.inj hrest
  cases q with
  | readCheckpoint key text =>
    obtain ⟨initial, hmem, rfl⟩ := H
    have htext : (w₁.store.checkpoints.getOrCreate key (Number.showUInt64 initial)).1 =
        (w₂.store.checkpoints.getOrCreate key (Number.showUInt64 initial)).1 := by
      rcases ScanTask.mem_readings hmem with hown | ⟨rfl, rfl⟩
      · exact Checkpoints.getOrCreate_congr (hlike (.text key) hown)
      · exact hlike (.head s.task.chain) (Eq.refl _)
    obtain ⟨rfl, rfl⟩ := h₁
    obtain ⟨rfl, rfl⟩ := h₂
    exact ⟨congrArg Except.ok htext,
      Surroundings.agree_both_afterRead hlike (head_initial hmem) htext⟩
  | writeCheckpoint key text =>
    obtain ⟨rfl, height, rfl⟩ := H
    obtain ⟨rfl, rfl⟩ := h₁
    obtain ⟨rfl, rfl⟩ := h₂
    exact ⟨rfl, Surroundings.agree_both_afterWrite hlike _ height⟩
  | acquire guard =>
    obtain rfl : guard = s.guard := H
    obtain ⟨-, rfl⟩ := h₁
    obtain ⟨-, rfl⟩ := h₂
    exact ⟨rfl, Surroundings.agree_both_withGuard hlike _ true⟩
  | release guard =>
    obtain rfl : guard = s.guard := H
    obtain rfl : w₁' = w₁.withGuard s.guard false := h₁
    obtain rfl : w₂' = w₂.withGuard s.guard false := h₂
    exact ⟨rfl, Surroundings.agree_both_withGuard hlike _ false⟩
  | insertTransfer t =>
    obtain ⟨rfl, rfl⟩ := h₁
    obtain ⟨rfl, rfl⟩ := h₂
    exact ⟨rfl, hlike.around Surroundings.agree_withLedger Surroundings.agree_withLedger⟩
  | tell notice =>
    obtain rfl : w₁' = w₁ := h₁
    obtain rfl : w₂' = w₂ := h₂
    exact ⟨rfl, hlike⟩
  | isCancelled =>
    obtain ⟨rfl, rfl⟩ := h₁
    obtain ⟨rfl, rfl⟩ := h₂
    exact ⟨hcancelled, hlike⟩
  | whitelist chainId =>
    obtain ⟨rfl, rfl⟩ := h₁
    obtain ⟨rfl, rfl⟩ := h₂
    have hsame : w₁'.store.whitelist chainId = w₂'.store.whitelist chainId := by
      unfold Store.whitelist
      rw [hrecipients]
    exact ⟨congrArg Except.ok hsame, hlike⟩
  | block | blockTime | transferLogs =>
    obtain ⟨rfl, rfl⟩ := h₁
    obtain ⟨rfl, rfl⟩ := h₂
    rw [hchains]
    exact ⟨rfl, hlike⟩
  | _ => exact absurd H id

def party (s : Scraper) : Party where
  caller := .task s.index
  asks := s.Works
  reads := s.Depends
  writes := s.Touches
  keeps := Works.keeps
  settled := Works.settled

theorem Reads.works {q : Engine.Query} (H : s.Reads q) : s.Works q := by
  obtain ⟨key, initial, hmem, rfl⟩ := H
  exact ⟨initial, hmem, rfl⟩

theorem Scans.works {q : Engine.Query} (H : s.Scans q) : s.Works q := by
  cases q with
  | insertTransfer | tell | whitelist | block | blockTime | transferLogs => exact H
  | _ => exact absurd H id

/-- What a tick asks while it holds the guard. -/
def AsksHeld (s : Scraper) (q : Engine.Query) : Prop :=
  s.Reads q ∨ s.Scans q ∨
    ∃ height, q = .writeCheckpoint s.task.lastBlockKey (Number.showUInt64 height)

namespace AsksHeld

theorem works {q : Engine.Query} (H : s.AsksHeld q) : s.Works q := by
  rcases H with hreads | hscans | ⟨height, rfl⟩
  · exact hreads.works
  · exact hscans.works
  · exact ⟨rfl, height, rfl⟩

theorem not_acquire {guard : Guard} : ¬s.AsksHeld (.acquire guard) := by
  intro H
  rcases H with ⟨key, initial, -, hquery⟩ | hscans | ⟨height, hquery⟩
  · cases hquery
  · exact hscans
  · cases hquery

end AsksHeld

/-- What a worker asks that leaves it where it stands. -/
def Looks (s : Scraper) (q : Engine.Query) : Prop := s.Reads q ∨ s.Scans q ∨ q = .isCancelled

namespace Looks

theorem works {q : Engine.Query} (H : s.Looks q) : s.Works q := by
  rcases H with hreads | hscans | rfl
  · exact hreads.works
  · exact hscans.works
  · trivial

theorem not_acquire {guard : Guard} : ¬s.Looks (.acquire guard) := by
  intro H
  rcases H with ⟨key, initial, -, hquery⟩ | hscans | hquery
  · cases hquery
  · exact hscans
  · cases hquery

end Looks

/-! ### Where a worker stands -/

/-- A worker stands at block `c`, with what it reads beside it fixed, and is not cancelled. -/
def StandsAt (s : Scraper) (overlap head c : UInt64) (isHeld isStored : Bool)
    (w : Surroundings) : Prop :=
  s.Stands ⟨overlap, (· = head)⟩ (·.cancelled = false) c isHeld isStored w

variable {overlap head c : UInt64} {isHeld isStored : Bool}

theorem aside_uncancelled :
    s.Aside (Conduct.undisturbed fun _ => False) (·.cancelled = false) :=
  .of_unwritten (K := fun _ _ isCancelled => isCancelled = false) fun h hdrift => hdrift ▸ h

namespace StandsAt

/-- Where a worker stands is settled by what it reads. -/
theorem like (H : s.StandsAt overlap head c isHeld isStored w)
    (h : Surroundings.parts.Agree s.Depends w w') :
    s.StandsAt overlap head c isHeld isStored w' := by
  have hget : ∀ key ∈ s.task.keys, w'.store.checkpoints.get? key = w.store.checkpoints.get? key :=
    fun key hkey => (h (.text key) hkey).symm
  have hheight : ∀ key ∈ s.task.keys, ∀ initial, w'.height? key initial = w.height? key initial :=
    fun key hkey _ => Checkpoints.height?_congr (hget key hkey)
  have hlast : s.task.lastBlockKey ∈ s.task.keys := by simp [ScanTask.keys]
  have hhead : w'.height? s.task.headKey 0 = w.height? s.task.headKey 0 :=
    (Surroundings.height?_head_congr (h (.head s.task.chain) (Eq.refl _))).symm
  refine ⟨?_, ?_, ⟨?_, ?_, ?_⟩, (hheight _ hlast _).trans H.lastBlock, fun hstored => ?_⟩
  · exact (congrArg (·.2.2) (h .outside trivial)).symm.trans H.aside
  · exact (h (.guard s.guard) (Eq.refl _)).symm.trans H.guard
  · rw [hheight _ (by simp [ScanTask.keys])]
    exact H.tuned.range
  · rw [hheight _ (by simp [ScanTask.keys])]
    exact H.tuned.overlap
  · rw [hhead]
    exact H.tuned.head
  · obtain ⟨text, htext, hread⟩ := H.stored hstored
    exact ⟨text, (hget _ hlast).trans htext, hread⟩

variable {F : Outages}

theorem stable :
    (s.party.pact F).Stable fun st => s.StandsAt overlap head c isHeld isStored st.world :=
  fun h hrely => h.like (Party.like_iff.mp hrely).1

/-- What leaves a worker where it stands. -/
theorem allows {Q : Engine.Query → Prop} (hQ : ∀ q, Q q → s.Looks q) :
    (s.party.pact F).Allows Q fun st => s.StandsAt overlap head c isHeld isStored st.world := by
  refine .mono ?_ hQ
  refine Party.allows (fun q hq => hq.works) like (fun hq => absurd hq Looks.not_acquire) ?_
  intro w q answer w' hq H hanswer
  rcases hq with hq | hq | rfl
  · rcases hq.effect (.inl hanswer) with rfl | ⟨key, initial, hmem, rfl⟩
    · exact H
    · exact H.afterRead aside_uncancelled hmem
  · rcases hq.effect (.inl hanswer) with rfl | ⟨t, rfl⟩
    · exact H
    · exact H.withLedger aside_uncancelled _
  · exact hanswer.2 ▸ H

/-- A plan is read where the worker stands, unless a call fails. -/
theorem plansUnder : s.PlansUnder (s.party.pact F) Watched.world
    (fun st => s.StandsAt overlap head c isHeld isStored st.world)
    (·.failed s.party.caller = true) where
  pactOver := Party.pact_over
  reads := allows fun _ => .inl
  fails _ _ hanswer hfailed := Outages.failed_of_failed hanswer hfailed
  illegible hmem hK _ hnone := by
    obtain ⟨height, hheight⟩ := hK.tuned.numeric hK.lastBlock hmem
    cases hheight.symm.trans hnone
  empty hK hzero := by
    obtain ⟨range, hrange, hne⟩ := hK.tuned.range
    exact absurd (Option.some.inj (hrange.symm.trans hzero)) hne

end StandsAt

/-- What a tick does that begins with the last block at `c`. -/
structure Advances (overlap head c : UInt64) (o : TickOutcome) : Prop where
  window : ∃ range, range ≠ 0 ∧ o.window = .compute c overlap range head
  lastScanned : o.lastScanned = max o.window.last c
  head : o.head = head

/-- What a worker's tick leaves behind. -/
def Leaves (s : Scraper) (overlap head c : UInt64) (isHeld : Bool) :
    Except Fault TickOutcome → Watched → Prop
  | .ok o, st => Advances overlap head c o ∧
    s.StandsAt overlap head o.lastScanned isHeld true st.world
  | .error _, st => st.failed s.party.caller = true

variable {F : Outages} {st : Watched}

/-- The numbers of a plan that is read where a worker stands. -/
theorem StandsAt.planned {p : Plan}
    (H : s.Planned Watched.world (fun st => s.StandsAt overlap head c isHeld isStored st.world) p) :
    p.overlap = overlap ∧ p.lastScanned = c ∧ p.head = head := by
  obtain ⟨st₁, h₁, hoverlap⟩ := H.overlap
  obtain ⟨st₂, h₂, hlast⟩ := H.lastScanned
  obtain ⟨st₃, h₃, hhead⟩ := H.head
  obtain ⟨head', hhead', hfixed⟩ := h₃.tuned.head
  refine ⟨?_, ?_, ?_⟩
  · exact Option.some.inj (hoverlap.symm.trans h₁.tuned.overlap)
  · exact Option.some.inj (hlast.symm.trans h₂.lastBlock)
  · exact (Option.some.inj (hhead.symm.trans hhead')).trans hfixed

theorem tickHeld_leaves (hst : s.StandsAt overlap head c true false st.world) :
    s.tickHeld.run.Abides (s.party.pact F) (s.Leaves overlap head c true) st := by
  apply Action.Abides.of_results
  rw [tickHeld_eq]
  apply Action.Abides.bind
  -- Once the last block has been read it is stored.
  have hplans : ∀ isStored, s.PlansUnder (s.party.pact F) Watched.world
      (fun st => s.StandsAt overlap head c true isStored st.world)
      (·.failed s.party.caller = true) := fun _ => StandsAt.plansUnder
  refine ((hplans false).readPlan_stores (hplans true) (fun _ h => h.weaken) ?_ hst).mono ?_
    fun _ _ h => h.2
  · intro st₁ last h hholds
    obtain rfl := Option.some.inj (h.lastBlock.symm.trans hholds.height?)
    exact { h with stored := fun _ => hholds }
  intro p st₁ hplan
  obtain ⟨hst₁, hp, -⟩ := hplan
  obtain ⟨hoverlap, hlast, hhead⟩ := StandsAt.planned hp
  have hscans : (s.party.pact F).Allows s.Scans
      fun st => s.StandsAt overlap head c true true st.world :=
    StandsAt.allows fun _ hq => .inr (.inl hq)
  apply Action.Abides.bind
  refine (scanWindow_abides hscans (Party.allows_failed hscans)
    (fun _ _ hanswer hfailed => Outages.failed_of_failed hanswer hfailed) _ _ _ _ hst₁).mono ?_
    fun _ _ h => h.2
  intro o st₂ hscanned
  obtain ⟨hwindow, hst₂⟩ := hscanned
  rw [hoverlap, hlast, hhead] at hwindow
  refine (advance_abides Party.pact_over StandsAt.stable hst₂
    (D := fun st => s.StandsAt overlap head (p.next o) true true st.world)
    ?stays ?guar ?moves ?fails ?tells).mono ?_ fun _ _ h => h
  case stays =>
    intro hstays st₃ h
    rw [hstays, hlast]
    exact h
  case guar =>
    intro st₃ answer st₄ _ hanswer
    have hasks : s.party.asks
        (.writeCheckpoint s.task.lastBlockKey (Number.showUInt64 (p.next o))) := ⟨rfl, _, rfl⟩
    exact Party.guar_of_asks hasks hanswer
  case moves =>
    intro st₃ answer st₄ h _ hworld
    rw [hworld]
    exact h.afterWrite aside_uncancelled _
  case fails =>
    exact fun _ _ fault _ hanswer => Outages.failed_of_failed hanswer ⟨fault, Eq.refl _⟩
  case tells =>
    refine StandsAt.allows fun q hq => ?_
    obtain ⟨notice, rfl⟩ := hq
    exact .inr (.inl trivial)
  · intro o' st₃ h
    obtain ⟨rfl, hst₃⟩ := h
    exact ⟨⟨⟨p.range, hp.range_ne, hwindow⟩, congrArg (max o.window.last) hlast, hhead⟩, hst₃⟩

theorem Leaves.stable (result : Except Fault TickOutcome) :
    (s.party.pact F).Stable (s.Leaves overlap head c isHeld result) := by
  intro st st' h hrely
  cases result with
  | ok o => exact ⟨h.1, StandsAt.stable (F := F) h.2 hrely⟩
  | error fault => exact Party.failed_stable (F := F) h hrely

theorem tick_leaves (hst : s.StandsAt overlap head c false false st.world) :
    s.tick.run.Abides (s.party.pact F) (s.Leaves overlap head c false) st := by
  refine s.party.guarded (s.Leaves overlap head c true) (Eq.refl s.guard) (Eq.refl s.guard)
    StandsAt.stable Leaves.stable (fun _ h => h.guard) ?_ ?_ hst
  · exact fun st₁ h => tickHeld_leaves (h.withGuard aside_uncancelled true)
  · intro result st₁ h
    cases result with
    | error fault => exact h
    | ok o => exact ⟨h.1, h.2.withGuard aside_uncancelled false⟩

end Scraper

end ChainIngest
