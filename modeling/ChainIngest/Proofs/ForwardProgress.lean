import ChainIngest.CatchUp
import ChainIngest.HeadTracker
import ChainIngest.Proofs.Guards
import ChainIngest.Proofs.HeadRecords
import ChainIngest.Proofs.LateTransfers

/-! Progress, whatever runs beside what. Stored heights never go back, and no last block passes the
head that is stored for its chain: who writes one of them holds the guard that keeps others from
writing it, from reading the old height on. -/

namespace ChainIngest

/-- The stored head of a chain, or zero if there is none. -/
def Surroundings.storedHead (w : Surroundings) (chain : String) : UInt64 :=
  (w.height? (CheckpointKey.head chain) 0).getD 0

/-- Scrapers and head trackers that write no checkpoint in common. -/
structure Crew where
  scrapers : List Scraper
  trackers : List HeadTracker
  keys_disjoint : ∀ s ∈ scrapers, ∀ s' ∈ scrapers, s ≠ s' → s.task.keys.Disjoint s'.task.keys
  heads_ne : ∀ t ∈ trackers, ∀ t' ∈ trackers, t ≠ t' →
    CheckpointKey.head t.chain ≠ CheckpointKey.head t'.chain

/-- What may be asked of a scraper or of a head tracker. -/
inductive Call where
  | tick (s : Scraper)
  | tryTick (s : Scraper)
  | catchUp (s : Scraper)
  | record (t : HeadTracker) (height : UInt64)
  | refresh (t : HeadTracker)

/-- What a call does; what it answers with is not looked at. -/
def Call.process : Call → Process Engine Unit
  | .tick s => (Process.run s.tick.run).map fun _ => ()
  | .tryTick s => (Process.run s.tryTick).map fun _ => ()
  | .catchUp s => (CatchUp.worker s).map fun _ => ()
  | .record t height => (Process.run (t.record height).run).map fun _ => ()
  | .refresh t => (Process.run t.refresh.run).map fun _ => ()

theorem Scraper.Scans.unguarded {q : Engine.Query} {s : Scraper} (H : s.Scans q) :
    Unguarded q := by
  cases q with
  | insertTransfer | tell | whitelist | block | blockTime | transferLogs =>
    exact fun own => ⟨trivial, fun _ => rfl⟩
  | _ => exact absurd H id

namespace Crew

def Takes (F : Crew) : Call → Prop
  | .tick s | .tryTick s | .catchUp s => s ∈ F.scrapers
  | .record t _ | .refresh t => t ∈ F.trackers

/-- A change that moves heights forward, and last blocks no further than the stored head. The last
block of a scraper and the head of a tracker stay where they are if their guard is among those that
are given. -/
structure Forward (F : Crew) (guards : Guard → Prop) (w w' : Surroundings) : Prop where
  grows : ∀ key n, w.store.checkpoints.Holds key n →
    ∃ n', w'.store.checkpoints.Holds key n' ∧ n ≤ n'
  capped : ∀ s ∈ F.scrapers, ∀ v',
    w'.height? s.task.lastBlockKey s.task.startBlock = some v' →
    ∃ v, w.height? s.task.lastBlockKey s.task.startBlock = some v ∧
      v' ≤ max v (w'.storedHead s.task.chain)
  lastBlock : ∀ s ∈ F.scrapers, guards s.guard →
    w'.height? s.task.lastBlockKey s.task.startBlock =
      w.height? s.task.lastBlockKey s.task.startBlock
  head : ∀ t ∈ F.trackers, guards t.guard →
    w'.height? (CheckpointKey.head t.chain) 0 = w.height? (CheckpointKey.head t.chain) 0

variable {F : Crew} {guards fewer : Guard → Prop} {w w' w'' : Surroundings} {s : Scraper}
  {t : HeadTracker}

namespace Forward

theorem storedHead_le (H : F.Forward guards w w') (chain : String) :
    w.storedHead chain ≤ w'.storedHead chain := by
  unfold Surroundings.storedHead
  cases hheight : w.height? (CheckpointKey.head chain) 0 with
  | none => exact UInt64.zero_le
  | some height =>
    rcases Checkpoints.holds_or_of_height? hheight with hholds | ⟨-, rfl⟩
    · obtain ⟨height', hholds', hle⟩ := H.grows _ _ hholds
      rw [show w'.height? (CheckpointKey.head chain) 0 = some height' from hholds'.height?]
      exact hle
    · exact UInt64.zero_le

theorem of_checkpoints (h : w'.store.checkpoints = w.store.checkpoints) :
    F.Forward guards w w' := by
  have hheight : ∀ key initial, w'.height? key initial = w.height? key initial := by
    intro key initial
    rw [Surroundings.height?, h, Surroundings.height?]
  refine ⟨fun key n hholds => ⟨n, h ▸ hholds, UInt64.le_refl n⟩, ?_, fun _ _ _ => hheight .., ?_⟩
  · intro s _ v' hv'
    exact ⟨v', (hheight ..).symm.trans hv', Height.le_max_left ..⟩
  · exact fun _ _ _ => hheight ..

theorem trans (H : F.Forward guards w w') (H' : F.Forward guards w' w'') :
    F.Forward guards w w'' where
  grows key n hholds := by
    obtain ⟨n', hholds', hle⟩ := H.grows key n hholds
    obtain ⟨n'', hholds'', hle'⟩ := H'.grows key n' hholds'
    exact ⟨n'', hholds'', UInt64.le_trans hle hle'⟩
  capped s hs v'' hv'' := by
    obtain ⟨v', hv', hle'⟩ := H'.capped s hs v'' hv''
    obtain ⟨v, hv, hle⟩ := H.capped s hs v' hv'
    have hhead := H'.storedHead_le s.task.chain
    refine ⟨v, hv, ?_⟩
    rw [UInt64.le_iff_toNat_le, Height.toNat_max] at *
    omega
  lastBlock s hs hguard := (H'.lastBlock s hs hguard).trans (H.lastBlock s hs hguard)
  head t ht hguard := (H'.head t ht hguard).trans (H.head t ht hguard)

/-- Reading moves nothing. A checkpoint that is created by reading holds the default that it would
have been read as. -/
theorem afterRead
    (hlast : ∀ s ∈ F.scrapers, s.task.lastBlockKey = key → s.task.startBlock = initial)
    (hhead : ∀ chain, CheckpointKey.head chain = key → 0 = initial) :
    F.Forward guards w (w.afterRead key initial) := by
  have hstays : ∀ s ∈ F.scrapers, (w.afterRead key initial).height? s.task.lastBlockKey
      s.task.startBlock = w.height? s.task.lastBlockKey s.task.startBlock :=
    fun s hs => Checkpoints.height?_getOrCreate (hlast s hs)
  refine ⟨fun k n hholds => ?_, ?_, fun s hs _ => hstays s hs,
    fun t _ _ => Checkpoints.height?_getOrCreate (hhead t.chain)⟩
  · exact ⟨n, hholds.getOrCreate, UInt64.le_refl n⟩
  · exact fun s hs v hv => ⟨v, (hstays s hs).symm.trans hv, Height.le_max_left ..⟩

theorem afterRead_of_scraper (hs : s ∈ F.scrapers) (h : (key, initial) ∈ s.task.readings) :
    F.Forward guards w (w.afterRead key initial) := by
  apply afterRead
  · intro s' hs' hkey
    by_cases hsame : s' = s
    · subst hsame
      exact ScanTask.admits_of_mem h ScanTask.lastBlock_mem hkey
    · exact ScanTask.admits_of_disjoint (F.keys_disjoint s' hs' s hs hsame) h
        ScanTask.lastBlock_mem hkey
  · intro chain hkey
    rcases ScanTask.mem_readings h with hmem | ⟨-, hzero⟩
    · exact absurd hkey.symm (ScanTask.key_ne_head hmem)
    · exact hzero.symm

theorem afterRead_of_tracker : F.Forward guards w (w.afterRead (CheckpointKey.head chain) 0) :=
  afterRead (fun _ _ hkey => absurd hkey CheckpointKey.lastBlock_ne_head) fun _ _ => rfl

theorem grows_afterWrite (h : ∀ n, w.store.checkpoints.Holds key n → n ≤ next) (k : String)
    (n : UInt64) (hholds : w.store.checkpoints.Holds k n) :
    ∃ n', (w.afterWrite key next).store.checkpoints.Holds k n' ∧ n ≤ n' := by
  by_cases hkey : k = key
  · subst hkey
    exact ⟨next, Checkpoints.holds_put .., h n hholds⟩
  · exact ⟨n, hholds.put_of_ne hkey, UInt64.le_refl n⟩

/-- A scraper moves its last block forward, no further than the stored head. -/
theorem afterWrite_of_scraper (hs : s ∈ F.scrapers) (hguard : ¬guards s.guard)
    (hlast : w.height? s.task.lastBlockKey s.task.startBlock = some last) (hle : last ≤ next)
    (hcap : next ≤ max last (w.storedHead s.task.chain)) :
    F.Forward guards w (w.afterWrite s.task.lastBlockKey next) := by
  have hother : ∀ s' ∈ F.scrapers, s' ≠ s → s'.task.lastBlockKey ≠ s.task.lastBlockKey := by
    intro s' hs' hne heq
    have hmem : s'.task.lastBlockKey ∈ s'.task.keys := by simp [ScanTask.keys]
    exact F.keys_disjoint s' hs' s hs hne hmem (by simp [ScanTask.keys, heq])
  have hhead : ∀ chain, (w.afterWrite s.task.lastBlockKey next).height?
      (CheckpointKey.head chain) 0 = w.height? (CheckpointKey.head chain) 0 :=
    fun chain => Scraper.height?_afterWrite CheckpointKey.lastBlock_ne_head.symm
  refine ⟨grows_afterWrite ?_, ?_, ?_, fun t _ _ => hhead t.chain⟩
  · intro n hholds
    obtain rfl := Option.some.inj (hlast.symm.trans hholds.height?)
    exact hle
  · intro s' hs' v' hv'
    rw [Surroundings.storedHead, hhead]
    by_cases hsame : s' = s
    · subst hsame
      obtain rfl := Option.some.inj (hv'.symm.trans (Checkpoints.holds_put ..).height?)
      exact ⟨last, hlast, hcap⟩
    · rw [Scraper.height?_afterWrite (hother s' hs' hsame)] at hv'
      exact ⟨v', hv', Height.le_max_left ..⟩
  · intro s' hs' hguard'
    have hne : s' ≠ s := fun hsame => hguard (hsame ▸ hguard')
    exact Scraper.height?_afterWrite (hother s' hs' hne)

/-- A tracker moves the stored head forward. -/
theorem afterWrite_of_tracker (ht : t ∈ F.trackers) (hguard : ¬guards t.guard)
    (hstored : w.height? (CheckpointKey.head t.chain) 0 = some stored) (hle : stored ≤ next) :
    F.Forward guards w (w.afterWrite (CheckpointKey.head t.chain) next) := by
  have hlast : ∀ s : Scraper, (w.afterWrite (CheckpointKey.head t.chain) next).height?
      s.task.lastBlockKey s.task.startBlock = w.height? s.task.lastBlockKey s.task.startBlock :=
    fun s => Scraper.height?_afterWrite CheckpointKey.lastBlock_ne_head
  refine ⟨grows_afterWrite ?_, ?_, fun s _ _ => hlast s, ?_⟩
  · intro n hholds
    obtain rfl := Option.some.inj (hstored.symm.trans hholds.height?)
    exact hle
  · exact fun s _ v hv => ⟨v, (hlast s).symm.trans hv, Height.le_max_left ..⟩
  · intro t' ht' hguard'
    have hne : t' ≠ t := fun hsame => hguard (hsame ▸ hguard')
    exact Scraper.height?_afterWrite (F.heads_ne t' ht' t ht hne)

end Forward

def discipline (F : Crew) : Discipline where
  keeps := F.Forward
  refl := .of_checkpoints rfl
  trans := .trans
  mono h H := ⟨H.grows, H.capped, fun s hs hguard => H.lastBlock s hs (h _ hguard),
    fun t ht hguard => H.head t ht (h _ hguard)⟩
  withGuard := .of_checkpoints rfl

/-- Queries that leave guards and checkpoints alone leave true what is said of these. -/
theorem allows_of_checkpoints {Q : Engine.Query → Prop} {K : Surroundings × Option Guard → Prop}
    (stable : F.discipline.pact.Stable K) (hQ : ∀ q, Q q → Unguarded q)
    (effect : ∀ {w w' : Surroundings} {q answer}, Q q → w.Responds q answer w' →
      w'.store.checkpoints = w.store.checkpoints)
    (hK : ∀ {w w' own}, w'.store.checkpoints = w.store.checkpoints → K (w, own) → K (w', own)) :
    F.discipline.pact.Allows Q K where
  stable := stable
  answered _ _ hlive := hlive.elim
  keeps := by
    rintro ⟨w, own⟩ q answer ⟨w', own'⟩ hq h ⟨hresponds, hown⟩
    obtain ⟨hminds, hafter⟩ := hQ q hq own
    obtain rfl : own' = own := hown.trans (hafter answer)
    have hsame := effect hq hresponds
    exact ⟨⟨.of_checkpoints hsame, hminds⟩, hK hsame h⟩

/-- Queries that change nothing. -/
def Looks : Engine.Query → Prop
  | .tell _ | .isCancelled | .headHeight _ => True
  | _ => False

theorem Looks.effect {q : Engine.Query} {answer : Engine.Answer q} (H : Looks q)
    (hresponds : w.Responds q answer w') : w' = w := by
  cases q with
  | tell => exact hresponds.of_tell
  | isCancelled | headHeight => exact hresponds.elim And.right And.left
  | _ => exact absurd H id

theorem looks_allowed (own : Option Guard) :
    F.discipline.pact.Allows Looks fun st => st.2 = own := by
  apply allows_of_checkpoints (Discipline.holding_stable own) _ _ fun _ h => h
  · intro q hq own
    cases q with
    | tell | isCancelled | headHeight => exact ⟨trivial, fun _ => rfl⟩
    | _ => exact absurd hq id
  · intro w w' q answer hq hresponds
    rw [hq.effect hresponds]

/-- A scraper holds its guard, and its last block is where it has been. -/
def Stays (s : Scraper) (last? : Option UInt64) (st : Surroundings × Option Guard) : Prop :=
  st.2 = some s.guard ∧ st.1.height? s.task.lastBlockKey s.task.startBlock = last?

theorem stays_stable (hs : s ∈ F.scrapers) (last? : Option UInt64) :
    F.discipline.pact.Stable (Stays s last?) := by
  intro st st' h hrely
  obtain ⟨hown, hlast⟩ := h
  obtain ⟨hforward, hsame⟩ := hrely
  exact ⟨hsame.trans hown, (hforward.lastBlock s hs hown).trans hlast⟩

theorem stays_plansUnder (hs : s ∈ F.scrapers) (last? : Option UInt64) :
    s.PlansUnder F.discipline.pact Prod.fst (Stays s last?) fun _ => True where
  pactOver := Discipline.pact_over
  reads :=
    { stable := stays_stable hs last?
      answered := fun _ _ hlive => hlive.elim
      keeps := by
        rintro ⟨w, own⟩ q answer ⟨w', own'⟩ hq ⟨hown, hlast⟩ ⟨hresponds, hown'⟩
        have heffect := hq.effect hresponds
        obtain ⟨key, initial, hmem, rfl⟩ := hq
        rcases heffect with rfl | ⟨key', initial', hmem', rfl⟩
        · exact ⟨⟨.of_checkpoints rfl, trivial⟩, hown'.trans hown, hlast⟩
        · refine ⟨⟨.afterRead_of_scraper hs hmem', trivial⟩, hown'.trans hown, ?_⟩
          exact (Scraper.height?_afterRead ScanTask.lastBlock_mem
            (ScanTask.admits_of_mem hmem')).trans hlast }
  fails _ _ _ _ := trivial
  illegible _ _ _ _ := trivial
  empty _ _ := trivial

/-- A tick under way moves the last block to the end of its window, which the head caps that it has
read; the stored head can only have moved forward since. -/
theorem tickHeld_abides (hs : s ∈ F.scrapers) {st : Surroundings × Option Guard}
    (hst : st.2 = some s.guard) :
    s.tickHeld.run.Abides F.discipline.pact (fun _ st => st.2 = some s.guard) st := by
  apply Action.Abides.of_results
  have hstays : Stays s (st.1.height? s.task.lastBlockKey s.task.startBlock) st := ⟨hst, rfl⟩
  rw [Scraper.tickHeld_eq]
  apply Action.Abides.bind
  refine ((stays_plansUnder hs _).readPlan_abides hstays).mono ?_ fun _ _ h => h.1.1
  intro p st₁ hplan
  obtain ⟨hstays₁, hp, hhead⟩ := hplan
  obtain ⟨st₂, hstays₂, hread⟩ := hp.lastScanned
  have hlast := hstays₂.2.symm.trans hread
  rw [hlast] at hstays₁
  -- From here on the head that was read is a lower bound of the stored one.
  let K : Surroundings × Option Guard → Prop := fun st =>
    Stays s (some p.lastScanned) st ∧ p.head ≤ st.1.storedHead s.task.chain
  have hstable : F.discipline.pact.Stable K := fun h hrely =>
    ⟨stays_stable hs _ h.1 hrely, UInt64.le_trans h.2 (hrely.1.storedHead_le _)⟩
  have hcongr : ∀ {w w' : Surroundings} {own},
      w'.store.checkpoints = w.store.checkpoints → K (w, own) → K (w', own) := by
    intro w w' own hsame h
    simp only [K, Stays, Surroundings.storedHead, Surroundings.height?, hsame] at h ⊢
    exact h
  have hscans : F.discipline.pact.Allows s.Scans K := by
    apply allows_of_checkpoints hstable (fun q hq => hq.unguarded) _ hcongr
    intro w w' q answer hq hresponds
    rcases hq.effect hresponds with rfl | ⟨t, rfl⟩
    · rfl
    · rfl
  have hK₁ : K st₁ := by
    refine ⟨hstays₁, ?_⟩
    have hstored : st₁.1.height? (CheckpointKey.head s.task.chain) 0 = some p.head := hhead
    rw [Surroundings.storedHead, hstored]
    exact UInt64.le_refl p.head
  apply Action.Abides.bind
  refine (Scraper.scanWindow_keeps hscans _ _ _ _ hK₁).mono ?_ fun _ _ h => h.1.1
  intro o st₃ hscanned
  obtain ⟨hwindow, hK₃⟩ := hscanned
  have hnext : p.lastScanned ≤ p.next o ∧ p.next o ≤ max p.lastScanned p.head := by
    have hle : o.window.last ≤ p.head := hwindow ▸ Window.compute_last_le
    rw [UInt64.le_iff_toNat_le] at hle
    simp only [Scraper.Plan.next, UInt64.le_iff_toNat_le, Height.toNat_max]
    omega
  refine (Scraper.advance_abides Discipline.pact_over hstable hK₃
    (D := fun st => st.2 = some s.guard) ?stays ?guar ?moves ?fails ?tells).mono ?_ fun _ _ h => h
  case stays => exact fun _ st h => h.1.1
  case guar =>
    rintro ⟨w, own⟩ answer ⟨w', own'⟩ ⟨⟨hown, hlast⟩, hhead⟩ ⟨hresponds, -⟩
    have hguard : ¬own ≠ some s.guard := fun hne => hne hown
    refine ⟨?_, trivial⟩
    rcases hresponds with ⟨-, hafter⟩ | ⟨hsame, -⟩
    · obtain rfl : w' = w.afterWrite s.task.lastBlockKey (p.next o) := hafter
      refine .afterWrite_of_scraper hs hguard hlast hnext.1 ?_
      have hcap := hnext.2
      rw [UInt64.le_iff_toNat_le, Height.toNat_max] at *
      omega
    · obtain rfl : w' = w := hsame
      exact .of_checkpoints rfl
  case moves => exact fun st answer st' h hanswer _ => hanswer.2.trans h.1.1
  case fails => exact fun st st' fault h hanswer => hanswer.2.trans h.1.1
  case tells =>
    refine (looks_allowed _).mono fun q hq => ?_
    obtain ⟨notice, rfl⟩ := hq
    exact trivial
  exact fun _ _ h => h.2

theorem tick_minds (hs : s ∈ F.scrapers) (w : Surroundings) :
    F.discipline.Minds s.tick.run none w :=
  .guarded (fun _ hst => tickHeld_abides hs hst) w

theorem tryTick_minds (hs : s ∈ F.scrapers) (w : Surroundings) :
    F.discipline.Minds s.tryTick none w := by
  apply Program.Abides.bind
  apply Program.Abides.ask (Discipline.holding_stable none) rfl fun _ _ hlive => hlive.elim
  intro st taken st' hnone htaken
  obtain ⟨hresponds, hown⟩ := htaken
  refine ⟨⟨.of_checkpoints ?_, hnone⟩, ?_⟩
  · rcases hresponds with ⟨-, hafter⟩ | ⟨hsame, -⟩
    · exact hafter ▸ rfl
    · exact hsame ▸ rfl
  cases taken with
  | false => exact hown.trans hnone
  | true =>
    apply Program.Abides.bind
    refine (tickHeld_abides hs hown).mono ?_
    intro result st₁ hown₁
    apply Program.Abides.bind
    apply Program.Abides.ask (Discipline.holding_stable _) hown₁ fun _ _ hlive => hlive.elim
    intro st₂ _ st₃ hown₂ hreleased
    obtain ⟨hresponds, hnone⟩ := hreleased
    refine ⟨⟨.of_checkpoints ?_, hown₂⟩, hnone⟩
    rcases hresponds with hafter | ⟨hsame, -⟩
    · exact (show st₃.1 = st₂.1.withGuard s.guard false from hafter) ▸ rfl
    · exact hsame ▸ rfl

theorem round_minds (hs : s ∈ F.scrapers) (report : CatchUpReport) (w : Surroundings) :
    F.discipline.Minds (CatchUp.round s report) none w := by
  have hlooks : Looks .isCancelled := trivial
  apply Program.Abides.bind
  refine (Program.Abides.query (looks_allowed none) hlooks rfl).mono ?_
  rintro cancelled ⟨w₁, own⟩ ⟨st, -, -, hnone⟩
  obtain rfl : own = none := hnone
  cases cancelled with
  | true => exact Eq.refl none
  | false =>
    apply Program.Abides.bind
    refine (tick_minds hs w₁).mono ?_
    intro result st' hnone
    cases result with
    | error fault => exact hnone
    | ok o =>
      simp only
      split
      · exact hnone
      · exact hnone

/-- A tracker writes a height only above the one that it has read, which stays while it holds its
guard. -/
theorem recordHeld_abides (ht : t ∈ F.trackers) (height : UInt64)
    {st : Surroundings × Option Guard} (hst : st.2 = some t.guard) :
    (t.recordHeld height).run.Abides F.discipline.pact (fun _ st => st.2 = some t.guard) st := by
  let K : Option UInt64 → Surroundings × Option Guard → Prop := fun stored st' =>
    st'.2 = some t.guard ∧ st'.1.height? (CheckpointKey.head t.chain) 0 = stored
  -- While the guard is held nobody else writes the head, so what was read is still stored.
  have hstable : ∀ stored, F.discipline.pact.Stable (K stored) := fun stored _ _ h hrely =>
    ⟨hrely.2.trans h.1, (hrely.1.head t ht h.1).trans h.2⟩
  have H : t.RecordsUnder height F.discipline.pact Prod.fst
      (K (st.1.height? (CheckpointKey.head t.chain) 0)) (fun before => K (some before))
      (fun _ st' => st'.2 = some t.guard) (fun _ st' => st'.2 = some t.guard) := by
    refine ⟨Discipline.pact_over, ?reads, fun _ _ _ h => h.1, fun h hholds => ⟨h.1, hholds.height?⟩,
      ?tells, fun _ h => h.1, ?guar, fun _ h hanswer _ => hanswer.2.trans h.1,
      fun _ h hanswer _ => hanswer.2.trans h.1⟩
    case reads =>
      refine ⟨hstable _, fun _ _ hlive => hlive.elim, ?_⟩
      rintro ⟨w, own⟩ q answer ⟨w', own'⟩ rfl ⟨hown, hstored⟩ ⟨hresponds, hown'⟩
      rcases hresponds with ⟨-, hafter⟩ | ⟨hsame, -⟩
      · obtain rfl : w' = w.afterRead (CheckpointKey.head t.chain) 0 := hafter
        refine ⟨⟨.afterRead_of_tracker, trivial⟩, hown'.trans hown, ?_⟩
        exact (Checkpoints.height?_getOrCreate fun _ => rfl).trans hstored
      · obtain rfl : w' = w := hsame
        exact ⟨⟨.of_checkpoints rfl, trivial⟩, hown'.trans hown, hstored⟩
    case tells =>
      refine ⟨hstable _, fun _ _ hlive => hlive.elim, ?_⟩
      rintro ⟨w, own⟩ q answer ⟨w', own'⟩ ⟨notice, rfl⟩ h ⟨hresponds, hown'⟩
      obtain rfl : w' = w := hresponds.of_tell
      exact ⟨⟨.of_checkpoints rfl, trivial⟩, hown'.trans h.1, h.2⟩
    case guar =>
      rintro before ⟨w, own⟩ answer ⟨w', own'⟩ hlt ⟨hown, hstored⟩ ⟨hresponds, -⟩
      have hguard : ¬own ≠ some t.guard := fun hne => hne hown
      refine ⟨?_, trivial⟩
      rcases hresponds with ⟨-, hafter⟩ | ⟨hsame, -⟩
      · obtain rfl : w' = w.afterWrite (CheckpointKey.head t.chain) height := hafter
        exact .afterWrite_of_tracker ht hguard hstored (UInt64.le_of_lt hlt)
      · obtain rfl : w' = w := hsame
        exact .of_checkpoints rfl
  exact Action.Abides.of_results (H.recordHeld_abides ⟨hst, rfl⟩)

theorem record_minds (ht : t ∈ F.trackers) (height : UInt64) (w : Surroundings) :
    F.discipline.Minds (t.record height).run none w :=
  .guarded (fun _ hst => recordHeld_abides ht height hst) w

theorem refresh_minds (ht : t ∈ F.trackers) (w : Surroundings) :
    F.discipline.Minds t.refresh.run none w := by
  have hlooks : Looks (.headHeight t.node) := trivial
  apply Program.Abides.bind
  refine (Program.Abides.query (looks_allowed none) hlooks rfl).mono ?_
  rintro height? ⟨w₁, own⟩ ⟨st, -, -, hnone⟩
  obtain rfl : own = none := hnone
  cases height? with
  | error fault => exact Eq.refl none
  | ok height => exact record_minds ht height w₁

end Crew

/-- Every call keeps to the discipline of its crew. -/
theorem Call.safe {F : Crew} {c : Call} (h : F.Takes c) (w : Surroundings) :
    Process.Safe F.discipline (fun _ => False) c.process w := by
  cases c with
  | tick s => exact .map (.run (Crew.tick_minds h w))
  | tryTick s => exact .map (.run (Crew.tryTick_minds h w))
  | catchUp s => exact .map ⟨fun _ => id, fun report w' => .run (Crew.round_minds h report w')⟩
  | record t height => exact .map (.run (Crew.record_minds h height w))
  | refresh t => exact .map (.run (Crew.refresh_minds h w))

/-- However the calls that are asked of a crew go on beside each other, and whichever of their
queries fail, from any moment on heights only grow, and at every moment a last block is at most what
it was at the start, or would have been created with, or the head that is stored for its chain. -/
theorem Crew.heights_grow_below_head {F : Crew} {C : Conduct} {calls : List Call}
    {w₀ w w' : Surroundings} {p p' : Process Engine (List Unit)}
    (hC : ∀ w w', C.drift w w' →
      w'.store.checkpoints = w.store.checkpoints ∧ w'.held = w.held)
    (hcalls : ∀ c ∈ calls, F.Takes c)
    (hreaches : (Process.all (calls.map Call.process)).Reaches C.Answers w₀ p w)
    (hgoesOn : p.Reaches C.Answers w p' w') :
    (∀ key n, w.store.checkpoints.Holds key n →
      ∃ n', w'.store.checkpoints.Holds key n' ∧ n ≤ n') ∧
    ∀ s ∈ F.scrapers, ∀ last, w.store.checkpoints.Holds s.task.lastBlockKey last →
      ∃ first, w₀.height? s.task.lastBlockKey s.task.startBlock = some first ∧
        last ≤ max first (w.storedHead s.task.chain) := by
  have hdrift : ∀ {w w'}, C.drift w w' →
      F.discipline.keeps (fun _ => True) w w' ∧ w'.held = w.held := by
    intro w w' h
    obtain ⟨hcheckpoints, hheld⟩ := hC w w' h
    exact ⟨.of_checkpoints hcheckpoints, hheld⟩
  have hsafe : Process.Safe F.discipline (fun _ => False)
      (Process.all (calls.map Call.process)) w₀ := by
    apply Process.Safe.all
    intro q hq w
    obtain ⟨c, hc, rfl⟩ := List.mem_map.mp hq
    exact Call.safe (hcalls c hc) w
  obtain ⟨hbefore, held, hsafe', hheld⟩ := hsafe.reaches hdrift nofun hreaches
  obtain ⟨hafter, -⟩ := hsafe'.reaches hdrift hheld hgoesOn
  exact ⟨hafter.grows, fun s hs last hlast => hbefore.capped s hs last hlast.height?⟩

/-- The sample's scraper, and a tracker of its chain. -/
def Crew.sample : Crew where
  scrapers := [.sampleToken]
  trackers := [⟨"mainnet", .poll, 0, [], HeadTracker.defaultResubscribeDelay⟩]
  keys_disjoint := by simp
  heads_ne := by simp

/-- After a tick of the sample, beside which the tracker is asked to record a lower head, the stored
head is not below 30, and the last block has not passed it. -/
theorem Crew.sample_heights : ∃ p w last,
    (Process.all ([.tick .sampleToken, .record ⟨"mainnet", .poll, 0, [], 5000⟩ 20].map
      Call.process)).Reaches (Conduct.undisturbed fun _ => True).Answers .sample p w ∧
    (∃ head, w.store.checkpoints.Holds (CheckpointKey.head "mainnet") head ∧ 30 ≤ head) ∧
    w.store.checkpoints.Holds Scraper.sampleToken.task.lastBlockKey last ∧
      last ≤ max 10 (w.storedHead "mainnet") := by
  obtain ⟨o, w, hclean, -, hlast⟩ := Scraper.sampleToken_ticks Stream.sampleToken_stands
  have hrun := Conduct.undisturbed_runs (fun _ => True) hclean
  have hreaches := (((Process.Reaches.of_runs hrun).andThen fun _ => Process.done ()).both
    (Process.all [(Call.record ⟨"mainnet", .poll, 0, [], 5000⟩ 20).process])).andThen
      fun (a, as) => Process.done (a :: as)
  have hcalls : ∀ c ∈ [Call.tick .sampleToken, .record ⟨"mainnet", .poll, 0, [], 5000⟩ 20],
      Crew.sample.Takes c := by
    simp [Crew.sample, Crew.Takes, HeadTracker.defaultResubscribeDelay]
  have hdrift : ∀ w w', (Conduct.undisturbed fun _ => True).drift w w' →
      w'.store.checkpoints = w.store.checkpoints ∧ w'.held = w.held := by
    rintro w _ rfl
    exact ⟨rfl, rfl⟩
  obtain ⟨hgrows, -⟩ := Crew.heights_grow_below_head hdrift hcalls .refl hreaches
  obtain ⟨-, hbelow⟩ := Crew.heights_grow_below_head hdrift hcalls hreaches .refl
  obtain ⟨first, hfirst, hle⟩ := hbelow .sampleToken List.mem_cons_self _ hlast
  obtain rfl := Option.some.inj (Stream.sampleToken_begins.lastBlock.symm.trans hfirst)
  exact ⟨_, w, _, hreaches, hgrows _ 30 (Checkpoints.holds_put ..), hlast, hle⟩

end ChainIngest
