import Mathlib.Data.List.Nodup
import ChainIngest.Proofs.CheckpointKeys
import ChainIngest.Proofs.Streams

/-! What a tick does. It reads the stream's checkpoints, scans one window and moves the last block
forward; if a call fails then the last block stays, and some of the window's records have been
inserted. Others may do what leaves the stream's own checkpoints, the ledger and the guard alone. -/

namespace ChainIngest

/-- The checkpoints that a tick reads, with what each is created with. -/
def ScanTask.readings (t : ScanTask) : List (String × UInt64) :=
  [(t.scanRangeKey, t.scanRange), (t.overlapKey, t.overlap), (t.lastBlockKey, t.startBlock),
    (t.headKey, 0)]

namespace ScanTask

variable {t : ScanTask}

theorem lastBlockKey_ne_scanRangeKey : t.lastBlockKey ≠ t.scanRangeKey :=
  CheckpointKey.lastBlock_ne_scanRange

theorem lastBlockKey_ne_overlapKey : t.lastBlockKey ≠ t.overlapKey :=
  CheckpointKey.lastBlock_ne_overlap

theorem lastBlockKey_ne_headKey : t.lastBlockKey ≠ t.headKey := CheckpointKey.lastBlock_ne_head

/-- A task's keys differ. -/
theorem readings_nodup : (t.readings.map Prod.fst).Nodup := by
  simp only [readings, List.map_cons, List.map_nil, List.nodup_cons, List.mem_cons,
    List.not_mem_nil, or_false, not_or, not_false_eq_true, List.nodup_nil, and_true]
  exact ⟨⟨CheckpointKey.scanRange_ne_overlap, lastBlockKey_ne_scanRangeKey.symm,
    CheckpointKey.scanRange_ne_head⟩, ⟨lastBlockKey_ne_overlapKey.symm,
    CheckpointKey.overlap_ne_head⟩, lastBlockKey_ne_headKey⟩

theorem readings_inj (h : (k, d) ∈ t.readings) (h' : (k', d') ∈ t.readings) (hk : k = k') :
    d = d' :=
  congrArg Prod.snd (List.inj_on_of_nodup_map t.readings_nodup h h' hk)

/-- Reading a checkpoint with a default changes nothing that the task reads: it is another one, or
the default is the task's own. -/
def Admits (t : ScanTask) (key : String) (initial : UInt64) : Prop :=
  ∀ {k d}, (k, d) ∈ t.readings → k = key → d = initial

theorem admits_of_mem (h : (key, initial) ∈ t.readings) : t.Admits key initial :=
  fun h' hk => readings_inj h' h hk

theorem mem_readings (h : (key, initial) ∈ t.readings) :
    key ∈ t.keys ∨ key = t.headKey ∧ initial = 0 := by
  simp only [readings, List.mem_cons, Prod.mk.injEq, List.not_mem_nil, or_false] at h
  rcases h with ⟨rfl, -⟩ | ⟨rfl, -⟩ | ⟨rfl, -⟩ | ⟨rfl, rfl⟩
  · exact .inl (by simp [keys])
  · exact .inl (by simp [keys])
  · exact .inl (by simp [keys])
  · exact .inr ⟨rfl, rfl⟩

/-- Tasks whose own keys differ read the head alone in common, and with the same default. -/
theorem admits_of_disjoint {t' : ScanTask} (hkeys : t.keys.Disjoint t'.keys)
    (h : (key, initial) ∈ t'.readings) : t.Admits key initial := by
  intro k d hk heq
  rcases mem_readings h with hkey | ⟨hkey, rfl⟩
  · rcases mem_readings hk with hmem | ⟨hmem, -⟩
    · exact absurd hkey (hkeys (heq ▸ hmem))
    · exact absurd (heq.symm.trans hmem) (key_ne_head hkey)
  · rcases mem_readings hk with hmem | ⟨-, rfl⟩
    · exact absurd (heq.trans hkey) (key_ne_head hmem)
    · rfl

theorem scanRange_mem : (t.scanRangeKey, t.scanRange) ∈ t.readings := by simp [readings]

theorem overlap_mem : (t.overlapKey, t.overlap) ∈ t.readings := by simp [readings]

theorem lastBlock_mem : (t.lastBlockKey, t.startBlock) ∈ t.readings := by simp [readings]

theorem head_mem : (t.headKey, 0) ∈ t.readings := by simp [readings]

end ScanTask

/-- What the checkpoints that a stream does not write hold while it is scanned. -/
structure Terms where
  overlap : UInt64
  heads : UInt64 → Prop

namespace Scraper

/-- The checkpoints that a scraper only reads are as the terms say, with a range above zero. -/
structure Tuned (s : Scraper) (terms : Terms) (w : Surroundings) : Prop where
  range : ∃ r, w.height? s.task.scanRangeKey s.task.scanRange = some r ∧ r ≠ 0
  overlap : w.height? s.task.overlapKey s.task.overlap = some terms.overlap
  head : ∃ h, w.height? s.task.headKey 0 = some h ∧ terms.heads h

/-- The scraper stands at block `c`. Of `K` it keeps its hands off. -/
structure Stands (s : Scraper) (terms : Terms) (K : Surroundings → Prop) (c : UInt64)
    (isHeld isStored : Bool) (w : Surroundings) : Prop where
  aside : K w
  guard : w.held s.guard = isHeld
  tuned : s.Tuned terms w
  lastBlock : w.height? s.task.lastBlockKey s.task.startBlock = some c
  stored : isStored → w.store.checkpoints.Holds s.task.lastBlockKey c

/-- Nothing that a scraper or others do changes `K`. -/
structure Aside (s : Scraper) (C : Conduct) (K : Surroundings → Prop) : Prop where
  keeps : C.Keeps K
  insert : ∀ {w} l, K w → K (w.withLedger l)
  read : ∀ {w key initial}, (key, initial) ∈ s.task.readings → K w → K (w.afterRead key initial)
  write : ∀ {w} height, K w → K (w.afterWrite s.task.lastBlockKey height)
  guard : ∀ {w} isHeld, K w → K (w.withGuard s.guard isHeld)

/-- A scraper changes neither the chains nor who is whitelisted, and it cancels nothing. -/
theorem Aside.of_unwritten {s : Scraper} {C : Conduct}
    {K : ChainContents → List (UInt64 × Address) → Bool → Prop}
    (keeps : C.Keeps fun w => K w.chains w.store.recipients w.cancelled) :
    s.Aside C fun w => K w.chains w.store.recipients w.cancelled where
  keeps := keeps
  insert _ h := h
  read _ h := h
  write _ h := h
  guard _ h := h

end Scraper

/-- Others leave the ledger, the guard and the last block of a scraper alone, and the terms that it
is scanned on. -/
structure Conduct.Spares (C : Conduct) (s : Scraper) (terms : Terms) : Prop where
  ledger : ∀ l, C.Keeps (·.store.ledger = l)
  guard : ∀ isHeld, C.Keeps (·.held s.guard = isHeld)
  lastBlock : ∀ text?, C.Keeps (·.store.checkpoints.get? s.task.lastBlockKey = text?)
  tuned : C.Keeps (s.Tuned terms)

namespace Scraper

variable {C : Conduct} {s : Scraper} {terms : Terms} {K : Surroundings → Prop} {c : UInt64}
  {isHeld isStored : Bool} {w : Surroundings} {l : Ledger}

theorem height?_afterRead {t : ScanTask} (h : (k, d) ∈ t.readings) (h' : t.Admits key initial) :
    (w.afterRead key initial).height? k d = w.height? k d :=
  Checkpoints.height?_getOrCreate (h' h)

theorem height?_afterWrite (h : k ≠ key) :
    (w.afterWrite key height).height? k d = w.height? k d :=
  Checkpoints.height?_put_of_ne h

/-- A scraper's checkpoints can be read. -/
theorem Tuned.numeric (H : s.Tuned terms w)
    (hlast : w.height? s.task.lastBlockKey s.task.startBlock = some c)
    (h : (key, initial) ∈ s.task.readings) : ∃ height, w.height? key initial = some height := by
  simp only [ScanTask.readings, List.mem_cons, Prod.mk.injEq, List.not_mem_nil, or_false] at h
  rcases h with ⟨rfl, rfl⟩ | ⟨rfl, rfl⟩ | ⟨rfl, rfl⟩ | ⟨rfl, rfl⟩
  · exact H.range.imp fun _ => And.left
  · exact ⟨_, H.overlap⟩
  · exact ⟨_, hlast⟩
  · exact H.head.imp fun _ => And.left

theorem Tuned.afterRead (H : s.Tuned terms w) (h : s.task.Admits key initial) :
    s.Tuned terms (w.afterRead key initial) where
  range := by
    rw [height?_afterRead ScanTask.scanRange_mem h]
    exact H.range
  overlap := by
    rw [height?_afterRead ScanTask.overlap_mem h]
    exact H.overlap
  head := by
    rw [height?_afterRead ScanTask.head_mem h]
    exact H.head

theorem Tuned.afterWrite (H : s.Tuned terms w) (hrange : s.task.scanRangeKey ≠ key)
    (hoverlap : s.task.overlapKey ≠ key) (hhead : s.task.headKey ≠ key) :
    s.Tuned terms (w.afterWrite key height) where
  range := by
    rw [height?_afterWrite hrange]
    exact H.range
  overlap := by
    rw [height?_afterWrite hoverlap]
    exact H.overlap
  head := by
    rw [height?_afterWrite hhead]
    exact H.head

namespace Stands

theorem keeps (hC : C.Spares s terms) (hK : s.Aside C K) :
    C.Keeps (s.Stands terms K c isHeld isStored) := by
  intro w w' H hdrift
  have htext := hC.lastBlock _ (Eq.refl _) hdrift
  refine ⟨hK.keeps H.aside hdrift, hC.guard isHeld H.guard hdrift, hC.tuned H.tuned hdrift, ?_, ?_⟩
  · exact (Checkpoints.height?_congr htext).trans H.lastBlock
  · exact fun h => (H.stored h).congr htext

theorem withLedger (hK : s.Aside C K) (H : s.Stands terms K c isHeld isStored w) (l : Ledger) :
    s.Stands terms K c isHeld isStored (w.withLedger l) :=
  ⟨hK.insert l H.aside, H.guard, ⟨H.tuned.range, H.tuned.overlap, H.tuned.head⟩, H.lastBlock,
    H.stored⟩

theorem withGuard (hK : s.Aside C K) (H : s.Stands terms K c isHeld isStored w)
    (isHeld' : Bool) : s.Stands terms K c isHeld' isStored (w.withGuard s.guard isHeld') :=
  ⟨hK.guard isHeld' H.aside, Function.update_self ..,
    ⟨H.tuned.range, H.tuned.overlap, H.tuned.head⟩, H.lastBlock, H.stored⟩

theorem afterRead_of_admits (H : s.Stands terms K c isHeld isStored w)
    (h : s.task.Admits key initial) (hK : K (w.afterRead key initial)) :
    s.Stands terms K c isHeld isStored (w.afterRead key initial) := by
  refine ⟨hK, H.guard, H.tuned.afterRead h, ?_, ?_⟩
  · rw [height?_afterRead ScanTask.lastBlock_mem h]
    exact H.lastBlock
  · exact fun hstored => (H.stored hstored).getOrCreate

theorem afterRead (hK : s.Aside C K) (H : s.Stands terms K c isHeld isStored w)
    (h : (key, initial) ∈ s.task.readings) :
    s.Stands terms K c isHeld isStored (w.afterRead key initial) :=
  H.afterRead_of_admits (ScanTask.admits_of_mem h) (hK.read h H.aside)

/-- Reading the last block stores it. -/
theorem afterRead_lastBlock (hK : s.Aside C K) (H : s.Stands terms K c isHeld isStored w) :
    s.Stands terms K c isHeld true (w.afterRead s.task.lastBlockKey s.task.startBlock) :=
  { H.afterRead hK ScanTask.lastBlock_mem with
    stored := fun _ => Checkpoints.holds_getOrCreate H.lastBlock }

theorem afterWrite (hK : s.Aside C K) (H : s.Stands terms K c isHeld isStored w) (c' : UInt64) :
    s.Stands terms K c' isHeld true (w.afterWrite s.task.lastBlockKey c') :=
  ⟨hK.write c' H.aside, H.guard, H.tuned.afterWrite ScanTask.lastBlockKey_ne_scanRangeKey.symm
    ScanTask.lastBlockKey_ne_overlapKey.symm ScanTask.lastBlockKey_ne_headKey.symm,
    (Checkpoints.holds_put ..).height?, fun _ => Checkpoints.holds_put ..⟩

/-- Where a scraper stands is not changed by a write to a checkpoint that is not its own. -/
theorem afterWrite_of_ne (H : s.Stands terms K c isHeld false w) (hkeys : key ∉ s.task.keys)
    (hhead : s.task.headKey ≠ key) (hK : K (w.afterWrite key height)) :
    s.Stands terms K c isHeld false (w.afterWrite key height) := by
  simp only [ScanTask.keys, List.mem_cons, List.not_mem_nil, or_false, not_or] at hkeys
  obtain ⟨hlast, hrange, hoverlap⟩ := hkeys
  refine ⟨hK, H.guard, H.tuned.afterWrite (Ne.symm hrange) (Ne.symm hoverlap) hhead, ?_,
    fun h => absurd h Bool.false_ne_true⟩
  rw [height?_afterWrite (Ne.symm hlast)]
  exact H.lastBlock

theorem withGuard_of_ne {other : Guard} (H : s.Stands terms K c isHeld isStored w)
    (hguard : s.guard ≠ other) (hK : K (w.withGuard other isHeld')) :
    s.Stands terms K c isHeld isStored (w.withGuard other isHeld') :=
  ⟨hK, (Function.update_of_ne hguard ..).trans H.guard,
    ⟨H.tuned.range, H.tuned.overlap, H.tuned.head⟩, H.lastBlock, H.stored⟩

theorem weaken (H : s.Stands terms K c isHeld isStored w) : s.Stands terms K c isHeld false w :=
  { H with stored := nofun }

end Stands

theorem scans_stands (hC : C.Spares s terms) (hK : s.Aside C K) :
    C.Scans (s.Stands terms K c isHeld isStored) where
  keeps := Stands.keeps hC hK
  ledger := hC.ledger
  insert l H := H.withLedger hK l

/-- A scraper reads its checkpoints where it stands. -/
theorem readHeight_ensures {post : UInt64 → Surroundings → Prop}
    {fail : Fault → Surroundings → Prop} (hC : C.Spares s terms) (hK : s.Aside C K)
    (numeric : ∀ w, s.Stands terms K c isHeld isStored w → ∃ h, w.height? key initial = some h)
    (hw : s.Stands terms K c isHeld isStored w) (hl : w.store.ledger = l)
    (ok : ∀ w h, s.Stands terms K c isHeld isStored w → w.store.ledger = l →
      w.height? key initial = some h → post h (w.afterRead key initial))
    (fails : ∀ fault w, s.Stands terms K c isHeld isStored w → w.store.ledger = l →
      C.Fallible → fail fault w) :
    Action.Ensures C post fail (Engine.readHeight key initial) w := by
  apply Action.Ensures.readHeight ((scans_stands hC hK).keeps_ledger l) ⟨hw, hl⟩
  · exact fun w ⟨hw, _⟩ => numeric w hw
  · exact fun w h ⟨hw, hl⟩ hheight => ok w h hw hl hheight
  · exact fun w fault ⟨hw, hl⟩ hfail => fails fault w hw hl hfail

end Scraper

namespace Stream

/-- What a tick that succeeds leaves, with its outcome. -/
structure Ticked (st : Stream) (terms : Terms) (K : Surroundings → Prop) (c : UInt64) (l : Ledger)
    (isHeld : Bool) (o : TickOutcome) (w : Surroundings) : Prop where
  window : ∃ range, range ≠ 0 ∧ o.window = .compute c terms.overlap range o.head
  head : terms.heads o.head
  lastScanned : o.lastScanned = max o.window.last c
  scanned : Scanned (st.scraper.Stands terms K o.lastScanned isHeld true) l 0
    (Finds st.sought (o.window.Covers st.scraper.task.asset)) o.emitted w

/-- What a tick that fails leaves. -/
structure TickFailed (st : Stream) (C : Conduct) (terms : Terms) (K : Surroundings → Prop)
    (c : UInt64) (l : Ledger) (isHeld : Bool) (w : Surroundings) : Prop where
  fallible : C.Fallible
  stands : st.scraper.Stands terms K c isHeld false w
  inserted : ∃ ts, w.store.ledger = l.insertAll ts ∧ ∀ t ∈ ts, st.sought t ∧
    Height.subFloored c terms.overlap ≤ t.block ∧
    ∃ head, terms.heads head ∧ st.scraper.task.asset.Reaches head t.block

variable {C : Conduct} {st : Stream} {terms : Terms} {K : Surroundings → Prop} {c : UInt64}
  {isHeld isStored : Bool} {w : Surroundings} {l : Ledger}

theorem TickFailed.at_start (hfail : C.Fallible)
    (hw : st.scraper.Stands terms K c isHeld isStored w) (hl : w.store.ledger = l) :
    st.TickFailed C terms K c l isHeld w :=
  ⟨hfail, hw.weaken, [], hl, by simp⟩

/-- Whatever part of a window's records has been inserted, the records lie where they should. -/
theorem TickFailed.of_finds (hfail : C.Fallible)
    (hw : st.scraper.Stands terms K c isHeld isStored w)
    (hfinds : Finds st.sought
      ((Window.compute c terms.overlap range head).Covers st.scraper.task.asset) (ts ++ rest))
    (hhead : terms.heads head) (hl : w.store.ledger = l.insertAll ts) :
    st.TickFailed C terms K c l isHeld w := by
  refine ⟨hfail, hw.weaken, ts, hl, fun t ht => ?_⟩
  obtain ⟨hsought, hfirst, hlast⟩ := hfinds.sound t (List.mem_append_left rest ht)
  exact ⟨hsought, hfirst, head, hhead, hlast.mono Window.compute_last_le⟩

/-- After a scan the last block is moved forward, unless it lies there already. -/
theorem advance_ensures {o : ScanOutcome} (hC : C.Spares st.scraper terms)
    (hK : st.scraper.Aside C K) (hpos : range ≠ 0)
    (hwindow : o.window = .compute c terms.overlap range head) (hhead : terms.heads head)
    (hw : Scanned (st.scraper.Stands terms K c isHeld true) l 0
      (Finds st.sought (o.window.Covers st.scraper.task.asset)) o.emitted w) :
    Action.Ensures C (st.Ticked terms K c l isHeld) (fun _ => st.TickFailed C terms K c l isHeld)
      (do
        if max o.window.last c ≠ c then
          Engine.writeHeight st.scraper.task.lastBlockKey (max o.window.last c)
        Engine.tell (.scanned st.scraper.task.label o.window.first o.window.last o.emitted
          (max o.window.last c))
        return ⟨o.window, o.emitted, max o.window.last c, head⟩) w := by
  obtain ⟨ts, hfinds, hw, hl, hcount⟩ := hw
  have hscans (c : UInt64) (isStored : Bool) :
      C.Scans (st.scraper.Stands terms K c isHeld isStored) :=
    Scraper.scans_stands hC hK
  have htell : ∀ w, st.scraper.Stands terms K (max o.window.last c) isHeld true w →
      w.store.ledger = l.insertAll ts →
      Action.Ensures C (st.Ticked terms K c l isHeld) (fun _ => st.TickFailed C terms K c l isHeld)
        (do
          Engine.tell (.scanned st.scraper.task.label o.window.first o.window.last o.emitted
            (max o.window.last c))
          return ⟨o.window, o.emitted, max o.window.last c, head⟩) w := by
    intro w hw hl'
    apply Action.Ensures.bind
    apply Action.Ensures.tell ((hscans _ _).keeps_ledger _) ⟨hw, hl'⟩
    intro w hkept
    obtain ⟨hw, hl'⟩ := hkept
    refine .pure ⟨⟨range, hpos, hwindow⟩, hhead, rfl, ts, hfinds, hw, hl', ?_⟩
    rw [hl', ← hl]
    exact hcount
  by_cases hnext : max o.window.last c = c
  · simp only [hnext, ne_eq, not_true_eq_false, if_false]
    rw [hnext] at htell
    exact htell w hw hl
  · rw [if_pos hnext]
    apply Action.Ensures.bind
    apply Action.Ensures.writeHeight ((hscans _ _).keeps_ledger _) ⟨hw, hl⟩
    · exact fun w ⟨hw, hl⟩ => htell _ (hw.afterWrite hK _) hl
    · intro w fault hkept hfail
      obtain ⟨hw, hl⟩ := hkept
      exact .of_finds hfail hw (by rwa [List.append_nil, ← hwindow]) hhead hl

theorem tickHeld_ensures (hC : C.Spares st.scraper terms) (hK : st.scraper.Aside C K)
    (hsees : ∀ w, K w → st.view w.chains w.store.recipients)
    (hw : st.scraper.Stands terms K c isHeld isStored w) (hl : w.store.ledger = l) :
    st.scraper.tickHeld.Ensures C (st.Ticked terms K c l isHeld)
      (fun _ => st.TickFailed C terms K c l isHeld) w := by
  unfold Scraper.tickHeld
  apply Action.Ensures.bind
  apply Scraper.readHeight_ensures hC hK (fun w hw => hw.tuned.range.imp fun _ h => h.1) hw hl
  case fails => exact fun _ w hw hl hfail => .at_start hfail hw hl
  intro w range hw hl hrange
  have hpos : range ≠ 0 := by
    obtain ⟨r, hr, hpos⟩ := hw.tuned.range
    rwa [Option.some.inj (hrange.symm.trans hr)]
  replace hw := hw.afterRead hK ScanTask.scanRange_mem
  rw [if_neg hpos]
  apply Action.Ensures.bind
  apply Scraper.readHeight_ensures hC hK (fun w hw => ⟨_, hw.tuned.overlap⟩) hw hl
  case fails => exact fun _ w hw hl hfail => .at_start hfail hw hl
  intro w overlap hw hl hoverlap
  obtain rfl := Option.some.inj (hw.tuned.overlap.symm.trans hoverlap)
  replace hw := hw.afterRead hK ScanTask.overlap_mem
  apply Action.Ensures.bind
  apply Scraper.readHeight_ensures hC hK (fun w hw => ⟨_, hw.lastBlock⟩) hw hl
  case fails => exact fun _ w hw hl hfail => .at_start hfail hw hl
  intro w last hw hl hlast
  obtain rfl := Option.some.inj (hw.lastBlock.symm.trans hlast)
  replace hw := hw.afterRead_lastBlock hK
  apply Action.Ensures.bind
  apply Scraper.readHeight_ensures hC hK (fun w hw => hw.tuned.head.imp fun _ h => h.1) hw hl
  case fails => exact fun _ w hw hl hfail => .at_start hfail hw hl
  intro w head hw hl hhead
  have hheads : terms.heads head := by
    obtain ⟨h, hh, hheads⟩ := hw.tuned.head
    rwa [Option.some.inj (hhead.symm.trans hh)]
  replace hw := hw.afterRead hK ScanTask.head_mem
  apply Action.Ensures.bind
  refine (st.scans c terms.overlap range head (Scraper.scans_stands hC hK)
    (fun w hw => hsees w hw.aside) hw hl).mono ?_ ?_
  · intro o w hscan
    obtain ⟨hwindow, hscanned⟩ := hscan
    exact advance_ensures hC hK hpos hwindow hheads hscanned
  · intro _ w hfailed
    obtain ⟨hfail, ts, rest, hfinds, hw, hl⟩ := hfailed
    exact .of_finds hfail hw hfinds hheads hl

theorem Ticked.keeps (hC : C.Spares st.scraper terms) (hK : st.scraper.Aside C K) :
    C.Keeps (st.Ticked terms K c l isHeld o) := by
  intro w w' H hdrift
  obtain ⟨ts, hfinds, hw, hl, hcount⟩ := H.scanned
  have hl' := hC.ledger _ (Eq.refl _) hdrift
  exact ⟨H.window, H.head, H.lastScanned, ts, hfinds, Scraper.Stands.keeps hC hK hw hdrift,
    hl'.trans hl, hl' ▸ hcount⟩

theorem Ticked.withGuard (hK : st.scraper.Aside C K) (H : st.Ticked terms K c l isHeld o w)
    (isHeld' : Bool) :
    st.Ticked terms K c l isHeld' o (w.withGuard st.scraper.guard isHeld') := by
  obtain ⟨ts, hfinds, hw, hl⟩ := H.scanned
  exact ⟨H.window, H.head, H.lastScanned, ts, hfinds, hw.withGuard hK isHeld', hl⟩

theorem TickFailed.keeps (hC : C.Spares st.scraper terms) (hK : st.scraper.Aside C K) :
    C.Keeps (st.TickFailed C terms K c l isHeld) := by
  intro w w' H hdrift
  obtain ⟨ts, hl, hts⟩ := H.inserted
  exact ⟨H.fallible, Scraper.Stands.keeps hC hK H.stands hdrift, ts, hC.ledger _ hl hdrift, hts⟩

theorem TickFailed.withGuard (hK : st.scraper.Aside C K)
    (H : st.TickFailed C terms K c l isHeld w) (isHeld' : Bool) :
    st.TickFailed C terms K c l isHeld' (w.withGuard st.scraper.guard isHeld') :=
  ⟨H.fallible, H.stands.withGuard hK isHeld', H.inserted⟩

/-- A tick takes the guard, which nobody holds, and gives it back whether it succeeds or not. -/
theorem tick_ensures (hC : C.Spares st.scraper terms) (hK : st.scraper.Aside C K)
    (hsees : ∀ w, K w → st.view w.chains w.store.recipients)
    (hw : st.scraper.Stands terms K c false isStored w) (hl : w.store.ledger = l) :
    st.scraper.tick.Ensures C (st.Ticked terms K c l false)
      (fun _ => st.TickFailed C terms K c l false) w := by
  apply Action.Ensures.of_run
  apply Conduct.ensures_guarded ((Scraper.scans_stands hC hK).keeps_ledger l) ⟨hw, hl⟩
  case free => exact fun w ⟨hw, _⟩ => hw.guard
  case body =>
    exact fun w ⟨hw, hl⟩ => (tickHeld_ensures hC hK hsees (hw.withGuard hK true) hl).run
  case keepsPost =>
    intro result
    cases result with
    | error fault => exact TickFailed.keeps hC hK
    | ok o => exact Ticked.keeps hC hK
  case release =>
    intro result w hpost
    cases result with
    | error fault => exact TickFailed.withGuard hK hpost false
    | ok o => exact Ticked.withGuard hK hpost false

end Stream

end ChainIngest
