import Mathlib.Algebra.Order.BigOperators.Group.List
import Mathlib.Algebra.Order.Floor.Div
import ChainIngest.Proofs.Chronicles
import ChainIngest.Proofs.RowCounts

/-! How long a catch-up takes. As long as it goes on, each window ends a whole range after the one
before and still below the head; so the number of windows is settled by the way to the head and the
ranges that are read, wherever the head goes meanwhile. -/

namespace ChainIngest

namespace Scraper

variable {s : Scraper}

/-! ### Courses of plans -/

/-- Where a plan brings the last block to. -/
def Plan.reach (p : Plan) : UInt64 := max p.window.last p.lastScanned

namespace Plan

variable {p : Plan}

/-- A plan that does not come to its head goes a whole range forward. -/
theorem toNat_reach (h : p.reach < p.head) :
    p.reach.toNat = p.lastScanned.toNat + p.range.toNat := by
  rw [UInt64.lt_iff_toNat_lt] at h
  simp only [reach, window, Window.compute, Height.toNat_max, Height.toNat_min,
    Height.toNat_addCapped] at h ⊢
  have := Height.toNat_le_top p.head
  omega

/-- A plan that comes to its head leaves the last block there, or where it has been if that is
further. -/
theorem reach_eq (h : p.head ≤ p.reach) : p.reach = max p.lastScanned p.head := by
  rw [reach, window, Window.compute_last_eq h, ← UInt64.toNat_inj]
  simp only [Height.toNat_max, Nat.max_comm]

/-- What is left to the head is no more than a range. -/
theorem head_le_of_le_reach (h : p.head ≤ p.reach) :
    p.head.toNat ≤ p.lastScanned.toNat + p.range.toNat := by
  rw [UInt64.le_iff_toNat_le] at h
  simp only [reach, window, Window.compute, Height.toNat_max, Height.toNat_min,
    Height.toNat_addCapped] at h
  omega

end Plan

/-- Plans that follow one another from `start` to `c`, of which none comes to its head. -/
inductive Course (start : UInt64) : List Plan → UInt64 → Prop
  | nil : Course start [] start
  | snoc {p : Plan} : Course start plans p.lastScanned → p.reach < p.head →
      Course start (plans ++ [p]) p.reach

namespace Course

variable {start c top range : UInt64} {plans : List Plan}

/-- A course is as long as its ranges together. -/
theorem toNat_eq (H : Course start plans c) :
    c.toNat = start.toNat + (plans.map fun p => p.range.toNat).sum := by
  induction H with
  | nil => simp
  | @snoc plans p _ hreach ih =>
    rw [Plan.toNat_reach hreach, ih, List.map_append, List.sum_append, List.map_singleton,
      List.sum_singleton, Nat.add_assoc]

/-- Every plan of a course goes at least the smallest range forward. -/
theorem le (H : Course start plans c) (h : ∀ p ∈ plans, range ≤ p.range) :
    start.toNat + plans.length * range.toNat ≤ c.toNat := by
  have hsum : plans.length * range.toNat ≤ (plans.map fun p => p.range.toNat).sum := by
    have := List.card_nsmul_le_sum (plans.map fun p => p.range.toNat) range.toNat
      (List.forall_mem_map.mpr fun p hp => UInt64.le_iff_toNat_le.mp (h p hp))
    rwa [List.length_map, smul_eq_mul] at this
  rw [H.toNat_eq]
  exact Nat.add_le_add_left hsum _

/-- If all ranges are the same then a course is as long as its way. -/
theorem eq (H : Course start plans c) (h : ∀ p ∈ plans, p.range = range) :
    c.toNat = start.toNat + plans.length * range.toNat := by
  have hsum := List.sum_eq_card_nsmul (plans.map fun p => p.range.toNat) range.toNat
    (List.forall_mem_map.mpr fun p hp => congrArg UInt64.toNat (h p hp))
  rw [H.toNat_eq, hsum, List.length_map, smul_eq_mul]

/-- A course ends below the last head that was read. -/
theorem lt_top (H : Course start plans c) (hne : plans ≠ []) (h : ∀ p ∈ plans, p.head ≤ top) :
    c < top := by
  cases H with
  | nil => exact absurd rfl hne
  | @snoc plans p _ hreach =>
    exact UInt64.lt_of_lt_of_le hreach (h p (List.mem_append_right _ List.mem_cons_self))

end Course

theorem lt_ceilDiv {n d r : Nat} (hr : 0 < r) (h : n * r < d) : n < d ⌈/⌉ r := by
  rw [Nat.ceilDiv_eq_add_pred_div, Nat.lt_iff_add_one_le, Nat.le_div_iff_mul_le hr, Nat.add_mul]
  omega

theorem ceilDiv_eq {n d r : Nat} (hlow : n * r < d) (hhigh : d ≤ (n + 1) * r) :
    d ⌈/⌉ r = n + 1 := by
  have hr : 0 < r := by
    by_contra h
    rw [Nat.eq_zero_of_not_pos h] at hlow hhigh
    omega
  rw [Nat.add_mul] at hhigh
  rw [Nat.ceilDiv_eq_add_pred_div]
  exact Nat.div_eq_of_lt_le (by rw [Nat.add_mul]; omega) (by simp only [Nat.add_mul]; omega)

namespace Course

variable {start c top range : UInt64} {plans : List Plan} {p : Plan}

/-- A course has fewer plans than the way to the head has ranges. -/
theorem length_lt (H : Course start plans c) (hrange : range ≠ 0) (hne : plans ≠ [])
    (hranges : ∀ p ∈ plans, range ≤ p.range) (hheads : ∀ p ∈ plans, p.head ≤ top) :
    plans.length < (top.toNat - start.toNat) ⌈/⌉ range.toNat := by
  have hle := H.le hranges
  have hlt := H.lt_top hne hheads
  rw [UInt64.lt_iff_toNat_lt] at hlt
  have hpos : 0 < range.toNat := Nat.pos_of_ne_zero fun h => hrange (UInt64.toNat_inj.mp h)
  exact lt_ceilDiv hpos (by omega)

/-- However the plans go on from a course, with one more there are at most as many as the way to the
head has ranges, or one. -/
theorem length_succ_le (H : Course start plans c) (hrange : range ≠ 0)
    (hranges : ∀ p ∈ plans, range ≤ p.range) (hheads : ∀ p ∈ plans, p.head ≤ top) :
    plans.length + 1 ≤ max 1 ((top.toNat - start.toNat) ⌈/⌉ range.toNat) := by
  by_cases hne : plans = []
  · subst hne
    exact Nat.le_max_left ..
  · exact Nat.le_trans (H.length_lt hrange hne hranges hheads) (Nat.le_max_right ..)

/-- With one range and one head all along, the plan that comes to the head is the last of as many as
the way has ranges. -/
theorem length_succ_eq (H : Course start plans p.lastScanned) (hreach : p.head ≤ p.reach)
    (hranges : ∀ q ∈ plans ++ [p], q.range = range) (hheads : ∀ q ∈ plans ++ [p], q.head = top) :
    plans.length + 1 = max 1 ((top.toNat - start.toNat) ⌈/⌉ range.toNat) ∧
      p.reach = max start top := by
  have hway := H.eq fun q hq => hranges q (List.mem_append_left _ hq)
  have hrange := hranges p (List.mem_append_right _ List.mem_cons_self)
  have hhead := hheads p (List.mem_append_right _ List.mem_cons_self)
  have hleft := Plan.head_le_of_le_reach hreach
  rw [hrange, hhead] at hleft
  -- A course that has left its start has not come to the head.
  have hshort : plans ≠ [] → p.lastScanned.toNat < top.toNat := fun hne =>
    UInt64.lt_iff_toNat_lt.mp <| H.lt_top hne fun q hq =>
      hheads q (List.mem_append_left _ hq) ▸ UInt64.le_refl _
  have hend : p.reach = max start top := by
    rw [Plan.reach_eq hreach, hhead, ← UInt64.toNat_inj]
    simp only [Height.toNat_max]
    by_cases hne : plans = []
    · simp only [hne, List.length_nil] at hway
      omega
    · have := hshort hne
      omega
  refine ⟨?_, hend⟩
  by_cases hbelow : start.toNat < top.toNat
  · have hlt : plans.length * range.toNat < top.toNat - start.toNat := by
      by_cases hne : plans = []
      · simp only [hne, List.length_nil]
        omega
      · have := hshort hne
        omega
    have hceil := ceilDiv_eq hlt (by rw [Nat.add_mul]; omega)
    omega
  · have hnil : plans = [] := by
      by_contra hne
      have := hshort hne
      omega
    have hzero : top.toNat - start.toNat = 0 := by omega
    simp [hnil, hzero]

end Course

/-! ### The only ticker -/

/-- No call fails. Others may change heads, ranges, overlaps, chains and the whitelist, and cancel;
the ledger, the last block and the guard they leave alone. -/
def soleTicker (s : Scraper) : Pact Engine Chronicle where
  answers := Chronicle.noting Surroundings.Answers
  rely st st' := st'.events = st.events ∧ st'.world.store.ledger = st.world.store.ledger ∧
    st'.world.store.checkpoints.get? s.task.lastBlockKey =
      st.world.store.checkpoints.get? s.task.lastBlockKey ∧
    st'.world.held s.guard = st.world.held s.guard
  guar _ _ _ _ := True
  live := True
  rely_refl _ := ⟨rfl, rfl, rfl, rfl⟩
  rely_trans h h' := ⟨h'.1.trans h.1, h'.2.1.trans h.2.1, h'.2.2.1.trans h.2.2.1,
    h'.2.2.2.trans h.2.2.2⟩

theorem soleTicker_over (s : Scraper) : s.soleTicker.Over Chronicle.world where
  responds h := .inl h.1
  answered _ h := ⟨_, _, Chronicle.noting_after h⟩

theorem soleTicker_answered {st : Chronicle} (q : Engine.Query)
    (free : ∀ guard, q = .acquire guard → st.world.held guard = false) :
    ∃ answer st', s.soleTicker.answers st q answer st' := by
  obtain ⟨answer, w, h⟩ := Surroundings.exists_answers q free
  exact ⟨answer, _, Chronicle.noting_after h⟩

/-- The readings so far are `read`, and the last block stands at `c`. -/
structure Marks (s : Scraper) (read : List (String × UInt64)) (c : UInt64) (isHeld : Bool)
    (isStored : Prop) (st : Chronicle) : Prop where
  read : readingsIn st.events = read.map fun r => (r.1, some r.2)
  guard : st.world.held s.guard = isHeld
  lastBlock : st.world.height? s.task.lastBlockKey s.task.startBlock = some c
  stored : isStored → st.world.store.checkpoints.Holds s.task.lastBlockKey c

/-- All that has been read are numbers, and no range is zero. -/
def Legible (s : Scraper) (events : List (Event Unit)) : Prop :=
  ∀ key height?, (key, height?) ∈ readingsIn events →
    ∃ height, height? = some height ∧ (key = s.task.scanRangeKey → height ≠ 0)

variable {st st' : Chronicle} {read : List (String × UInt64)} {c : UInt64} {isHeld : Bool}
  {isStored : Prop}

namespace Marks

theorem stable : s.soleTicker.Stable (s.Marks read c isHeld isStored) := by
  rintro st st' H ⟨hevents, -, hlast, hguard⟩
  refine ⟨hevents ▸ H.read, hguard.trans H.guard, ?_, fun h => ?_⟩
  · exact (Checkpoints.height?_congr hlast).trans H.lastBlock
  · exact (H.stored h).congr hlast

/-- A query that reads no checkpoint and leaves the last block alone. -/
theorem after {q : Engine.Query} {answer : Engine.Answer q} {w : Surroundings}
    (H : s.Marks read c isHeld isStored st) (hread : Engine.reading? q answer = none)
    (hguard : w.held s.guard = isHeld')
    (hlast : w.store.checkpoints.get? s.task.lastBlockKey =
      st.world.store.checkpoints.get? s.task.lastBlockKey) :
    s.Marks read c isHeld' isStored (st.after q answer w) := by
  refine ⟨?_, hguard, ?_, fun h => ?_⟩
  · rw [Chronicle.readingsIn_after, hread, Option.toList_none, List.append_nil, H.read]
  · exact (Checkpoints.height?_congr hlast).trans H.lastBlock
  · exact (H.stored h).congr hlast

theorem allows_scans : s.soleTicker.Allows s.Scans (s.Marks read c isHeld isStored) where
  stable := stable
  answered hq _ _ := by
    refine soleTicker_answered _ fun guard hacquire => ?_
    subst hacquire
    exact absurd hq id
  keeps := by
    rintro st q answer st' hq H ⟨hanswer, hst'⟩
    refine ⟨trivial, ?_⟩
    have hread : Engine.reading? q answer = none := by
      cases q with
      | readCheckpoint => exact absurd hq id
      | _ => rfl
    rw [hst']
    rcases hq.effect (.inl hanswer) with hworld | ⟨t, hworld⟩
    · exact H.after hread (hworld ▸ H.guard) (hworld ▸ rfl)
    · exact H.after hread (hworld ▸ H.guard) (hworld ▸ rfl)

theorem allows_tells : s.soleTicker.Allows (fun q => ∃ notice, q = .tell notice)
    (s.Marks read c isHeld isStored) :=
  allows_scans.mono fun _ ⟨_, hq⟩ => hq ▸ trivial

/-- A reading of one of the task's checkpoints. -/
theorem afterRead {text : String} (H : s.Marks read c isHeld isStored st)
    (h : (key, initial) ∈ s.task.readings) (hread : Number.readUInt64 (Text.trim text) = .ok height) :
    s.Marks (read ++ [(key, height)]) c isHeld isStored
      (st.after (.readCheckpoint key (Number.showUInt64 initial)) (.ok text)
        (st.world.afterRead key initial)) := by
  refine ⟨?_, H.guard, ?_, fun hstored => (H.stored hstored).getOrCreate⟩
  · simp only [Chronicle.readingsIn_after, H.read, Engine.reading?, hread, List.map_append,
      List.map_singleton, Option.toList_some, Except.toOption]
  · exact (height?_afterRead ScanTask.lastBlock_mem (ScanTask.admits_of_mem h)).trans H.lastBlock

/-- Once the last block has been read it is stored. -/
theorem store (H : s.Marks read c isHeld isStored st)
    (h : st.world.store.checkpoints.Holds s.task.lastBlockKey height) :
    height = c ∧ s.Marks read c isHeld True st := by
  obtain rfl := Option.some.inj (h.height?.symm.trans H.lastBlock)
  exact ⟨rfl, { H with stored := fun _ => h }⟩

theorem not_legible (H : s.Marks (read ++ [(s.task.scanRangeKey, 0)]) c isHeld isStored st) :
    ¬s.Legible st.events := by
  intro hlegible
  obtain ⟨height, hheight, hpos⟩ := hlegible s.task.scanRangeKey (some 0) (by simp [H.read])
  exact hpos rfl (Option.some.inj hheight).symm

end Marks

theorem not_legible_of_illegible {text : String} {w : Surroundings}
    (hread : Number.readUInt64 (Text.trim text) = .error reason) :
    ¬s.Legible (st.after (.readCheckpoint key initial) (.ok text) w).events := by
  intro hlegible
  obtain ⟨height, hheight, -⟩ := hlegible key none (by
    simp [Chronicle.readingsIn_after, Engine.reading?, hread, Except.toOption])
  cases hheight

/-- A height that is read is written down and held; what is no number is written down as well. -/
theorem readHeight_marks (h : (key, initial) ∈ s.task.readings)
    (H : s.Marks read c isHeld isStored st) :
    (Engine.readHeight key initial).Abides s.soleTicker
      (fun height st' => s.Marks (read ++ [(key, height)]) c isHeld isStored st' ∧
        st'.world.store.checkpoints.Holds key height)
      (fun _ st' => ¬s.Legible st'.events) st := by
  have hask : Program.Abides s.soleTicker (fun answer st' => ∃ st₁ text,
      s.Marks read c isHeld isStored st₁ ∧ answer = .ok text ∧
      text = (st₁.world.store.checkpoints.getOrCreate key (Number.showUInt64 initial)).1 ∧
      st' = st₁.after (.readCheckpoint key (Number.showUInt64 initial)) (.ok text)
        (st₁.world.afterRead key initial))
      (Engine.ask (.readCheckpoint key (Number.showUInt64 initial))) st := by
    refine .ask Marks.stable H (fun _ _ _ => soleTicker_answered _ nofun) ?_
    rintro st₁ answer st' H ⟨⟨rfl, hworld⟩, hst'⟩
    rw [hworld] at hst'
    exact ⟨trivial, st₁, _, H, rfl, rfl, hst'⟩
  unfold Engine.readHeight Engine.readCheckpoint
  apply Action.Abides.bind
  refine .of_program hask ?_ ?_
  · intro text st' hanswered
    obtain ⟨st₁, text', H, hok, htext, rfl⟩ := hanswered
    obtain rfl : text = text' := Except.ok.inj hok
    cases hread : Number.readUInt64 (Text.trim text) with
    | ok height =>
      have hheight : st₁.world.height? key initial = some height := by
        rw [Surroundings.height?, Checkpoints.height?_eq_some_iff, ← htext]
        exact hread
      exact .pure ⟨H.afterRead h hread, Checkpoints.holds_getOrCreate hheight⟩
    | error reason => exact .throw (not_legible_of_illegible hread)
  · rintro fault _ ⟨st₁, text, -, hok, -, -⟩
    cases hok

theorem readPlan_marks (H : s.Marks read c isHeld isStored st) :
    s.readPlan.Abides s.soleTicker
      (fun p st' => p.lastScanned = c ∧ p.range ≠ 0 ∧
        s.Marks (read ++ p.heights s) c isHeld True st')
      (fun _ st' => ¬s.Legible st'.events) st := by
  unfold readPlan
  apply Action.Abides.bind
  refine (readHeight_marks ScanTask.scanRange_mem H).mono ?_ fun _ _ h => h
  rintro range st₁ ⟨h₁, -⟩
  split
  · next hzero =>
    subst hzero
    exact .bind (.throw h₁.not_legible)
  · next hpos =>
    apply Action.Abides.bind
    refine (readHeight_marks ScanTask.overlap_mem h₁).mono ?_ fun _ _ h => h
    rintro overlap st₂ ⟨h₂, -⟩
    apply Action.Abides.bind
    refine (readHeight_marks ScanTask.lastBlock_mem h₂).mono ?_ fun _ _ h => h
    rintro lastScanned st₃ ⟨h₃, hholds⟩
    obtain ⟨rfl, h₃⟩ := h₃.store hholds
    apply Action.Abides.bind
    refine (readHeight_marks ScanTask.head_mem h₃).mono ?_ fun _ _ h => h
    rintro head st₄ ⟨h₄, -⟩
    refine .pure ⟨rfl, hpos, ?_⟩
    simpa only [Plan.heights, List.append_assoc, List.cons_append, List.nil_append] using h₄

/-- What a tick leaves that begins with the last block at `c`. It fails only if it has read what is
no number, or a range of zero. -/
def TickMarks (s : Scraper) (read : List (String × UInt64)) (c : UInt64) (isHeld : Bool) :
    Except Fault TickOutcome → Chronicle → Prop
  | .ok o, st => ∃ p : Plan, p.lastScanned = c ∧ p.range ≠ 0 ∧ o.head = p.head ∧
    o.lastScanned = p.reach ∧ s.Marks (read ++ p.heights s) p.reach isHeld True st
  | .error _, st => ¬s.Legible st.events

theorem scanWindow_marks (p : Plan) (H : s.Marks read c isHeld isStored st) :
    (s.scanWindow p.lastScanned p.head p.range p.overlap).Abides s.soleTicker
      (fun o st' => o.window = p.window ∧ s.Marks read c isHeld isStored st') (fun _ _ => False)
      st := by
  have hscans : s.soleTicker.Allows s.Scans (s.Marks read c isHeld isStored) := Marks.allows_scans
  have hnever : s.soleTicker.Allows s.Scans fun st =>
      s.Marks read c isHeld isStored st ∧ False :=
    ⟨fun h _ => h.2.elim, fun _ h => h.2.elim, fun _ h => h.2.elim⟩
  refine (scanWindow_abides hscans hnever ?_ p.lastScanned p.head p.range p.overlap H).mono
    (fun _ _ h => h) fun _ _ h => h.2
  exact fun _ _ hanswer hfailed => hanswer.1.not_failed hfailed

theorem advance_marks {p : Plan} {o : ScanOutcome} (hwindow : o.window = p.window)
    (H : s.Marks read p.lastScanned isHeld True st) :
    (s.advance p o).Abides s.soleTicker
      (fun o' st' => o' = p.outcome o ∧ s.Marks read p.reach isHeld True st') (fun _ _ => False)
      st := by
  have hnext : p.next o = p.reach := by rw [Plan.next, Plan.reach, hwindow]
  refine advance_abides (soleTicker_over s) Marks.stable H ?stays (fun _ _ _ _ _ => trivial)
    ?moves ?fails Marks.allows_tells
  case stays =>
    intro hstays st₁ h
    rw [← hnext, hstays]
    exact h
  case moves =>
    rintro st₁ answer st₂ h ⟨⟨rfl, hworld⟩, hst₂⟩ -
    rw [hworld] at hst₂
    subst hst₂
    rw [hnext]
    have hholds : (st₁.world.afterWrite s.task.lastBlockKey p.reach).store.checkpoints.Holds
        s.task.lastBlockKey p.reach := Checkpoints.holds_put ..
    refine ⟨?_, h.guard, hholds.height?, fun _ => hholds⟩
    rw [Chronicle.readingsIn_after, h.read]
    exact List.append_nil _
  case fails =>
    rintro st₁ st₂ fault - ⟨⟨hok, -⟩, -⟩
    cases hok

theorem tickHeld_marks (H : s.Marks read c isHeld isStored st) :
    s.tickHeld.run.Abides s.soleTicker (s.TickMarks read c isHeld) st := by
  apply Action.Abides.of_results
  rw [tickHeld_eq]
  apply Action.Abides.bind
  refine (readPlan_marks H).mono ?_ fun _ _ h => h
  rintro p st₁ ⟨rfl, hrange, h₁⟩
  apply Action.Abides.bind
  refine (scanWindow_marks p h₁).mono ?_ fun _ _ h => h.elim
  rintro o st₂ ⟨hwindow, h₂⟩
  refine (advance_marks hwindow h₂).mono ?_ fun _ _ h => h.elim
  rintro _ st₃ ⟨rfl, h₃⟩
  exact ⟨p, rfl, hrange, rfl, by rw [Plan.outcome, Plan.next, Plan.reach, hwindow], h₃⟩

namespace TickMarks

theorem stable (result : Except Fault TickOutcome) :
    s.soleTicker.Stable (s.TickMarks read c isHeld result) := by
  intro st st' H hrely
  cases result with
  | ok o =>
    obtain ⟨p, hlast, hrange, hhead, hreach, hmarks⟩ := H
    exact ⟨p, hlast, hrange, hhead, hreach, hmarks.stable hrely⟩
  | error fault =>
    intro hlegible
    exact H (hrely.1 ▸ hlegible)

theorem afterRelease {result : Except Fault TickOutcome}
    (H : s.TickMarks read c true result st) :
    s.TickMarks read c false result
      (st.after (.release s.guard) () (st.world.withGuard s.guard false)) := by
  cases result with
  | ok o =>
    obtain ⟨p, hlast, hrange, hhead, hreach, hmarks⟩ := H
    exact ⟨p, hlast, hrange, hhead, hreach, hmarks.after rfl (Function.update_self ..) rfl⟩
  | error fault =>
    intro hlegible
    refine H fun key height? hmem => hlegible key height? ?_
    rw [Chronicle.readingsIn_after]
    exact List.mem_append_left _ hmem

end TickMarks

theorem tick_marks (H : s.Marks read c false isStored st) :
    s.tick.run.Abides s.soleTicker (s.TickMarks read c false) st := by
  refine Program.Abides.guarded (s.TickMarks read c true) Marks.stable H ?answered ?body
    TickMarks.stable ?answeredMid ?release
  case answered =>
    intro st₁ h _
    obtain ⟨_, hanswered⟩ := soleTicker_answered (s := s) (.acquire s.guard) fun guard hguard =>
      (Engine.Query.acquire.inj hguard) ▸ h.guard
    exact hanswered
  case answeredMid =>
    intro result st₁ _ _
    obtain ⟨_, hanswered⟩ :
        ∃ answer st₂, s.soleTicker.answers st₁ (.release s.guard) answer st₂ :=
      soleTicker_answered _ nofun
    exact hanswered
  case body =>
    rintro st₁ st₂ h ⟨⟨-, hworld⟩, hst₂⟩
    rw [hworld] at hst₂
    subst hst₂
    exact ⟨trivial, tickHeld_marks (h.after rfl (Function.update_self ..) rfl)⟩
  case release =>
    rintro result st₁ st₂ h ⟨hworld, hst₂⟩
    obtain hworld : st₂.world = st₁.world.withGuard s.guard false := hworld
    rw [hworld] at hst₂
    subst hst₂
    exact ⟨trivial, h.afterRelease⟩

/-! ### Rows -/

/-- What a tick counts is what the ledger has grown by. -/
theorem tick_emitted (hrun : s.tick.run.Runs s.soleTicker.among st (.ok o) st') :
    st'.rows = st.rows + o.emitted := by
  -- Seen from the first state, the rows are those that the tick has added.
  have hcounted := hrun.image_of (B := rowCount.among) (J := fun st₁ => st.rows ≤ st₁.rows)
    (fun st₁ => st₁.rows - st.rows) ?_ (Nat.le_refl _)
  · obtain ⟨hle, hcounts⟩ := hcounted
    rw [Nat.sub_self] at hcounts
    have hemitted : o.emitted = st'.rows - st.rows := tick_counts.of_runs hcounts
    omega
  · rintro st₁ q answer st₂ hle ⟨st₃, hrely, hanswer, -⟩
    have hsame : st₃.rows = st₁.rows := congrArg (·.rows.length) hrely.2.1
    have hgrown : st₂.rows = st₃.rows + (Deeds.of q answer).added := hanswer.length_rows
    refine ⟨by omega, st₁.rows - st.rows, rfl, hanswer.not_failed, ?_⟩
    omega

/-! ### Rounds -/

/-- The report of ticks that have gone by `plans` and brought the last block to `c`, where the ledger
had `rows` rows before. -/
structure Reported (s : Scraper) (rows : Nat) (plans : List Plan) (c : UInt64)
    (report : CatchUpReport) (st : Chronicle) : Prop where
  marks : s.Marks (plans.flatMap (Plan.heights s)) c false (plans ≠ []) st
  windows : report.windows = plans.length
  emitted : st.rows = rows + report.emitted
  lastScanned : plans ≠ [] → report.lastScanned = c

/-- The plans are a course, after which the catch-up is cancelled, or one more plan has come to its
head. -/
def Completes (start : UInt64) (plans : List Plan) (c : UInt64) (st : Chronicle) : Prop :=
  Course start plans c ∧ ToldCancelled st.events ∨
    ∃ before p, plans = before ++ [p] ∧ Course start before p.lastScanned ∧ p.head ≤ p.reach ∧
      c = p.reach

/-- What a round leaves that begins with the last block at `c`. -/
def RoundMarks (s : Scraper) (start : UInt64) (rows : Nat) (c : UInt64) :
    CatchUpReport ⊕ CatchUp.Result → Chronicle → Prop
  | .inl report, st => ∃ plans c', c < c' ∧ Course start plans c' ∧
    s.Reported rows plans c' report st
  | .inr (.ok report), st => ∃ plans c', Completes start plans c' st ∧
    s.Reported rows plans c' report st
  | .inr (.error _), st => ¬s.Legible st.events

variable {start : UInt64} {rows : Nat} {plans : List Plan} {report : CatchUpReport}

theorem Reported.stable : s.soleTicker.Stable (s.Reported rows plans c report) :=
  fun H hrely => ⟨H.marks.stable hrely, H.windows,
    (congrArg (·.rows.length) hrely.2.1).trans H.emitted, H.lastScanned⟩

theorem Reported.afterAsking {w : Surroundings} {cancelled : Bool}
    (H : s.Reported rows plans c report st) (h : st.world.Answers .isCancelled cancelled w) :
    s.Reported rows plans c report (st.after .isCancelled cancelled w) := by
  obtain ⟨-, rfl⟩ := h
  exact ⟨H.marks.after rfl H.marks.guard rfl, H.windows, H.emitted, H.lastScanned⟩

/-- A tick is one more plan in the report. -/
theorem Reported.snoc {p : Plan} {o : TickOutcome} (H : s.Reported rows plans c report st)
    (hmarks : s.Marks (plans.flatMap (Plan.heights s) ++ p.heights s) p.reach false True st')
    (hlast : o.lastScanned = p.reach) (hemitted : st'.rows = st.rows + o.emitted) :
    s.Reported rows (plans ++ [p]) p.reach (report.after o) st' where
  marks := by
    rw [List.flatMap_append, List.flatMap_singleton]
    exact { hmarks with stored := fun _ => hmarks.stored trivial }
  windows := by rw [List.length_append, List.length_singleton, ← H.windows]; rfl
  emitted := by rw [hemitted, H.emitted, Nat.add_assoc]; rfl
  lastScanned _ := hlast

theorem round_marks (hcourse : Course start plans c) (H : s.Reported rows plans c report st) :
    (CatchUp.round s report).Abides s.soleTicker (s.RoundMarks start rows c) st := by
  have hasks : Engine.isCancelled.Abides s.soleTicker (fun (cancelled : Bool) st' =>
      s.Reported rows plans c report st' ∧ (cancelled → ToldCancelled st'.events)) st := by
    refine .ask Reported.stable H (fun _ _ _ => soleTicker_answered _ nofun) ?_
    rintro st₁ cancelled st₂ h ⟨hanswer, hst₂⟩
    rw [hst₂]
    refine ⟨trivial, h.afterAsking hanswer, fun hcancelled => ?_⟩
    exact ⟨⟨(), .isCancelled, cancelled, st₁.world, st₂.world⟩,
      List.mem_append_right _ List.mem_cons_self, hcancelled⟩
  apply Program.Abides.bind
  refine hasks.mono ?_
  rintro cancelled st₁ ⟨h₁, hcancelled⟩
  cases cancelled with
  | true => exact ⟨plans, c, .inl ⟨hcourse, hcancelled rfl⟩, h₁⟩
  | false =>
    apply Program.Abides.bind
    refine (tick_marks h₁.marks).imp_of_runs ?_
    intro result st₂ hrun h
    cases result with
    | error fault => exact h
    | ok o =>
      obtain ⟨p, rfl, hrange, hhead, hreach, hmarks⟩ := h
      have h₂ := h₁.snoc hmarks hreach (tick_emitted hrun)
      have hcaught : o.caughtUp = decide (p.head ≤ p.reach) := by
        rw [TickOutcome.caughtUp, hhead, hreach]
      by_cases hle : p.head ≤ p.reach
      · simp only [hcaught, hle, decide_true, if_true]
        exact ⟨_, _, .inr ⟨plans, p, rfl, hcourse, hle, rfl⟩, h₂⟩
      · have hlt := UInt64.not_le.mp hle
        simp only [hcaught, hle, decide_false, Bool.false_eq_true, if_false]
        exact ⟨_, _, Window.lt_max_compute_last hrange hlt, hcourse.snoc hlt, h₂⟩

/-- How a worker ends. -/
def WorkerMarks (s : Scraper) (start : UInt64) (rows : Nat) : CatchUp.Result → Chronicle → Prop
  | .ok report, st => ∃ plans c, Completes start plans c st ∧ s.Reported rows plans c report st
  | .error _, st => ¬s.Legible st.events

theorem worker_marks {w : Surroundings}
    (hlast : w.height? s.task.lastBlockKey s.task.startBlock = some start)
    (hfree : w.held s.guard = false) :
    (CatchUp.worker s).Ends s.soleTicker.among (s.WorkerMarks start w.store.ledger.rows.length)
      ⟨w, []⟩ := by
  have hstart : s.Reported w.store.ledger.rows.length [] start .start ⟨w, []⟩ :=
    ⟨⟨rfl, hfree, hlast, fun h => absurd rfl h⟩, rfl, rfl, fun h => absurd rfl h⟩
  -- Every round that is not the last one brings the last block closer to the greatest height.
  refine Process.Ends.loop
    (fun report st => ∃ plans c, Course start plans c ∧
      s.Reported w.store.ledger.rows.length plans c report st)
    (fun _ st => UInt64.size -
      ((st.world.height? s.task.lastBlockKey s.task.startBlock).getD 0).toNat)
    ?_ ⟨[], start, .nil, hstart⟩
  rintro report st ⟨plans, c, hcourse, hreported⟩
  refine .run (((round_marks hcourse hreported).ensures trivial).mono ?_)
  intro result st' h
  cases result with
  | inl report' =>
    obtain ⟨plans', c', hlt, hcourse', hreported'⟩ := h
    refine ⟨⟨plans', c', hcourse', hreported'⟩, ?_⟩
    rw [hreported.marks.lastBlock, hreported'.marks.lastBlock]
    have hbound : c'.toNat < UInt64.size := c'.toNat_lt
    rw [UInt64.lt_iff_toNat_lt] at hlt
    simp only [Option.getD_some]
    omega
  | inr result =>
    cases result with
    | ok report' => exact h
    | error fault => exact h

/-! ### What has been read -/

/-- Of the readings of some plans, those of one key are one for each plan. -/
theorem filterMap_flatMap_heights {key : String} {f : Plan → UInt64}
    (h : ∀ p : Plan, ((p.heights s).map fun r => (r.1, some r.2)).filterMap
      (fun r => if r.1 = key then r.2 else none) = [f p]) (plans : List Plan) :
    ((plans.flatMap (Plan.heights s)).map fun r => (r.1, some r.2)).filterMap
      (fun r => if r.1 = key then r.2 else none) = plans.map f := by
  induction plans with
  | nil => rfl
  | cons p rest ih =>
    rw [List.flatMap_cons, List.map_append, List.filterMap_append, h p, ih, List.map_cons]
    rfl

theorem Marks.ranges (H : s.Marks (plans.flatMap (Plan.heights s)) c isHeld isStored st) :
    heightsRead s.task.scanRangeKey st.events = plans.map Plan.range := by
  rw [heightsRead, H.read]
  refine filterMap_flatMap_heights (fun p => ?_) plans
  have hoverlap : s.task.overlapKey ≠ s.task.scanRangeKey := CheckpointKey.scanRange_ne_overlap.symm
  have hhead : s.task.headKey ≠ s.task.scanRangeKey := CheckpointKey.scanRange_ne_head.symm
  simp [Plan.heights, hoverlap, hhead, ScanTask.lastBlockKey_ne_scanRangeKey]

theorem Marks.heads (H : s.Marks (plans.flatMap (Plan.heights s)) c isHeld isStored st) :
    heightsRead s.task.headKey st.events = plans.map Plan.head := by
  rw [heightsRead, H.read]
  refine filterMap_flatMap_heights (fun p => ?_) plans
  have hrange : s.task.scanRangeKey ≠ s.task.headKey := CheckpointKey.scanRange_ne_head
  have hoverlap : s.task.overlapKey ≠ s.task.headKey := CheckpointKey.overlap_ne_head
  simp [Plan.heights, hrange, hoverlap, ScanTask.lastBlockKey_ne_headKey]

/-- However a worker completes its plans, there are at most as many as the way has ranges, or one. -/
theorem Completes.length_le {top range : UInt64} (H : Completes start plans c st)
    (hrange : range ≠ 0) (hheads : ∀ p ∈ plans, p.head ≤ top)
    (hranges : ∀ p ∈ plans, range ≤ p.range) :
    plans.length ≤ max 1 ((top.toNat - start.toNat) ⌈/⌉ range.toNat) := by
  rcases H with ⟨hcourse, -⟩ | ⟨before, p, rfl, hcourse, -, -⟩
  · have := hcourse.length_succ_le hrange hranges hheads
    omega
  · rw [List.length_append, List.length_singleton]
    exact hcourse.length_succ_le hrange (fun q hq => hranges q (List.mem_append_left _ hq))
      fun q hq => hheads q (List.mem_append_left _ hq)

theorem Completes.length_eq {top range : UInt64} (H : Completes start plans c st)
    (hgo : ¬ToldCancelled st.events) (hheads : ∀ p ∈ plans, p.head = top)
    (hranges : ∀ p ∈ plans, p.range = range) :
    plans.length = max 1 ((top.toNat - start.toNat) ⌈/⌉ range.toNat) ∧ plans ≠ [] ∧
      c = max start top := by
  rcases H with ⟨-, hcancelled⟩ | ⟨before, p, rfl, hcourse, hreach, rfl⟩
  · exact absurd hcancelled hgo
  · rw [List.length_append, List.length_singleton]
    obtain ⟨hlength, hend⟩ := hcourse.length_succ_eq hreach hranges hheads
    exact ⟨hlength, by simp, hend⟩

/-- A catch-up that is the only ticker of its task ends. If all that it reads are numbers and no
range is zero then it succeeds: after at most as many windows as the way from the last block to the
greatest head has smallest ranges, or one, and exactly so many, at the head, if head and range stay
the same and it is not cancelled. What it reports are the rows that the ledger has grown by and,
after a window, the last block that is stored. -/
theorem worker_ends_within {w : Surroundings}
    (hlast : w.height? s.task.lastBlockKey s.task.startBlock = some start)
    (hfree : w.held s.guard = false) :
    (CatchUp.worker s).Ends s.soleTicker.among (fun result st =>
      s.Legible st.events → ∃ report, result = .ok report ∧
        report.windows = (heightsRead s.task.scanRangeKey st.events).length ∧
        (∀ top range, range ≠ 0 → (∀ h ∈ heightsRead s.task.headKey st.events, h ≤ top) →
          (∀ r ∈ heightsRead s.task.scanRangeKey st.events, range ≤ r) →
          report.windows ≤ max 1 ((top.toNat - start.toNat) ⌈/⌉ range.toNat)) ∧
        (∀ top range, ¬ToldCancelled st.events →
          (∀ h ∈ heightsRead s.task.headKey st.events, h = top) →
          (∀ r ∈ heightsRead s.task.scanRangeKey st.events, r = range) →
          report.windows = max 1 ((top.toNat - start.toNat) ⌈/⌉ range.toNat) ∧
          st.world.store.checkpoints.Holds s.task.lastBlockKey (max start top)) ∧
        st.rows = w.store.ledger.rows.length + report.emitted ∧
        (report.windows ≠ 0 →
          st.world.store.checkpoints.Holds s.task.lastBlockKey report.lastScanned))
      ⟨w, []⟩ := by
  refine (worker_marks hlast hfree).mono ?_
  intro result st h hlegible
  cases result with
  | error fault => exact absurd hlegible h
  | ok report =>
    obtain ⟨plans, c, hcompletes, hreported⟩ := h
    rw [hreported.marks.ranges, hreported.marks.heads]
    simp only [List.length_map, List.forall_mem_map]
    refine ⟨report, rfl, hreported.windows, ?_, ?_, hreported.emitted, ?_⟩
    · intro top range hrange hheads hranges
      rw [hreported.windows]
      exact hcompletes.length_le hrange hheads hranges
    · intro top range hgo hheads hranges
      obtain ⟨hlength, hne, rfl⟩ := hcompletes.length_eq hgo hheads hranges
      exact ⟨hreported.windows.trans hlength, hreported.marks.stored hne⟩
    · intro hwindows
      have hne : plans ≠ [] := by
        rintro rfl
        exact hwindows hreported.windows
      rw [hreported.lastScanned hne]
      exact hreported.marks.stored hne

/-- From block 10 to block 30, by ranges of five blocks, it is four windows. -/
theorem sampleToken_ends_after_four :
    (CatchUp.worker .sampleToken).Ends Scraper.sampleToken.soleTicker.among (fun result st =>
      Scraper.sampleToken.Legible st.events → ¬ToldCancelled st.events →
      (∀ h ∈ heightsRead Scraper.sampleToken.task.headKey st.events, h = 30) →
      (∀ r ∈ heightsRead Scraper.sampleToken.task.scanRangeKey st.events, r = 5) →
      ∃ report, result = .ok report ∧ report.windows = 4) ⟨.sample, []⟩ := by
  refine (worker_ends_within Stream.sampleToken_begins.lastBlock rfl).mono ?_
  intro result st h hlegible hgo hheads hranges
  obtain ⟨report, hok, -, -, hexact, -⟩ := h hlegible
  exact ⟨report, hok, (hexact 30 5 hgo hheads hranges).1⟩

end Scraper

end ChainIngest
