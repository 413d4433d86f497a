import ChainIngest.CatchUp
import ChainIngest.Proofs.Workers

/-! Catch-ups beside others. A worker ends, whichever of its calls fail; where it leaves its last
block is settled by where it begins, and if none of its calls fails then that is at the head. -/

namespace ChainIngest

open Engine (Concur Failed)

namespace Scraper

variable {s : Scraper}

/-- Outcomes that differ at most in how many rows were added to the ledger. -/
def OutcomesAlike (o o' : TickOutcome) : Prop :=
  o.window = o'.window ∧ o.lastScanned = o'.lastScanned ∧ o.head = o'.head

theorem readPlan_alike : s.readPlan.Alike s.AsksHeld True Eq s.readPlan := by
  have hread : ∀ {key initial}, (key, initial) ∈ s.task.readings →
      (Engine.readHeight key initial).Alike s.AsksHeld True Eq (Engine.readHeight key initial) :=
    fun hmem => .readHeight (.inl (.of_mem hmem))
  unfold readPlan
  refine (hread ScanTask.scanRange_mem).bind ?_
  intro range _ hrange
  subst hrange
  split
  · exact Action.Alike.bind (R := fun _ _ => False) (.throw trivial) fun _ _ h => h.elim
  · refine (hread ScanTask.overlap_mem).bind ?_
    intro overlap _ hoverlap
    subst hoverlap
    refine (hread ScanTask.lastBlock_mem).bind ?_
    intro lastScanned _ hlast
    subst hlast
    refine (hread ScanTask.head_mem).bind ?_
    intro head _ hhead
    subst hhead
    exact .pure rfl

theorem advance_alike {p : Plan} {o o' : ScanOutcome} (h : o.window = o'.window) :
    (s.advance p o).Alike s.AsksHeld True OutcomesAlike (s.advance p o') := by
  have hnext : p.next o = p.next o' := congrArg (fun w => max w.last p.lastScanned) h
  have htell : ∀ notice notice', Action.Alike s.AsksHeld True OutcomesAlike
      (do Engine.tell notice; return p.outcome o) (do Engine.tell notice'; return p.outcome o') :=
    fun _ _ => (Action.Alike.tell ..).bind fun _ _ _ => .pure ⟨h, hnext, rfl⟩
  unfold advance
  rw [hnext]
  split
  · exact Action.Alike.bind (.writeHeight (.inr (.inr ⟨_, rfl⟩))) fun _ _ _ => htell ..
  · exact htell ..

theorem tickHeld_alike :
    s.tickHeld.Alike s.AsksHeld True OutcomesAlike s.tickHeld := by
  rw [tickHeld_eq]
  refine readPlan_alike.bind ?_
  intro p _ hp
  subst hp
  have hscan : (s.scanWindow p.lastScanned p.head p.range p.overlap).Alike s.AsksHeld True
      (fun o o' => o.window = .compute p.lastScanned p.overlap p.range p.head ∧
        o.window = o'.window)
      (s.scanWindow p.lastScanned p.head p.range p.overlap) :=
    Program.Alike.mono (scanWindow_alike ..) (fun q hq => .inr (.inl hq)) fun _ _ h => h
  exact hscan.bind fun o o' h => advance_alike h.2

theorem tickHeld_asks : s.tickHeld.run.Asks s.AsksHeld :=
  Program.Alike.asks tickHeld_alike fun _ => .inr (.inl trivial)

theorem tick_alike : s.tick.Alike s.Works True OutcomesAlike s.tick :=
  .guarded (Eq.refl s.guard) (Eq.refl s.guard)
    (Program.Alike.mono tickHeld_alike (fun _ hq => hq.works) fun _ _ h => h)

/-- Rounds that end the catch-up in the same way or both go on. -/
def RoundsAlike : CatchUpReport ⊕ CatchUp.Result → CatchUpReport ⊕ CatchUp.Result → Prop
  | .inl _, .inl _ | .inr (.ok _), .inr (.ok _) | .inr (.error _), .inr (.error _) => True
  | _, _ => False

theorem round_alike (report report' : CatchUpReport) :
    (CatchUp.round s report).Alike s.Works True RoundsAlike (CatchUp.round s report') := by
  have htick : s.tick.run.Alike s.Works True (ResultsAlike True OutcomesAlike) s.tick.run :=
    tick_alike
  refine .ask trivial fun cancelled _ hsame _ => ?_
  obtain rfl : cancelled = _ := hsame
  cases cancelled with
  | true => exact .pure trivial
  | false =>
    refine htick.bind ?_
    intro result result' h
    cases result with
    | error fault =>
      cases result' with
      | error fault' => exact .pure trivial
      | ok o' => exact absurd h id
    | ok o =>
      cases result' with
      | error fault' => exact absurd h id
      | ok o' =>
        have hcaught : o.caughtUp = o'.caughtUp := by
          unfold TickOutcome.caughtUp
          rw [h.2.1, h.2.2]
        simp only [hcaught]
        split
        · exact .pure trivial
        · exact .pure trivial

variable {F : Outages} {overlap head c : UInt64} {st st' : Watched}

/-- What a round leaves behind that begins with the last block at `c`. -/
def RoundLeaves (s : Scraper) (overlap head c : UInt64) :
    CatchUpReport ⊕ CatchUp.Result → Watched → Prop
  | .inl _, st => ∃ c', c < c' ∧ c' < head ∧ s.StandsAt overlap head c' false false st.world
  | .inr (.ok _), st => s.StandsAt overlap head (max c head) false true st.world
  | .inr (.error _), st => st.failed s.party.caller = true

/-- A round moves the last block closer to the head or ends the catch-up. -/
theorem round_leaves (report : CatchUpReport)
    (hst : s.StandsAt overlap head c false false st.world) :
    (CatchUp.round s report).Abides (s.party.pact F) (s.RoundLeaves overlap head c) st := by
  have hlooks : s.Looks .isCancelled := .inr (.inr rfl)
  apply Program.Abides.bind
  refine (Program.Abides.query (StandsAt.allows fun _ hq => hq) hlooks hst).mono ?_
  intro cancelled st₂ hanswered
  obtain ⟨st₁, hst₁, hanswer, hst₂⟩ := hanswered
  obtain ⟨w, ⟨hcancelled, -⟩, -⟩ := F.answered_of_not_call (fun _ => rfl) hanswer
  obtain rfl : cancelled = false := hcancelled.trans hst₁.aside
  apply Program.Abides.bind
  refine (tick_leaves hst₂).mono ?_
  intro result st₃ h
  cases result with
  | error fault => exact h
  | ok o =>
    obtain ⟨⟨⟨range, hrange, hwindow⟩, hlast, hhead⟩, hst₃⟩ := h
    cases hcaught : o.caughtUp with
    | true =>
      have hle : head ≤ max o.window.last c := by
        simpa [TickOutcome.caughtUp, hhead, hlast] using hcaught
      have hend : o.lastScanned = max c head := by
        rw [hwindow] at hle
        rw [hlast, hwindow, Window.compute_last_eq hle, ← UInt64.toNat_inj]
        simp only [Height.toNat_max, Nat.max_comm]
      have hst₄ : s.StandsAt overlap head (max c head) false true st₃.world := hend ▸ hst₃
      simp only [hcaught, if_true]
      exact hst₄
    | false =>
      have hlt : max o.window.last c < head := by
        simpa [TickOutcome.caughtUp, hhead, hlast] using hcaught
      simp only [hcaught, Bool.false_eq_true, if_false]
      refine ⟨o.lastScanned, ?_, hlast ▸ hlt, hst₃.weaken⟩
      rw [hwindow] at hlt
      rw [hlast, hwindow]
      exact Window.lt_max_compute_last hrange hlt

/-- What a catch-up comes to: it cannot be told from `last`, and unless a call has failed the last
block is at its target. -/
structure CatchesUp (s : Scraper) (last : Watched) (target : UInt64) (st : Watched) : Prop where
  like : s.party.Like last st
  lastBlock : st.failed s.party.caller = false →
    st.world.store.checkpoints.Holds s.task.lastBlockKey target

theorem CatchesUp.congr {last : Watched} {target : UInt64} (H : s.CatchesUp last target st)
    (hlike : s.party.Like st st') : s.CatchesUp last target st' := by
  obtain ⟨hworld, -, hfailed⟩ := Party.like_iff.mp hlike
  refine ⟨H.like.trans hlike, fun hok => ?_⟩
  obtain ⟨text, hget, hread⟩ := H.lastBlock (hfailed.trans hok)
  have hmem : s.task.lastBlockKey ∈ s.task.keys := by simp [ScanTask.keys]
  exact ⟨text, (hworld (.text _) hmem).symm.trans hget, hread⟩

/-- A worker ends, and where it ends is settled by where it begins. -/
theorem worker_fulfils (hst : s.StandsAt overlap head c false false st.world) :
    ∃ last, ∀ st', s.party.Like st st' →
      Process.Fulfils (F.Answers.of s.party.caller) s.party.footprint
        (fun _ => s.CatchesUp last (max c head)) (CatchUp.worker s) st' := by
  suffices H : ∃ last, ∀ report st', s.party.Like st st' →
      Process.Fulfils (F.Answers.of s.party.caller) s.party.footprint
        (fun _ => s.CatchesUp last (max c head)) (.repeatProgram report (CatchUp.round s)) st' by
    obtain ⟨last, h⟩ := H
    exact ⟨last, h .start⟩
  -- The induction is on how far the last block is from the head.
  induction hn : head.toNat - c.toNat using Nat.strongRecOn generalizing st c with
  | _ n ih =>
    obtain ⟨result, st₁, hrun, hpost⟩ :=
      (round_leaves (F := F) .start hst).exists_runs trivial
    -- One run of the round settles how each of its runs ends, from any state like this one.
    have hround : ∀ report st', s.party.Like st st' →
        (CatchUp.round s report).Abides (s.party.pact F) (fun result' st'' =>
          s.RoundLeaves overlap head c result' st'' ∧ RoundsAlike result result' ∧
            s.party.Like st₁ st'') st' :=
      fun report st' hlike => Party.abides_alike (round_alike .start report) hlike hrun
        (round_leaves report (hst.like (Party.like_iff.mp hlike).1))
    cases result with
    | inl report₁ =>
      obtain ⟨c', hlt, hhead, hst₁⟩ := hpost
      have hmax : max c' head = max c head := by
        rw [Height.max_eq_right (UInt64.le_of_lt hhead),
          Height.max_eq_right (UInt64.le_of_lt (UInt64.lt_trans hlt hhead))]
      rw [UInt64.lt_iff_toNat_lt] at hlt hhead
      obtain ⟨last, hlast⟩ := ih _ (by omega) hst₁ rfl
      rw [hmax] at hlast
      refine ⟨last, fun report st' hlike =>
        .repeatProgram (fun _ _ _ h hrely => h.congr hrely) ((hround report st' hlike).mono ?_)⟩
      intro result' st₂ h
      obtain ⟨-, halike, hlike₂⟩ := h
      cases result' with
      | inl report' => exact hlast report' st₂ hlike₂
      | inr result' => exact absurd halike id
    | inr result₁ =>
      refine ⟨st₁, fun report st' hlike =>
        .repeatProgram (fun _ _ _ h hrely => h.congr hrely) ((hround report st' hlike).mono ?_)⟩
      intro result' st₂ h
      obtain ⟨hleaves, halike, hlike₂⟩ := h
      cases result' with
      | inl report' => cases result₁ <;> exact absurd halike id
      | inr result' =>
        refine ⟨hlike₂, fun hok => ?_⟩
        cases result' with
        | ok report' => exact hleaves.stored rfl
        | error fault => exact absurd (hok.symm.trans hleaves) Bool.false_ne_true

end Scraper

end ChainIngest
