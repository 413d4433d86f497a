import ChainIngest.Proofs.ForwardProgress
import ChainIngest.Proofs.HeadRecords
import ChainIngest.Proofs.Outages

/-! Refreshing heads beside others. What a tracker comes to is settled by the stored head of its
chain, by what its node tells and by which of its calls fail; the heads of other chains and the
checkpoints of scrapers it leaves alone. -/

namespace ChainIngest

open Engine (Concur Failed)

namespace HeadTracker

variable {t : HeadTracker}

def Refreshes (t : HeadTracker) : Engine.Query → Prop
  | .readCheckpoint key text => key = CheckpointKey.head t.chain ∧ text = Number.showUInt64 0
  | .writeCheckpoint key text =>
    key = CheckpointKey.head t.chain ∧ ∃ height, text = Number.showUInt64 height
  | .acquire guard | .release guard => guard = t.guard
  | .headHeight node => node = t.node
  | .tell _ => True
  | _ => False

/-- What a tracker reads. Two chains may have one checkpoint for their heads. -/
def Depends (t : HeadTracker) : Part → Prop
  | .text _ => False
  | .head chain => CheckpointKey.head chain = CheckpointKey.head t.chain
  | .guard guard => guard = t.guard
  | .outside => True

def Touches (t : HeadTracker) : Part → Prop
  | .text key => key = CheckpointKey.head t.chain
  | .head chain => CheckpointKey.head chain = CheckpointKey.head t.chain
  | .guard guard => guard = t.guard
  | .outside => False

variable {w w' w₁ w₂ w₁' w₂' : Surroundings}

theorem Refreshes.keeps {q : Engine.Query} {answer : Engine.Answer q} (H : t.Refreshes q)
    (h : w.Answers q answer w') : Surroundings.parts.Agree (¬t.Touches ·) w w' := by
  cases q with
  | readCheckpoint key text =>
    obtain ⟨rfl, rfl⟩ := H
    obtain ⟨-, rfl⟩ := h
    refine (Surroundings.agree_afterRead fun _ _ => rfl).mono ?_
    rintro x hx rfl
    exact hx (Eq.refl _)
  | writeCheckpoint key text =>
    obtain ⟨rfl, height, rfl⟩ := H
    obtain ⟨-, rfl⟩ := h
    refine Surroundings.agree_afterWrite.mono fun x hx => ⟨?_, ?_⟩
    · rintro rfl
      exact hx (Eq.refl _)
    · rintro chain rfl
      exact hx
  | acquire guard =>
    obtain rfl : guard = t.guard := H
    obtain ⟨-, rfl⟩ := h
    refine Surroundings.agree_withGuard.mono ?_
    rintro x hx rfl
    exact hx (Eq.refl _)
  | release guard =>
    obtain rfl : guard = t.guard := H
    obtain rfl : w' = w.withGuard t.guard false := h
    refine Surroundings.agree_withGuard.mono ?_
    rintro x hx rfl
    exact hx (Eq.refl _)
  | headHeight node => exact h.2 ▸ .refl _
  | tell notice => exact (show w' = w from h) ▸ .refl _
  | _ => exact absurd H id

theorem Refreshes.settled {q : Engine.Query} {answer₁ answer₂ : Engine.Answer q}
    (H : t.Refreshes q) (hlike : Surroundings.parts.Agree t.Depends w₁ w₂)
    (h₁ : w₁.Answers q answer₁ w₁') (h₂ : w₂.Answers q answer₂ w₂') :
    Concur q answer₁ answer₂ ∧ Surroundings.parts.Agree t.Depends w₁' w₂' := by
  obtain ⟨hchains, -⟩ := Prod.mk.inj (hlike .outside trivial)
  cases q with
  | readCheckpoint key text =>
    obtain ⟨rfl, rfl⟩ := H
    have htext : w₁.headText t.chain = w₂.headText t.chain := hlike (.head t.chain) (Eq.refl _)
    obtain ⟨rfl, rfl⟩ := h₁
    obtain ⟨rfl, rfl⟩ := h₂
    exact ⟨congrArg Except.ok htext,
      Surroundings.agree_both_afterRead hlike (fun _ _ => rfl) htext⟩
  | writeCheckpoint key text =>
    obtain ⟨rfl, height, rfl⟩ := H
    obtain ⟨rfl, rfl⟩ := h₁
    obtain ⟨rfl, rfl⟩ := h₂
    exact ⟨rfl, Surroundings.agree_both_afterWrite hlike _ height⟩
  | acquire guard =>
    obtain ⟨-, rfl⟩ := h₁
    obtain ⟨-, rfl⟩ := h₂
    exact ⟨rfl, Surroundings.agree_both_withGuard hlike guard true⟩
  | release guard =>
    obtain rfl : w₁' = w₁.withGuard guard false := h₁
    obtain rfl : w₂' = w₂.withGuard guard false := h₂
    exact ⟨rfl, Surroundings.agree_both_withGuard hlike guard false⟩
  | headHeight node =>
    obtain ⟨rfl, rfl⟩ := h₁
    obtain ⟨rfl, rfl⟩ := h₂
    rw [hchains]
    exact ⟨rfl, hlike⟩
  | tell notice =>
    obtain rfl : w₁' = w₁ := h₁
    obtain rfl : w₂' = w₂ := h₂
    exact ⟨rfl, hlike⟩
  | _ => exact absurd H id

def party (t : HeadTracker) : Party where
  caller := .tracker t.node
  asks := t.Refreshes
  reads := t.Depends
  writes := t.Touches
  keeps := Refreshes.keeps
  settled := Refreshes.settled

/-! ### Where a tracker stands -/

/-- The stored head of a tracker's chain is `stored`, and its node tells `height`. -/
structure StandsAt (t : HeadTracker) (stored height : UInt64) (isHeld : Bool) (w : Surroundings) :
    Prop where
  stored : w.height? (CheckpointKey.head t.chain) 0 = some stored
  height : w.chains.head t.node = height
  guard : w.held t.guard = isHeld

/-- What a refresh asks that leaves a tracker where it stands. -/
def Looks (t : HeadTracker) : Engine.Query → Prop
  | .readCheckpoint key text => key = CheckpointKey.head t.chain ∧ text = Number.showUInt64 0
  | .headHeight node => node = t.node
  | .tell _ => True
  | _ => False

theorem Looks.refreshes {q : Engine.Query} (H : t.Looks q) : t.Refreshes q := by
  cases q with
  | readCheckpoint | headHeight | tell => exact H
  | _ => exact absurd H id

variable {F : Outages} {st : Watched} {stored height : UInt64} {isHeld : Bool}

namespace StandsAt

theorem like (H : t.StandsAt stored height isHeld w)
    (h : Surroundings.parts.Agree t.Depends w w') : t.StandsAt stored height isHeld w' where
  stored := (Surroundings.height?_head_congr (h (.head t.chain) (Eq.refl _))).symm.trans H.stored
  height := by
    have hchains : w.chains = w'.chains := congrArg Prod.fst (h .outside trivial)
    exact hchains ▸ H.height
  guard := (h (.guard t.guard) (Eq.refl _)).symm.trans H.guard

theorem stable : (t.party.pact F).Stable fun st => t.StandsAt stored height isHeld st.world :=
  fun h hrely => h.like (Party.like_iff.mp hrely).1

theorem withGuard (H : t.StandsAt stored height isHeld w) (isHeld' : Bool) :
    t.StandsAt stored height isHeld' (w.withGuard t.guard isHeld') :=
  ⟨H.stored, H.height, Function.update_self ..⟩

theorem allows :
    (t.party.pact F).Allows t.Looks fun st => t.StandsAt stored height isHeld st.world := by
  refine Party.allows (fun q hq => hq.refreshes) like (fun hq => absurd hq id) ?_
  intro w q answer w' hq H hanswer
  cases q with
  | readCheckpoint key text =>
    obtain ⟨rfl, rfl⟩ := hq
    obtain ⟨-, rfl⟩ := hanswer
    exact ⟨(Checkpoints.height?_getOrCreate fun _ => rfl).trans H.stored, H.height, H.guard⟩
  | headHeight => exact hanswer.2 ▸ H
  | tell => exact (show w' = w from hanswer) ▸ H
  | _ => exact absurd hq id

end StandsAt

/-- What recording a height leaves behind. -/
def Leaves (t : HeadTracker) (stored height : UInt64) (isHeld : Bool) :
    Except Fault UInt64 → Watched → Prop
  | .ok _, st => t.StandsAt (max stored height) height isHeld st.world
  | .error _, st =>
    t.StandsAt stored height isHeld st.world ∧ st.failed t.party.caller = true

theorem Leaves.stable (result : Except Fault UInt64) :
    (t.party.pact F).Stable (t.Leaves stored height isHeld result) := by
  intro st st' h hrely
  cases result with
  | ok value => exact StandsAt.stable (F := F) h hrely
  | error fault =>
    exact ⟨StandsAt.stable (F := F) h.1 hrely, Party.failed_stable (F := F) h.2 hrely⟩

theorem StandsAt.recordsUnder : t.RecordsUnder height (t.party.pact F) Watched.world
    (fun st => t.StandsAt stored height true st.world)
    (fun before st => before = stored ∧ t.StandsAt stored height true st.world)
    (fun top st => top = max stored height ∧ t.StandsAt top height true st.world)
    fun fault => t.Leaves stored height true (.error fault) where
  pactOver := Party.pact_over
  reads := StandsAt.allows.mono <| by
    rintro q rfl
    exact ⟨rfl, rfl⟩
  unread hK hanswer hunread hK₂ := by
    rcases hunread with hfailed | hnone
    · exact ⟨hK₂, Outages.failed_of_failed hanswer hfailed⟩
    · exact nomatch hK.stored.symm.trans hnone
  read hK hholds := ⟨Option.some.inj (hholds.height?.symm.trans hK.stored), hK⟩
  tells := Pact.Allows.and_fixed <| StandsAt.allows.mono <| by
    rintro q ⟨notice, rfl⟩
    trivial
  stays hle h := by
    obtain ⟨rfl, hK⟩ := h
    exact ⟨(Height.max_eq_left hle).symm, hK⟩
  guar _ _ hanswer := by
    have hasks : t.party.asks
        (.writeCheckpoint (CheckpointKey.head t.chain) (Number.showUInt64 height)) :=
      ⟨rfl, _, rfl⟩
    exact Party.guar_of_asks hasks hanswer
  written hlt h _ hworld := by
    obtain ⟨rfl, hK⟩ := h
    refine ⟨(Height.max_eq_right (UInt64.le_of_lt hlt)).symm, ?_⟩
    rw [hworld]
    exact ⟨(Checkpoints.holds_put ..).height?, hK.height, hK.guard⟩
  unwritten _ h hanswer hsame :=
    ⟨hsame ▸ h.2, Outages.failed_of_failed hanswer ⟨_, rfl⟩⟩

theorem recordHeld_leaves (hst : t.StandsAt stored height true st.world) :
    (t.recordHeld height).run.Abides (t.party.pact F) (t.Leaves stored height true) st := by
  refine Action.Abides.of_results
    ((StandsAt.recordsUnder.recordHeld_abides hst).mono ?_ fun _ _ h => h)
  rintro top st' ⟨rfl, h⟩
  exact h

theorem record_leaves (hst : t.StandsAt stored height false st.world) :
    (t.record height).run.Abides (t.party.pact F) (t.Leaves stored height false) st := by
  refine t.party.guarded (t.Leaves stored height true) (Eq.refl t.guard) (Eq.refl t.guard)
    StandsAt.stable Leaves.stable (fun _ h => h.guard) ?_ ?_ hst
  · exact fun st₁ h => recordHeld_leaves (h.withGuard true)
  · intro result st₁ h
    cases result with
    | error fault => exact ⟨h.1.withGuard false, h.2⟩
    | ok value => exact h.withGuard false

/-- A refresh leaves the stored head where it is unless it is below what the node tells. -/
theorem refresh_leaves (hst : t.StandsAt stored height false st.world) :
    t.refresh.run.Abides (t.party.pact F) (t.Leaves stored height false) st := by
  have hlooks : t.Looks (.headHeight t.node) := rfl
  apply Program.Abides.bind
  refine (Program.Abides.query StandsAt.allows hlooks hst).mono ?_
  intro result st₂ hanswered
  obtain ⟨st₁, hst₁, hanswer, hst₂⟩ := hanswered
  cases result with
  | error fault => exact ⟨hst₂, Outages.failed_of_failed hanswer ⟨fault, rfl⟩⟩
  | ok value =>
    obtain rfl : value = height := by
      rcases hanswer with ⟨hfailure, -⟩ | ⟨-, w, hanswer, -⟩
      · obtain ⟨fault, hfault⟩ := F.failed_of_failure? hfailure
        cases hfault
      · exact (Except.ok.inj hanswer.1).trans hst₁.height
    exact record_leaves hst₂

theorem recordHeld_alike :
    (t.recordHeld height).Alike t.Refreshes True Eq (t.recordHeld height) := by
  unfold recordHeld
  refine (Action.Alike.readHeight ⟨rfl, rfl⟩).bind ?_
  intro stored _ hstored
  subst hstored
  split
  · exact (Action.Alike.tell ..).bind fun _ _ _ => .pure rfl
  · split
    · exact Action.Alike.bind (.writeHeight ⟨rfl, _, rfl⟩) fun _ _ _ => .pure rfl
    · exact .pure rfl

theorem refresh_alike : t.refresh.Alike t.Refreshes True Eq t.refresh := by
  have hheight : t.Refreshes (.headHeight t.node) := rfl
  refine (Action.Alike.headHeight hheight).bind ?_
  intro height _ hsame
  subst hsame
  exact Program.Alike.guarded (Eq.refl t.guard) (Eq.refl t.guard) recordHeld_alike

/-- What a refresh comes to: it cannot be told from `last`, the stored head is some height, and
unless a call has failed it is the higher one of what has been stored and what the node tells. -/
structure ComesTo (t : HeadTracker) (last : Watched) (target : UInt64) (st : Watched) : Prop where
  like : t.party.Like last st
  numeric : ∃ head, st.world.height? (CheckpointKey.head t.chain) 0 = some head
  refreshed : st.failed t.party.caller = false →
    st.world.height? (CheckpointKey.head t.chain) 0 = some target

theorem ComesTo.congr {st' last : Watched} {target : UInt64} (H : t.ComesTo last target st)
    (hlike : t.party.Like st st') : t.ComesTo last target st' := by
  obtain ⟨hworld, -, hfailed⟩ := Party.like_iff.mp hlike
  have hsame := Surroundings.height?_head_congr (hworld (.head t.chain) (Eq.refl _))
  refine ⟨H.like.trans hlike, hsame ▸ H.numeric, fun hok => ?_⟩
  exact hsame.symm.trans (H.refreshed (hfailed.trans hok))

/-- A refresh ends, and where it ends is settled by where it begins. -/
theorem refresh_fulfils (hst : t.StandsAt stored height false st.world) :
    ∃ last, ∀ st', t.party.Like st st' →
      Process.Fulfils (F.Answers.of t.party.caller) t.party.footprint
        (fun _ => t.ComesTo last (max stored height)) (.run t.refresh.run) st' := by
  -- What one run ends with stands for all runs: these come to the like of it.
  obtain ⟨result, last, hrun, -⟩ := (refresh_leaves (F := F) hst).exists_runs trivial
  refine ⟨last, fun st' hlike => .run (fun _ _ _ h hrely => h.congr hrely) ?_⟩
  have hleaves := refresh_leaves (F := F) (hst.like (Party.like_iff.mp hlike).1)
  have halike : t.refresh.run.Alike t.party.asks True (ResultsAlike True Eq) t.refresh.run :=
    refresh_alike
  refine (Party.abides_alike halike hlike hrun hleaves).mono ?_
  intro result' st'' h
  obtain ⟨hpost, -, hlike'⟩ := h
  cases result' with
  | ok value => exact ⟨hlike', ⟨_, hpost.stored⟩, fun _ => hpost.stored⟩
  | error fault =>
    exact ⟨hlike', ⟨_, hpost.1.stored⟩, fun hok => absurd (hok.symm.trans hpost.2) nofun⟩

end HeadTracker

end ChainIngest
