import ChainIngest.HeadTracker
import ChainIngest.Proofs.TickPlans

/-! Recording a height beside others, while the guard of the tracker is held: the stored height is
read, and replaced only if it is lower. -/

namespace ChainIngest

open Engine (Failed)

namespace HeadTracker

/-- What a tracker depends on that records a height. `K` holds before the stored height has been
read, and from then on `L` holds of it. Recording then succeeds with the higher one, or it fails
because a call does or because what is stored is no number. -/
structure RecordsUnder (t : HeadTracker) (height : UInt64) (P : Pact Engine σ)
    (world : σ → Surroundings) (K : σ → Prop) (L : UInt64 → σ → Prop)
    (post : UInt64 → σ → Prop) (fail : Fault → σ → Prop) : Prop where
  pactOver : P.Over world
  reads : P.Allows (· = .readCheckpoint (CheckpointKey.head t.chain) (Number.showUInt64 0)) K
  unread : K s₁ →
    P.answers s₁ (.readCheckpoint (CheckpointKey.head t.chain) (Number.showUInt64 0)) answer s₂ →
    Failed (.readCheckpoint (CheckpointKey.head t.chain) (Number.showUInt64 0)) answer ∨
      (world s₁).height? (CheckpointKey.head t.chain) 0 = none → K s₂ → fail fault s₂
  read : K s₁ → (world s₁).store.checkpoints.Holds (CheckpointKey.head t.chain) before → L before s₁
  tells : P.Allows (fun q => ∃ notice, q = .tell notice) (L before)
  stays : height ≤ before → L before s₁ → post before s₁
  guar : before < height → L before s₁ →
    P.answers s₁ (.writeCheckpoint (CheckpointKey.head t.chain) (Number.showUInt64 height)) answer
      s₂ →
    P.guar s₁ (.writeCheckpoint (CheckpointKey.head t.chain) (Number.showUInt64 height)) answer s₂
  written : before < height → L before s₁ →
    P.answers s₁ (.writeCheckpoint (CheckpointKey.head t.chain) (Number.showUInt64 height)) answer
      s₂ →
    world s₂ = (world s₁).afterWrite (CheckpointKey.head t.chain) height → post height s₂
  unwritten : before < height → L before s₁ →
    P.answers s₁ (.writeCheckpoint (CheckpointKey.head t.chain) (Number.showUInt64 height))
      (.error fault) s₂ →
    world s₂ = world s₁ → fail fault s₂

variable {t : HeadTracker} {height : UInt64} {P : Pact Engine σ} {world : σ → Surroundings}
  {K : σ → Prop} {L : UInt64 → σ → Prop} {post : UInt64 → σ → Prop} {fail : Fault → σ → Prop}
  {st : σ}

theorem RecordsUnder.recordHeld_abides (H : t.RecordsUnder height P world K L post fail)
    (hs : K st) : (t.recordHeld height).Abides P post fail st := by
  unfold recordHeld
  apply Action.Abides.bind
  refine (Action.Abides.readHeight H.pactOver H.reads rfl
    (F := fun s₂ => K s₂ → ∀ fault, fail fault s₂) ?unanswered ?illegible hs).mono ?_
    fun fault _ h => h.2 h.1 fault
  case unanswered => exact fun hK hanswer hfailed hK₂ _ => H.unread hK hanswer (.inl hfailed) hK₂
  case illegible => exact fun hK hanswer hnone hK₂ _ => H.unread hK hanswer (.inr hnone) hK₂
  intro before s₁ hread
  have hL : L before s₁ := H.read hread.1 hread.2
  by_cases hlt : height < before
  · rw [if_pos hlt]
    apply Action.Abides.bind
    exact Action.Abides.tell H.tells ⟨_, rfl⟩ hL
      fun s₂ hL₂ => .pure (H.stays (UInt64.le_of_lt hlt) hL₂)
  · rw [if_neg hlt]
    by_cases hgt : before < height
    · rw [if_pos hgt]
      apply Action.Abides.bind
      refine .writeHeight H.pactOver H.tells.stable hL (fun _ _ _ h => H.guar hgt h)
        (fun _ _ _ h hanswer hworld => .pure (H.written hgt h hanswer hworld)) ?unwritten
      intro s₂ s₃ fault h hanswer
      refine H.unwritten hgt h hanswer ?_
      rcases H.pactOver.responds hanswer with ⟨hok, -⟩ | ⟨hsame, -⟩
      · cases hok
      · exact hsame
    · rw [if_neg hgt]
      have hle : height ≤ before := UInt64.not_lt.mp hgt
      obtain rfl : height = before := UInt64.le_antisymm hle (UInt64.not_lt.mp hlt)
      exact .pure (H.stays hle hL)

end HeadTracker

end ChainIngest
