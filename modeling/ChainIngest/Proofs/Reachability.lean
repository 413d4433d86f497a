import ChainIngest.Proofs.Callers
import ChainIngest.Proofs.Guards

/-! How far processes go: what they come to after some steps, what they are bound to come to
(`Process.Eventually`), and what holds at every moment (`Process.Always`), with one rule for each
way to put processes together. -/

namespace ChainIngest

namespace Process

variable {I : Interface} {σ τ ι α β : Type} {A : Answering I σ} {J : σ → Prop}

/-! ### What a process comes to -/

section

variable {post : α → σ → Prop}

/-- A process that ends goes on to end after any step. -/
theorem Ends.of_step {p p' : Process I α} (H : p.Ends A post s) (hstep : p.Step A s p' s') :
    p'.Ends A post s' := by
  cases H with
  | done hv => exact absurd hstep (not_step_of_value? hv)
  | step _ hall => exact hall p' s' hstep

theorem Ends.of_reaches {p p' : Process I α} (H : p.Ends A post s)
    (hreaches : p.Reaches A s p' s') : p'.Ends A post s' := by
  induction hreaches with
  | refl => exact H
  | tail _ hstep ih => exact ih.of_step hstep

theorem Ends.of_done (H : (Process.done value : Process I α).Ends A post s) : post value s := by
  cases H with
  | done hv hpost =>
    cases hv
    exact hpost
  | step hex =>
    obtain ⟨_, _, hstep⟩ := hex
    exact hstep.elim

theorem Reaches.andThen_done {p : Process I α} {next : α → Process I β} {q : Process I β}
    (H : p.Reaches A s (.done value) s') (H' : (next value).Reaches A s' q s'') :
    (p.andThen next).Reaches A s q s'' :=
  ((H.andThen next).tail (.inr ⟨value, rfl, rfl, rfl⟩)).trans H'

theorem Reaches.untilFailure_left {ε : Type} {left left' : Process I (Except ε α)}
    (H : left.Reaches A s left' s') (right : Process I (Except ε β)) :
    (left.untilFailure right).Reaches A s (left'.untilFailure right) s' := by
  induction H with
  | refl => exact .refl
  | tail _ hstep ih => exact ih.tail (.inl ⟨_, hstep, rfl⟩)

theorem Reaches.untilFailure_right {ε : Type} {right right' : Process I (Except ε β)}
    (H : right.Reaches A s right' s') (left : Process I (Except ε α)) :
    (left.untilFailure right).Reaches A s (left.untilFailure right') s' := by
  induction H with
  | refl => exact .refl
  | tail _ hstep ih => exact ih.tail (.inr (.inl ⟨_, hstep, rfl⟩))

/-- What every answer keeps, a process keeps however far it goes. -/
theorem Reaches.keeps {J : σ → Prop} (hJ : ∀ s q answer s', J s → A s q answer s' → J s')
    {p p' : Process I α} (H : p.Reaches A s p' s') (hs : J s) : J s' := by
  induction H with
  | refl => exact hs
  | tail _ hstep ih => exact step_keeps hJ hstep ih

/-- A process goes as far in a part of the state, as long as the rest plays no role in how its
queries are answered. -/
theorem Reaches.image {B : Answering I τ} {p p' : Process I α} (view : σ → τ)
    (h : ∀ s q answer s', A s q answer s' → B (view s) q answer (view s'))
    (H : p.Reaches A s p' s') : p.Reaches B (view s) p' (view s') := by
  induction H with
  | refl => exact .refl
  | tail _ hstep ih =>
    obtain ⟨_, hstep', rfl⟩ := hstep.simulates
      (fun q answer s' hanswer => ⟨view s', h _ q answer s' hanswer, rfl⟩) rfl
    exact ih.tail hstep'

theorem Reaches.askedBy {A : Answering (I.By ι) σ} {i : ι} {p p' : Process I α}
    (H : p.Reaches (A.of i) s p' s') : (p.askedBy i).Reaches A s (p'.askedBy i) s' := by
  induction H with
  | refl => exact .refl
  | tail _ hstep ih => exact ih.tail (step_askedBy_iff.mpr ⟨_, hstep, rfl⟩)

/-- A process that ends in a part of the state ends, as long as the rest plays no role in how its
queries are answered and stays as it is. -/
theorem Ends.embed {B : Answering I τ} {p : Process I α} {post : α → σ → Prop} (embed : σ → τ)
    (h : ∀ {s q answer t'}, B (embed s) q answer t' ↔ ∃ s', A s q answer s' ∧ t' = embed s')
    (H : p.Ends A post s) :
    p.Ends B (fun value t => ∃ s', post value s' ∧ t = embed s') (embed s) := by
  induction H with
  | @done p s value hv hpost => exact .done hv ⟨s, hpost, rfl⟩
  | @step p s hex _ ih =>
    obtain ⟨p', s', hstep⟩ := hex
    obtain ⟨_, hstep', -⟩ := hstep.simulates (B := B) (R := fun s' t' => t' = embed s')
      (fun q answer s' hanswer => ⟨_, h.mpr ⟨s', hanswer, rfl⟩, rfl⟩) rfl
    refine .step ⟨p', _, hstep'⟩ fun p'' t'' hnext => ?_
    obtain ⟨s'', hnext', rfl⟩ := hnext.simulates (B := A) (R := fun t' s' => t' = embed s')
      (fun q answer t' hanswer => h.mp hanswer) rfl
    exact ih p'' s'' hnext'

theorem Ends.askedBy {A : Answering (I.By ι) σ} {i : ι} {p : Process I α} {post : α → σ → Prop}
    (H : p.Ends (A.of i) post s) : (p.askedBy i).Ends A post s := by
  induction H with
  | @done p s value hv hpost => exact .done ((value?_askedBy i p).trans hv) hpost
  | @step p s hex _ ih =>
    obtain ⟨p', s', hstep⟩ := hex
    refine .step ⟨_, s', step_askedBy_iff.mpr ⟨p', hstep, rfl⟩⟩ fun q s'' hnext => ?_
    obtain ⟨p'', hnext', rfl⟩ := step_askedBy_iff.mp hnext
    exact ih p'' s'' hnext'

/-- A loop goes as far in a round as the round does. -/
theorem Reaches.loop {round : τ → Process I (τ ⊕ α)} {state : τ} {p : Process I (τ ⊕ α)}
    (H : (round state).Reaches A s p s') :
    ∃ p', (Process.loop state round).Reaches A s p' s' :=
  ⟨_, .trans (.tail .refl ⟨rfl, rfl⟩) (H.andThen _)⟩

/-- A loop goes on to the next round. -/
theorem Reaches.loop_next {round : τ → Process I (τ ⊕ α)} {state state' : τ} {q : Process I α}
    (H : (round state).Reaches A s (.done (.inl state')) s')
    (H' : (Process.loop state' round).Reaches A s' q s'') :
    (Process.loop state round).Reaches A s q s'' :=
  .trans (.tail .refl ⟨rfl, rfl⟩) (H.andThen_done H')

end

/-! ### What is bound to happen -/

/-- However a process goes on, it comes to a state for which `goal` holds. -/
inductive Eventually (A : Answering I σ) (goal : σ → Prop) : Process I α → σ → Prop
  | now {p s} : goal s → Eventually A goal p s
  | step {p s} : (∃ p' s', Step A p s p' s') →
      (∀ p' s', Step A p s p' s' → Eventually A goal p' s') → Eventually A goal p s

namespace Eventually

variable {goal : σ → Prop}

theorem mono {goal' : σ → Prop} {p : Process I α} (H : p.Eventually A goal s)
    (h : ∀ s, goal s → goal' s) : p.Eventually A goal' s := by
  induction H with
  | now hgoal => exact .now (h _ hgoal)
  | step hex _ ih => exact .step hex ih

/-- The goal is met in the first of two processes. -/
theorem andThen_left {first : Process I α} (H : first.Eventually A goal s)
    (next : α → Process I β) : (first.andThen next).Eventually A goal s := by
  induction H with
  | now hgoal => exact .now hgoal
  | step hex _ ih =>
    obtain ⟨p₁, s₁, h₁⟩ := hex
    refine .step ⟨_, s₁, .inl ⟨p₁, h₁, rfl⟩⟩ ?_
    rintro _ s' (⟨first', hstep, rfl⟩ | ⟨value, hv, -, -⟩)
    · exact ih first' s' hstep
    · exact absurd h₁ (not_step_of_value? hv)

/-- The goal is met in the second of two processes. -/
theorem andThen {first : Process I α} {next : α → Process I β}
    (H : first.Ends A (fun value s' => (next value).Eventually A goal s') s) :
    (first.andThen next).Eventually A goal s :=
  Ends.andThen_of_step (fun _ _ => .step) H

/-- The goal is met after a round of a loop. -/
theorem loop {round : τ → Process I (τ ⊕ α)} {state : τ}
    (H : (round state).Ends A (fun
      | .inl state', s' => (Process.loop state' round).Eventually A goal s'
      | .inr _, s' => goal s') s) : (Process.loop state round).Eventually A goal s := by
  refine .step ⟨_, s, rfl, rfl⟩ ?_
  rintro _ _ ⟨rfl, rfl⟩
  refine .andThen (H.mono ?_)
  intro result s' h
  cases result with
  | inl state' => exact h
  | inr value => exact .now h

end Eventually

/-! ### What always holds -/

/-- However far a process goes, `J` holds, and `post` too once it has ended. -/
def Always (A : Answering I σ) (J : σ → Prop) (post : α → σ → Prop) (p : Process I α) (s : σ) :
    Prop :=
  ∀ p' s', p.Reaches A s p' s' → J s' ∧ ∀ value, p'.value? = some value → post value s'

namespace Always

variable {post : α → σ → Prop} {p p' : Process I α}

/-- What every step keeps holds always. -/
theorem of_kept (kept : Process I α → σ → Prop)
    (holds : ∀ p s, kept p s → J s ∧ ∀ value, p.value? = some value → post value s)
    (step : ∀ p s p' s', kept p s → p.Step A s p' s' → kept p' s') (h : kept p s) :
    p.Always A J post s := by
  intro p' s' hreaches
  refine holds p' s' ?_
  induction hreaches with
  | refl => exact h
  | tail _ hstep ih => exact step _ _ _ _ ih hstep

theorem now (H : p.Always A J post s) : J s ∧ ∀ value, p.value? = some value → post value s :=
  H p s .refl

theorem of_step (H : p.Always A J post s) (hstep : p.Step A s p' s') : p'.Always A J post s' :=
  fun _ _ hreaches => H _ _ (Reaches.trans (.tail .refl hstep) hreaches)

theorem of_steps (hnow : J s ∧ ∀ value, p.value? = some value → post value s)
    (hsteps : ∀ p' s', p.Step A s p' s' → p'.Always A J post s') : p.Always A J post s := by
  refine of_kept (fun p' s' => (p' = p ∧ s' = s) ∨ p'.Always A J post s') ?_ ?_ (.inl ⟨rfl, rfl⟩)
  · rintro _ _ (⟨rfl, rfl⟩ | H)
    · exact hnow
    · exact H.now
  · rintro _ _ _ _ (⟨rfl, rfl⟩ | H) hstep
    · exact .inr (hsteps _ _ hstep)
    · exact .inr (H.of_step hstep)

theorem mono {J' : σ → Prop} {post' : α → σ → Prop} (H : p.Always A J post s)
    (hJ : ∀ s, J s → J' s) (h : ∀ value s, J s → post value s → post' value s) :
    p.Always A J' post' s := fun p' s' hreaches =>
  (H p' s' hreaches).imp (hJ s') fun hpost value hvalue =>
    h value s' (H p' s' hreaches).1 (hpost value hvalue)

theorem done (hs : J s) (h : post value s) :
    (Process.done value : Process I α).Always A J post s := by
  refine of_steps ⟨hs, fun value' hvalue => ?_⟩ fun _ _ hstep => hstep.elim
  cases hvalue
  exact h

/-- A query, and whatever is done with the answer. -/
theorem query {q : I.Query} {next : I.Answer q → Program I α} (hs : J s)
    (h : ∀ answer s', A s q answer s' → (Process.run (next answer)).Always A J post s') :
    (Process.run (.query q next)).Always A J post s := by
  refine of_steps ⟨hs, nofun⟩ ?_
  rintro _ s' ⟨answer, hanswer, rfl⟩
  exact h answer s' hanswer

theorem andThen {first : Process I α} {next : α → Process I β} {post : β → σ → Prop}
    (H : first.Always A J (fun value s' => (next value).Always A J post s') s) :
    (first.andThen next).Always A J post s := by
  refine of_kept (fun p s' => (∃ first' : Process I α, p = first'.andThen next ∧
    first'.Always A J (fun value s' => (next value).Always A J post s') s') ∨
      p.Always A J post s') ?_ ?_ (.inl ⟨first, rfl, H⟩)
  · rintro _ s' (⟨first', rfl, H⟩ | H)
    · exact ⟨H.now.1, nofun⟩
    · exact H.now
  · rintro _ s' p' s'' (⟨first', rfl, H⟩ | H) hstep
    · rcases hstep with ⟨first'', hstep, rfl⟩ | ⟨value, hvalue, rfl, rfl⟩
      · exact .inl ⟨first'', rfl, H.of_step hstep⟩
      · exact .inr (H.now.2 value hvalue)
    · exact .inr (H.of_step hstep)

/-- A loop of which every round keeps an invariant, or ends the loop as `post` says. -/
theorem loop {round : τ → Process I (τ ⊕ α)} (Inv : τ → σ → Prop)
    (hJ : ∀ state s, Inv state s → J s)
    (hround : ∀ state s, Inv state s → (round state).Always A J (fun
      | .inl state', s' => Inv state' s'
      | .inr value, s' => post value s') s)
    {state : τ} (h : Inv state s) : (Process.loop state round).Always A J post s := by
  -- The loop is either between two rounds, or in a round, or at its end.
  let next : τ ⊕ α → Process I α
    | .inl state' => .loop state' round
    | .inr value => .done value
  refine of_kept (fun p s' => (∃ state, p = .loop state round ∧ Inv state s') ∨
    (∃ running : Process I (τ ⊕ α), p = running.andThen next ∧ running.Always A J (fun
      | .inl state', s' => Inv state' s'
      | .inr value, s' => post value s') s') ∨
    ∃ value, p = .done value ∧ J s' ∧ post value s') ?_ ?_ (.inl ⟨state, rfl, h⟩)
  · rintro _ s' (⟨state, rfl, h⟩ | ⟨running, rfl, H⟩ | ⟨value, rfl, hs, h⟩)
    · exact ⟨hJ state s' h, nofun⟩
    · exact ⟨H.now.1, nofun⟩
    · exact (done (A := A) hs h).now
  · rintro _ s' p' s'' (⟨state, rfl, h⟩ | ⟨running, rfl, H⟩ | ⟨value, rfl, -⟩) hstep
    · obtain ⟨rfl, rfl⟩ := hstep
      refine .inr (.inl ⟨_, congrArg _ (funext fun result => ?_), hround state _ h⟩)
      cases result with
      | inl state' => rfl
      | inr value => rfl
    · rcases hstep with ⟨running', hstep, rfl⟩ | ⟨value, hvalue, rfl, rfl⟩
      · exact .inr (.inl ⟨running', rfl, H.of_step hstep⟩)
      · cases value with
        | inl state' => exact .inl ⟨state', rfl, H.now.2 _ hvalue⟩
        | inr value => exact .inr (.inr ⟨value, rfl, H.now.1, H.now.2 _ hvalue⟩)
    · exact hstep.elim

/-- What always holds of a process holds when it ends. -/
theorem ends {post' : α → σ → Prop} (H : p.Always A J post s) (H' : p.Ends A post' s) :
    p.Ends A (fun value s' => J s' ∧ post value s' ∧ post' value s') s := by
  induction H' with
  | @done p s value hv hpost => exact .done hv ⟨H.now.1, H.now.2 value hv, hpost⟩
  | step hex _ ih => exact .step hex fun p' s' hstep => ih p' s' hstep (H.of_step hstep)

/-- What always holds does not depend on how queries are marked. -/
theorem askedBy {A : Answering (I.By ι) σ} {i : ι} (H : p.Always (A.of i) J post s) :
    (p.askedBy i).Always A J post s := by
  refine of_kept (fun q s' => ∃ p', q = p'.askedBy i ∧ p'.Always (A.of i) J post s') ?_ ?_
    ⟨p, rfl, H⟩
  · rintro _ s' ⟨p', rfl, H⟩
    exact ⟨H.now.1, fun value hvalue => H.now.2 value (value?_askedBy i p' ▸ hvalue)⟩
  · rintro _ s' _ s'' ⟨p', rfl, H⟩ hstep
    obtain ⟨p'', hstep', rfl⟩ := step_askedBy_iff.mp hstep
    exact ⟨p'', rfl, H.of_step hstep'⟩

end Always

end Process

end ChainIngest
