import ChainIngest.Process

/-! What programs and processes do in surroundings that may answer a query in more than one way.
`Program.Runs` are the complete runs of a program; `Program.Ensures` and `Process.Ends` say that
every run ends, and what holds then. Processes that run at the same time go on in any order, a
query at a time (`Process.Step`). -/

namespace ChainIngest

/-- The answers that a query may be given in a state, each with the state after it. -/
abbrev Answering (I : Interface) (σ : Type) := σ → (q : I.Query) → I.Answer q → σ → Prop

variable {I : Interface} {σ α β τ : Type} {A : Answering I σ}

namespace Program

/-- The complete runs of a program, with the state at the start, and the answer and the state at
the end. -/
inductive Runs (A : Answering I σ) : Program I α → σ → α → σ → Prop
  | pure : Runs A (.pure value) s value s
  | query : A s q answer s' → Runs A (next answer) s' value s'' → Runs A (.query q next) s value s''

/-- A run as it is seen in a part of the state, as long as `J` stays true. -/
theorem Runs.image_of {B : Answering I τ} {J : σ → Prop} {p : Program I α} (view : σ → τ)
    (h : ∀ s q answer s', J s → A s q answer s' → J s' ∧ B (view s) q answer (view s')) (hs : J s)
    (H : p.Runs A s value s') : J s' ∧ p.Runs B (view s) value (view s') := by
  induction H with
  | pure => exact ⟨hs, .pure⟩
  | query ha _ ih =>
    obtain ⟨hs₁, hb⟩ := h _ _ _ _ hs ha
    obtain ⟨hs', hrun⟩ := ih hs₁
    exact ⟨hs', .query hb hrun⟩

theorem Runs.image {B : Answering I τ} {p : Program I α} (view : σ → τ)
    (h : ∀ s q answer s', A s q answer s' → B (view s) q answer (view s'))
    (H : p.Runs A s value s') : p.Runs B (view s) value (view s') :=
  (H.image_of (J := fun _ => True) view (fun s q answer s' _ ha => ⟨trivial, h s q answer s' ha⟩)
    trivial).2

theorem Runs.mono {A' : Answering I σ} {p : Program I α} (H : p.Runs A s value s')
    (h : ∀ s q answer s', A s q answer s' → A' s q answer s') : p.Runs A' s value s' :=
  H.image id h

theorem Runs.bind {p : Program I α} {k : α → Program I β} (H : p.Runs A s value s')
    (H' : (k value).Runs A s' value' s'') : (p >>= k).Runs A s value' s'' := by
  induction H with
  | pure => exact H'
  | query ha _ ih => exact .query ha (ih H')

/-- A run begins with the answer to the first query. -/
theorem Runs.of_query {q : I.Query} {next : I.Answer q → Program I α}
    (H : (Program.query q next).Runs A s value s'') :
    ∃ answer s', A s q answer s' ∧ (next answer).Runs A s' value s'' := by
  cases H with
  | query ha hrun => exact ⟨_, _, ha, hrun⟩

/-- Every run of a program is answered until it ends, and then `post` holds. -/
def Ensures (A : Answering I σ) (post : α → σ → Prop) : Program I α → σ → Prop
  | .pure value, s => post value s
  | .query q next, s =>
    (∃ answer s', A s q answer s') ∧
      ∀ answer s', A s q answer s' → (next answer).Ensures A post s'

namespace Ensures

theorem mono {post post' : α → σ → Prop} {p : Program I α}
    (H : p.Ensures A post s) (h : ∀ value s', post value s' → post' value s') :
    p.Ensures A post' s := by
  induction p generalizing s with
  | pure value => exact h _ _ H
  | query q next ih => exact ⟨H.1, fun answer s' ha => ih answer (H.2 answer s' ha)⟩

theorem bind {p : Program I α} {k : α → Program I β} {post : β → σ → Prop}
    (H : p.Ensures A (fun value s' => (k value).Ensures A post s') s) :
    (p >>= k).Ensures A post s := by
  induction p generalizing s with
  | pure value => exact H
  | query q next ih => exact ⟨H.1, fun answer s' ha => ih answer (H.2 answer s' ha)⟩

theorem of_runs {p : Program I α} {post : α → σ → Prop} (H : p.Ensures A post s)
    (hrun : p.Runs A s value s') : post value s' := by
  induction hrun with
  | pure => exact H
  | query ha _ ih => exact ih (H.2 _ _ ha)

/-- What follows from the end of every run. -/
theorem imp_of_runs {p : Program I α} {post post' : α → σ → Prop} (H : p.Ensures A post s)
    (h : ∀ value s', p.Runs A s value s' → post value s' → post' value s') :
    p.Ensures A post' s := by
  induction p generalizing s with
  | pure value => exact h value s .pure H
  | query q next ih =>
    refine ⟨H.1, fun answer s' ha => ih answer (H.2 answer s' ha) fun value s'' hrun => ?_⟩
    exact h value s'' (.query ha hrun)

/-- What every run ensures, some run does. -/
theorem exists_runs {p : Program I α} {post : α → σ → Prop} (H : p.Ensures A post s) :
    ∃ value s', p.Runs A s value s' ∧ post value s' := by
  induction p generalizing s with
  | pure value => exact ⟨value, s, .pure, H⟩
  | query q next ih =>
    obtain ⟨⟨answer, s₁, ha⟩, hall⟩ := H
    obtain ⟨value, s', hrun, hpost⟩ := ih answer (hall answer s₁ ha)
    exact ⟨value, s', .query ha hrun, hpost⟩

end Ensures

end Program

namespace Process

/-- The answer of a process that has ended. -/
def value? : {α : Type} → Process I α → Option α
  | _, .run (.pure value) => some value
  | _, _ => none

/-- One step of a process: a query is answered, or a part that has ended makes way for the next
one. What is left to do is a process again. -/
def Step (A : Answering I σ) : {α : Type} → Process I α → σ → Process I α → σ → Prop
  | _, .run (.pure _), _, _, _ => False
  | _, .run (.query q next), s, p', s' => ∃ answer, A s q answer s' ∧ p' = .run (next answer)
  | _, .andThen first next, s, p', s' =>
    (∃ first', Step A first s first' s' ∧ p' = .andThen first' next) ∨
      ∃ value, first.value? = some value ∧ p' = next value ∧ s' = s
  | _, .both left right, s, p', s' =>
    (∃ left', Step A left s left' s' ∧ p' = .both left' right) ∨
      (∃ right', Step A right s right' s' ∧ p' = .both left right') ∨
      ∃ a b, left.value? = some a ∧ right.value? = some b ∧ p' = done (a, b) ∧ s' = s
  | _, .untilFailure left right, s, p', s' =>
    (∃ left', Step A left s left' s' ∧ p' = .untilFailure left' right) ∨
      (∃ right', Step A right s right' s' ∧ p' = .untilFailure left right') ∨
      (∃ e, left.value? = some (.error e) ∧ p' = done (.error e) ∧ s' = s) ∨
      (∃ e, right.value? = some (.error e) ∧ p' = done (.error e) ∧ s' = s) ∨
      ∃ a b, left.value? = some (.ok a) ∧ right.value? = some (.ok b) ∧
        p' = done (.ok (a, b)) ∧ s' = s
  | _, .loop state round, s, p', s' =>
    s' = s ∧ p' = .andThen (round state) fun
      | .inl state' => .loop state' round
      | .inr value => done value

/-- However a process goes on, it ends, and then `post` holds. -/
inductive Ends (A : Answering I σ) (post : α → σ → Prop) : Process I α → σ → Prop
  | done {p s value} : p.value? = some value → post value s → Ends A post p s
  | step {p s} : (∃ p' s', Step A p s p' s') → (∀ p' s', Step A p s p' s' → Ends A post p' s') →
      Ends A post p s

theorem value?_eq_some {p : Process I α} (h : p.value? = some value) :
    p = .run (.pure value) := by
  cases p with
  | run program =>
    cases program with
    | pure => simp only [value?, Option.some.injEq] at h; rw [h]
    | query => simp [value?] at h
  | _ => simp [value?] at h

/-- A process that has ended takes no step. -/
theorem not_step_of_value? {p : Process I α} (h : p.value? = some value) :
    ¬Step A p s p' s' := by
  rw [value?_eq_some h]
  exact id

/-- What every answer keeps, every step keeps. -/
theorem step_keeps {J : σ → Prop} (hJ : ∀ s q answer s', J s → A s q answer s' → J s')
    {p p' : Process I α} {s s' : σ} (H : Step A p s p' s') (hs : J s) : J s' := by
  induction p with
  | run p =>
    cases p with
    | pure value => exact H.elim
    | query q next =>
      obtain ⟨answer, hanswer, -⟩ := H
      exact hJ s q answer s' hs hanswer
  | andThen first next ih =>
    rcases H with ⟨first', hstep, -⟩ | ⟨value, -, -, rfl⟩
    · exact ih hstep
    · exact hs
  | both left right ihLeft ihRight =>
    rcases H with ⟨left', hstep, -⟩ | ⟨right', hstep, -⟩ | ⟨a, b, -, -, -, rfl⟩
    · exact ihLeft hstep
    · exact ihRight hstep
    · exact hs
  | untilFailure left right ihLeft ihRight =>
    rcases H with ⟨left', hstep, -⟩ | ⟨right', hstep, -⟩ | ⟨e, -, -, rfl⟩ | ⟨e, -, -, rfl⟩ |
      ⟨a, b, -, -, -, rfl⟩
    · exact ihLeft hstep
    · exact ihRight hstep
    all_goals exact hs
  | loop state round =>
    obtain ⟨rfl, -⟩ := H
    exact hs

namespace Ends

/-- What every answer keeps holds at the end. -/
theorem and_kept {post : α → σ → Prop} {J : σ → Prop} {p : Process I α} (H : Ends A post p s)
    (hJ : ∀ s q answer s', J s → A s q answer s' → J s') (hs : J s) :
    Ends A (fun value s' => post value s' ∧ J s') p s := by
  induction H with
  | done hv hpost => exact .done hv ⟨hpost, hs⟩
  | step hex _ ih => exact .step hex fun p' s' hstep => ih p' s' hstep (step_keeps hJ hstep hs)

theorem mono {post post' : α → σ → Prop} {p : Process I α} (H : Ends A post p s)
    (h : ∀ value s', post value s' → post' value s') : Ends A post' p s := by
  induction H with
  | done hv hpost => exact .done hv (h _ _ hpost)
  | step hex _ ih => exact .step hex ih

/-- A process that ends comes to some end. -/
theorem exists_post {post : α → σ → Prop} {p : Process I α} (H : Ends A post p s) :
    ∃ value s', post value s' := by
  induction H with
  | done _ hpost => exact ⟨_, _, hpost⟩
  | step hex _ ih =>
    obtain ⟨p', s', hstep⟩ := hex
    exact ih p' s' hstep

theorem run {p : Program I α} {post : α → σ → Prop} (H : p.Ensures A post s) :
    Ends A post (.run p) s := by
  induction p generalizing s with
  | pure value => exact .done rfl H
  | query q next ih =>
    obtain ⟨⟨answer, s₁, ha⟩, hall⟩ := H
    refine .step ⟨_, s₁, answer, ha, rfl⟩ ?_
    intro p' s' hstep
    obtain ⟨answer', ha', rfl⟩ := hstep
    exact ih answer' (hall answer' s' ha')

/-- If `goal` holds of a process that takes a step and of which it holds after any step, then it
holds of two processes one after the other if it holds of the second when the first has ended. -/
theorem andThen_of_step {first : Process I α} {next : α → Process I β}
    {goal : Process I β → σ → Prop}
    (hgoal : ∀ p s, (∃ p' s', Step A p s p' s') → (∀ p' s', Step A p s p' s' → goal p' s') →
      goal p s)
    (H : Ends A (fun value s' => goal (next value) s') first s) : goal (first.andThen next) s := by
  induction H with
  | @done p s value hv hpost =>
    refine hgoal _ s ⟨next value, s, .inr ⟨value, hv, rfl, rfl⟩⟩ ?_
    intro p' s' hnext
    rcases hnext with ⟨_, hstep, -⟩ | ⟨value', hv', rfl, rfl⟩
    · exact absurd hstep (not_step_of_value? hv)
    · rw [hv, Option.some.injEq] at hv'
      exact hv' ▸ hpost
  | @step p s hex hall ih =>
    obtain ⟨p₁, s₁, h₁⟩ := hex
    refine hgoal _ s ⟨_, s₁, .inl ⟨p₁, h₁, rfl⟩⟩ ?_
    intro p' s' hnext
    rcases hnext with ⟨first', hstep, rfl⟩ | ⟨value, hv, -, -⟩
    · exact ih first' s' hstep
    · exact absurd h₁ (not_step_of_value? hv)

theorem andThen {first : Process I α} {next : α → Process I β} {post : β → σ → Prop}
    (H : Ends A (fun value s' => Ends A post (next value) s') first s) :
    Ends A post (first.andThen next) s :=
  andThen_of_step (fun _ _ => .step) H

/-- A loop ends if every round keeps an invariant and makes a measure smaller, or ends the loop
as `post` says. -/
theorem loop {round : τ → Process I (τ ⊕ α)} {post : α → σ → Prop}
    (Inv : τ → σ → Prop) (measure : τ → σ → Nat)
    (hround : ∀ state s, Inv state s → Ends A (fun
      | .inl state', s' => Inv state' s' ∧ measure state' s' < measure state s
      | .inr value, s' => post value s') (round state) s)
    {state : τ} (h : Inv state s) : Ends A post (.loop state round) s := by
  -- The induction is on a bound of the measure: the invariant alone carries no progress.
  induction hn : measure state s using Nat.strongRecOn generalizing state s with
  | _ n ih =>
    refine .step ⟨_, s, rfl, rfl⟩ ?_
    intro p' s' hstep
    obtain ⟨rfl, rfl⟩ := hstep
    refine .andThen (mono (hround state _ h) ?_)
    intro result s' hnext
    cases result with
    | inl state' => exact ih _ (hn ▸ hnext.2) hnext.1 rfl
    | inr value => exact .done rfl hnext

end Ends

/-- A process goes on alike in two states in which its queries are answered alike. -/
theorem Step.simulates {B : Answering I τ} {R : σ → τ → Prop} {p p' : Process I α} {s s' : σ}
    {t : τ} (hanswers : ∀ q answer s', A s q answer s' → ∃ t', B t q answer t' ∧ R s' t')
    (hst : R s t) (H : p.Step A s p' s') : ∃ t', p.Step B t p' t' ∧ R s' t' := by
  induction p with
  | run program =>
    cases program with
    | pure value => exact H.elim
    | query q next =>
      obtain ⟨answer, hanswer, rfl⟩ := H
      obtain ⟨t', hanswer', hst'⟩ := hanswers q answer s' hanswer
      exact ⟨t', ⟨answer, hanswer', rfl⟩, hst'⟩
  | andThen first next ih =>
    rcases H with ⟨first', hstep, rfl⟩ | ⟨value, hvalue, rfl, rfl⟩
    · obtain ⟨t', hstep', hst'⟩ := ih hstep
      exact ⟨t', .inl ⟨first', hstep', rfl⟩, hst'⟩
    · exact ⟨t, .inr ⟨value, hvalue, rfl, rfl⟩, hst⟩
  | both left right ihLeft ihRight =>
    rcases H with ⟨left', hstep, rfl⟩ | ⟨right', hstep, rfl⟩ | ⟨a, b, ha, hb, rfl, rfl⟩
    · obtain ⟨t', hstep', hst'⟩ := ihLeft hstep
      exact ⟨t', .inl ⟨left', hstep', rfl⟩, hst'⟩
    · obtain ⟨t', hstep', hst'⟩ := ihRight hstep
      exact ⟨t', .inr (.inl ⟨right', hstep', rfl⟩), hst'⟩
    · exact ⟨t, .inr (.inr ⟨a, b, ha, hb, rfl, rfl⟩), hst⟩
  | untilFailure left right ihLeft ihRight =>
    rcases H with ⟨left', hstep, rfl⟩ | ⟨right', hstep, rfl⟩ | ⟨e, he, rfl, rfl⟩ |
      ⟨e, he, rfl, rfl⟩ | ⟨a, b, ha, hb, rfl, rfl⟩
    · obtain ⟨t', hstep', hst'⟩ := ihLeft hstep
      exact ⟨t', .inl ⟨left', hstep', rfl⟩, hst'⟩
    · obtain ⟨t', hstep', hst'⟩ := ihRight hstep
      exact ⟨t', .inr (.inl ⟨right', hstep', rfl⟩), hst'⟩
    · exact ⟨t, .inr (.inr (.inl ⟨e, he, rfl, rfl⟩)), hst⟩
    · exact ⟨t, .inr (.inr (.inr (.inl ⟨e, he, rfl, rfl⟩))), hst⟩
    · exact ⟨t, .inr (.inr (.inr (.inr ⟨a, b, ha, hb, rfl, rfl⟩))), hst⟩
  | loop state round =>
    obtain ⟨rfl, rfl⟩ := H
    exact ⟨t, ⟨rfl, rfl⟩, hst⟩

/-- What is noted down beside a state has no part in how queries are answered. -/
structure Views (B : Answering I τ) (A : Answering I σ) (view : τ → σ) : Prop where
  answers : ∀ {t q answer t'}, B t q answer t' → A (view t) q answer (view t')
  noted : ∀ {t q answer s'}, A (view t) q answer s' → ∃ t', B t q answer t' ∧ s' = view t'

/-- A process that ends when something is noted down beside the state ends without the notes. -/
theorem Ends.of_views {B : Answering I τ} {view : τ → σ} {post : α → τ → Prop} {p : Process I α}
    {t : τ} (H : Ends B post p t) (hview : Views B A view) :
    Ends A (fun value s => ∃ t, post value t ∧ s = view t) p (view t) := by
  induction H with
  | @done p t value hv hpost => exact .done hv ⟨t, hpost, rfl⟩
  | @step p t hex _ ih =>
    obtain ⟨p', t', hstep⟩ := hex
    obtain ⟨s', hviewed, -⟩ := hstep.simulates (R := fun t' s' => s' = view t')
      (fun q answer t' hanswer => ⟨view t', hview.answers hanswer, rfl⟩) rfl
    refine .step ⟨p', s', hviewed⟩ fun p'' s'' hnext => ?_
    obtain ⟨t'', hnoted, rfl⟩ := hnext.simulates (R := fun s' t' => s' = view t')
      (fun q answer s' hanswer => hview.noted hanswer) rfl
    exact ih p'' t'' hnoted

end Process

end ChainIngest
