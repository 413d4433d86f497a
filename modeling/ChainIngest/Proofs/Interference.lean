import Mathlib.Logic.Relation
import ChainIngest.Proofs.Surroundings

/-! Programs that run beside others. A `Pact` says how queries are answered, what a program may rely
on while others go on between its queries, and what it owes them at each query of its own.
`Program.Abides` says that a program keeps its side and what holds when it has ended. -/

namespace ChainIngest

/-- How a program and those that run beside it get along. -/
structure Pact (I : Interface) (σ : Type) where
  answers : Answering I σ
  /-- What others may do between two queries. -/
  rely : σ → σ → Prop
  /-- What others may count on at every query. -/
  guar : σ → (q : I.Query) → I.Answer q → σ → Prop
  /-- No query may be left without an answer. -/
  live : Prop
  rely_refl : ∀ s, rely s s
  rely_trans : rely s₁ s₂ → rely s₂ s₃ → rely s₁ s₃

variable {I : Interface} {σ α β : Type}

namespace Pact

variable {P : Pact I σ}

/-- Others leave `K` true. -/
def Stable (P : Pact I σ) (K : σ → Prop) : Prop := ∀ {s s'}, K s → P.rely s s' → K s'

/-- A query is answered after others have gone on. -/
def among (P : Pact I σ) : Answering I σ := fun s q answer s' =>
  ∃ s₁, P.rely s s₁ ∧ P.answers s₁ q answer s'

/-- The queries in `Q` keep the pact, and leave `K` true. -/
structure Allows (P : Pact I σ) (Q : I.Query → Prop) (K : σ → Prop) : Prop where
  stable : P.Stable K
  answered : ∀ {s q}, Q q → K s → P.live → ∃ answer s', P.answers s q answer s'
  keeps : ∀ {s q answer s'}, Q q → K s → P.answers s q answer s' → P.guar s q answer s' ∧ K s'

theorem Allows.mono {Q Q' : I.Query → Prop} {K : σ → Prop} (H : P.Allows Q K)
    (h : ∀ q, Q' q → Q q) : P.Allows Q' K :=
  ⟨H.stable, fun hq => H.answered (h _ hq), fun hq => H.keeps (h _ hq)⟩

theorem Allows.and_fixed {Q : I.Query → Prop} {K : σ → Prop} {fixed : Prop} (H : P.Allows Q K) :
    P.Allows Q fun s => fixed ∧ K s where
  stable h hrely := ⟨h.1, H.stable h.2 hrely⟩
  answered hq h := H.answered hq h.2
  keeps hq h hanswer := by
    obtain ⟨hguar, hK⟩ := H.keeps hq h.2 hanswer
    exact ⟨hguar, h.1, hK⟩

end Pact

namespace Program

variable {P : Pact I σ} {post post' : α → σ → Prop} {Q : I.Query → Prop}

/-- A program keeps a pact, whatever others do, and `post` holds when it ends. -/
def Abides (P : Pact I σ) (post : α → σ → Prop) : Program I α → σ → Prop
  | .pure value, s => post value s
  | .query q next, s => ∀ s₁, P.rely s s₁ →
    (P.live → ∃ answer s', P.answers s₁ q answer s') ∧
      ∀ answer s', P.answers s₁ q answer s' →
        P.guar s₁ q answer s' ∧ (next answer).Abides P post s'

namespace Abides

/-- What follows from the end of every run. -/
theorem imp_of_runs {p : Program I α} (H : p.Abides P post s)
    (h : ∀ value s', p.Runs P.among s value s' → post value s' → post' value s') :
    p.Abides P post' s := by
  induction p generalizing s with
  | pure value => exact h value s .pure H
  | query q next ih =>
    intro s₁ hrely
    obtain ⟨hlive, hall⟩ := H s₁ hrely
    refine ⟨hlive, fun answer s' hanswer => ?_⟩
    obtain ⟨hguar, hnext⟩ := hall answer s' hanswer
    refine ⟨hguar, ih answer hnext fun value s'' hrun => ?_⟩
    exact h value s'' (.query ⟨s₁, hrely, hanswer⟩ hrun)

theorem mono {p : Program I α} (H : p.Abides P post s)
    (h : ∀ value s', post value s' → post' value s') : p.Abides P post' s :=
  H.imp_of_runs fun value s' _ => h value s'

/-- What others do does not keep a program from keeping its pact. -/
theorem shift {p : Program I α} (stable : ∀ value, P.Stable (post value))
    (H : p.Abides P post s) (hrely : P.rely s s') : p.Abides P post s' := by
  cases p with
  | pure value => exact stable value H hrely
  | query q next => exact fun s₁ hrely' => H s₁ (P.rely_trans hrely hrely')

theorem bind {p : Program I α} {k : α → Program I β} {post : β → σ → Prop}
    (H : p.Abides P (fun value s' => (k value).Abides P post s') s) :
    (p >>= k).Abides P post s := by
  induction p generalizing s with
  | pure value => exact H
  | query q next ih =>
    intro s₁ hrely
    obtain ⟨hlive, hall⟩ := H s₁ hrely
    refine ⟨hlive, fun answer s' hanswer => ?_⟩
    obtain ⟨hguar, hnext⟩ := hall answer s' hanswer
    exact ⟨hguar, ih answer hnext⟩

theorem of_runs {p : Program I α} (H : p.Abides P post s) (hrun : p.Runs P.among s value s') :
    post value s' := by
  induction hrun with
  | pure => exact H
  | query hanswer _ ih =>
    obtain ⟨s₁, hrely, hanswer⟩ := hanswer
    exact ih ((H s₁ hrely).2 _ _ hanswer).2

theorem and_of_runs {p : Program I α} (H : p.Abides P post s)
    (h : ∀ value s', p.Runs P.among s value s' → post' value s') :
    p.Abides P (fun value s' => post value s' ∧ post' value s') s :=
  H.imp_of_runs fun value s' hrun hpost => ⟨hpost, h value s' hrun⟩

/-- What keeps a pact ends, if no query is left without an answer. -/
theorem ensures {p : Program I α} (H : p.Abides P post s) (hlive : P.live) :
    p.Ensures P.among post s := by
  induction p generalizing s with
  | pure value => exact H
  | query q next ih =>
    obtain ⟨answer, s', hanswer⟩ := (H s (P.rely_refl s)).1 hlive
    refine ⟨⟨answer, s', s, P.rely_refl s, hanswer⟩, ?_⟩
    rintro answer s' ⟨s₁, hrely, hanswer⟩
    exact ih answer ((H s₁ hrely).2 answer s' hanswer).2

/-- If no query is left without an answer then some run ends. -/
theorem exists_runs {p : Program I α} (H : p.Abides P post s) (hlive : P.live) :
    ∃ value s', p.Runs P.among s value s' ∧ post value s' :=
  (H.ensures hlive).exists_runs

theorem and {p : Program I α} (H : p.Abides P post s) (H' : p.Abides P post' s) :
    p.Abides P (fun value s' => post value s' ∧ post' value s') s :=
  H.and_of_runs fun _ _ hrun => H'.of_runs hrun

/-- A program that keeps a pact keeps one of which more is noted down. -/
theorem of_view {τ : Type} {B : Pact I τ} {view : τ → σ} {p : Program I α} {t : τ}
    (hview : Process.Views B.answers P.answers view)
    (hrely : ∀ {t t'}, B.rely t t' → P.rely (view t) (view t'))
    (hguar : ∀ {t q answer t'}, B.answers t q answer t' → P.guar (view t) q answer (view t') →
      B.guar t q answer t') (hlive : B.live → P.live) (H : p.Abides P post (view t)) :
    p.Abides B (fun value t' => post value (view t')) t := by
  induction p generalizing t with
  | pure value => exact H
  | query q next ih =>
    intro t₁ hothers
    obtain ⟨hanswered, hall⟩ := H (view t₁) (hrely hothers)
    refine ⟨fun h => ?_, fun answer t' hanswer => ?_⟩
    · obtain ⟨answer, s', hanswer⟩ := hanswered (hlive h)
      obtain ⟨t', hnoted, -⟩ := hview.noted hanswer
      exact ⟨answer, t', hnoted⟩
    · obtain ⟨hkept, hnext⟩ := hall answer (view t') (hview.answers hanswer)
      exact ⟨hguar hanswer hkept, ih answer hnext⟩

/-- One query, from a state of which others leave `K` true. -/
theorem ask {q : I.Query} {post : I.Answer q → σ → Prop} {K : σ → Prop} (stable : P.Stable K)
    (hs : K s) (answered : ∀ s, K s → P.live → ∃ answer s', P.answers s q answer s')
    (h : ∀ s answer s', K s → P.answers s q answer s' → P.guar s q answer s' ∧ post answer s') :
    (Program.ask q).Abides P post s := by
  intro s₁ hrely
  have hK : K s₁ := stable hs hrely
  exact ⟨answered s₁ hK, fun answer s' hanswer => h s₁ answer s' hK hanswer⟩

/-- A query that leaves `K` true, and what goes on from there. -/
theorem andThen {q : I.Query} {next : I.Answer q → Program I α} {K : σ → Prop}
    (hQ : P.Allows Q K) (hq : Q q) (hs : K s)
    (h : ∀ s₁ answer s', K s₁ → P.answers s₁ q answer s' → K s' →
      (next answer).Abides P post s') : (Program.query q next).Abides P post s := by
  intro s₁ hrely
  have hK : K s₁ := hQ.stable hs hrely
  refine ⟨hQ.answered hq hK, fun answer s' hanswer => ?_⟩
  obtain ⟨hguar, hK'⟩ := hQ.keeps hq hK hanswer
  exact ⟨hguar, h s₁ answer s' hK hanswer hK'⟩

theorem query {q : I.Query} {K : σ → Prop} (hQ : P.Allows Q K) (hq : Q q) (hs : K s) :
    (Program.ask q).Abides P (fun answer s' => ∃ s₁, K s₁ ∧ P.answers s₁ q answer s' ∧ K s') s :=
  andThen hQ hq hs fun s₁ _ _ hK hanswer hK' => ⟨s₁, hK, hanswer, hK'⟩

end Abides

/-- Every query that a program asks, whatever it has been answered before, is in `Q`. -/
def Asks (Q : I.Query → Prop) : Program I α → Prop
  | .pure _ => True
  | .query q next => Q q ∧ ∀ answer, (next answer).Asks Q

namespace Asks

theorem mono {Q' : I.Query → Prop} {p : Program I α} (H : p.Asks Q) (h : ∀ q, Q q → Q' q) :
    p.Asks Q' := by
  induction p with
  | pure => exact H
  | query q next ih => exact ⟨h q H.1, fun answer => ih answer (H.2 answer)⟩

theorem bind {p : Program I α} {k : α → Program I β} (H : p.Asks Q)
    (h : ∀ value, (k value).Asks Q) : (p >>= k).Asks Q := by
  induction p with
  | pure value => exact h value
  | query q next ih => exact ⟨H.1, fun answer => ih answer (H.2 answer)⟩

/-- A program ends if all that it asks is answered. -/
theorem ensures {A : Answering I σ} {p : Program I α} (H : p.Asks Q)
    (answered : ∀ s q, Q q → ∃ answer s', A s q answer s') : p.Ensures A (fun _ _ => True) s := by
  induction p generalizing s with
  | pure => exact trivial
  | query q next ih => exact ⟨answered s q H.1, fun answer s' _ => ih answer (H.2 answer)⟩

/-- A program that asks what leaves `K` true leaves `K` true. -/
theorem abides {p : Program I α} {K : σ → Prop} (H : p.Asks Q) (hQ : P.Allows Q K) (hs : K s) :
    p.Abides P (fun _ => K) s := by
  induction p generalizing s with
  | pure => exact hs
  | query q next ih =>
    exact .andThen hQ H.1 hs fun _ answer _ _ _ hs' => ih answer (H.2 answer) hs'

end Asks

end Program

/-! ### Pacts of engines -/

/-- A query is answered, or it is a call and fails, without effect. -/
def Surroundings.Responds (w : Surroundings) (q : Engine.Query) (answer : Engine.Answer q)
    (w' : Surroundings) : Prop :=
  w.Answers q answer w' ∨ w' = w ∧ ∃ fault, Engine.failure? q fault = some answer

/-- Surroundings that may only fail now and then are surroundings that respond. -/
theorem Conduct.Answers.responds {C : Conduct} (H : C.Answers w q answer w') :
    ∃ w₁, C.drift w w₁ ∧ w₁.Responds q answer w' := by
  obtain ⟨w₁, hdrift, hanswer⟩ := H
  refine ⟨w₁, hdrift, ?_⟩
  rcases hanswer with hanswer | ⟨-, heq, hfault⟩
  · exact .inl hanswer
  · exact .inr ⟨heq, hfault⟩

/-- A part of the state are surroundings, and these respond. If no query may be left without an
answer then each that the surroundings answer is answered. -/
structure Pact.Over (P : Pact Engine σ) (world : σ → Surroundings) : Prop where
  responds : P.answers s q answer s' → (world s).Responds q answer (world s')
  answered : P.live → (world s).Answers q answer w' → ∃ answer s', P.answers s q answer s'

/-- Running a program while a guard is held: others leave true what holds before, and what holds
when the program has ended. -/
theorem Program.Abides.guarded {P : Pact Engine σ} {guard : Guard} {p : Program Engine α}
    {K : σ → Prop} {post : α → σ → Prop} (mid : α → σ → Prop) (stable : P.Stable K) (hs : K s)
    (answered : ∀ s, K s → P.live → ∃ s', P.answers s (.acquire guard) () s')
    (body : ∀ s s', K s → P.answers s (.acquire guard) () s' →
      P.guar s (.acquire guard) () s' ∧ p.Abides P mid s')
    (stableMid : ∀ value, P.Stable (mid value))
    (answeredMid : ∀ value s, mid value s → P.live → ∃ s', P.answers s (.release guard) () s')
    (release : ∀ value s s', mid value s → P.answers s (.release guard) () s' →
      P.guar s (.release guard) () s' ∧ post value s') :
    (Engine.guarded guard p).Abides P post s := by
  apply Program.Abides.bind
  apply Program.Abides.ask stable hs
  case answered => exact fun s hK hlive => ⟨(), answered s hK hlive⟩
  intro s _ s' hK hacquired
  obtain ⟨hguar, hbody⟩ := body s s' hK hacquired
  refine ⟨hguar, .bind (hbody.mono ?_)⟩
  intro value s hmid
  apply Program.Abides.bind
  apply Program.Abides.ask (stableMid value) hmid
  case answered => exact fun s hmid hlive => ⟨(), answeredMid value s hmid hlive⟩
  exact fun s _ s' hmid hreleased => release value s s' hmid hreleased

/-- The pact of a part of an engine under a conduct. Any call may fail. -/
def Conduct.pact (C : Conduct) : Pact Engine Surroundings where
  answers := Surroundings.Responds
  rely := Relation.ReflTransGen C.drift
  guar _ _ _ _ := True
  live := False
  rely_refl _ := .refl
  rely_trans := .trans

namespace Conduct

variable {C : Conduct} {K : Surroundings → Prop}

theorem stable_pact (h : C.Keeps K) : C.pact.Stable K := by
  intro w w' hK hrely
  induction hrely with
  | refl => exact hK
  | tail _ hdrift ih => exact h ih hdrift

theorem pact_over (C : Conduct) : C.pact.Over id where
  responds h := h
  answered h _ := h.elim

theorem allows_pact {Q : Engine.Query → Prop} (h : C.Keeps K)
    (keeps : ∀ {w q answer w'}, Q q → K w → w.Responds q answer w' → K w') :
    C.pact.Allows Q K where
  stable := stable_pact h
  answered _ _ hlive := hlive.elim
  keeps hq hK hanswer := ⟨trivial, keeps hq hK hanswer⟩

/-- What a program ensures under the pact holds after every run under the conduct. -/
theorem of_runs {p : Program Engine α} {post : α → Surroundings → Prop}
    (H : p.Abides C.pact post w) (hrun : p.Runs C.Answers w value w') : post value w' := by
  refine H.of_runs (hrun.mono ?_)
  intro w q answer w' hanswer
  obtain ⟨w₁, hdrift, hresponds⟩ := hanswer.responds
  exact ⟨w₁, .single hdrift, hresponds⟩

end Conduct

/-- An action keeps a pact; if it succeeds then `post` holds, and if not then `fail`. -/
def Action.Abides (P : Pact Engine σ) (post : α → σ → Prop) (fail : Fault → σ → Prop)
    (a : Action α) (s : σ) : Prop :=
  Program.Abides P (fun
    | .ok value => post value
    | .error fault => fail fault) a.run s

namespace Action.Abides

variable {P : Pact Engine σ} {K : σ → Prop} {post : α → σ → Prop} {fail : Fault → σ → Prop}

/-- An action as the program that it is. -/
theorem of_results {a : Action α} {post : Except Fault α → σ → Prop}
    (H : a.Abides P (fun value => post (.ok value)) (fun fault => post (.error fault)) s) :
    Program.Abides P post a.run s := by
  refine Program.Abides.mono H ?_
  intro result s' h
  cases result with
  | error fault => exact h
  | ok value => exact h

theorem pure (h : post value s) : Action.Abides P post fail (Pure.pure value) s := h

theorem throw (h : fail fault s) : Action.Abides P post fail (MonadExcept.throw fault) s := h

theorem bind {a : Action β} {k : β → Action α}
    (H : a.Abides P (fun value s' => (k value).Abides P post fail s') fail s) :
    (a >>= k).Abides P post fail s := by
  refine Program.Abides.bind (Program.Abides.mono H ?_)
  intro result s' h
  cases result with
  | error fault => exact h
  | ok value => exact h

theorem mono {post' : α → σ → Prop} {fail' : Fault → σ → Prop} {a : Action α}
    (H : a.Abides P post fail s) (hpost : ∀ value s', post value s' → post' value s')
    (hfail : ∀ fault s', fail fault s' → fail' fault s') : a.Abides P post' fail' s := by
  refine Program.Abides.mono H ?_
  intro result s' h
  cases result with
  | error fault => exact hfail fault s' h
  | ok value => exact hpost value s' h

/-- A program that cannot stop with a fault, as an action. -/
theorem lift {p : Program Engine α} (H : p.Abides P post s) :
    Action.Abides P post fail (liftM p) s :=
  Program.Abides.bind (Program.Abides.mono H fun _ _ h => h)

theorem of_asks {a : Action α} {Q : Engine.Query → Prop} (H : a.run.Asks Q) (hQ : P.Allows Q K)
    (hs : K s) : a.Abides P (fun _ => K) (fun _ => K) s := by
  refine (H.abides hQ hs).mono ?_
  intro result s' hK
  cases result with
  | error fault => exact hK
  | ok value => exact hK

/-- An action that is a program whose result is known. -/
theorem of_program {p : Program Engine (Except Fault α)} {mid : Except Fault α → σ → Prop}
    (H : p.Abides P mid s) (ok : ∀ value s', mid (.ok value) s' → post value s')
    (fails : ∀ fault s', mid (.error fault) s' → fail fault s') :
    Action.Abides P post fail p s := by
  refine Program.Abides.mono H ?_
  intro result s' h
  cases result with
  | error fault => exact fails fault s' h
  | ok value => exact ok value s' h

/-- What an action does in several respects, each shown on its own. -/
theorem and_forall {more : ι → α → σ → Prop} {a : Action α} (H : a.Abides P post fail s)
    (h : ∀ i, a.Abides P (more i) (fun _ _ => True) s) :
    a.Abides P (fun value s' => post value s' ∧ ∀ i, more i value s') fail s := by
  have hboth := Program.Abides.and_of_runs H fun result s' hrun i =>
    Program.Abides.of_runs (h i) hrun
  refine of_program hboth ?_ ?_
  · exact fun value s' h => h
  · exact fun fault s' h => h.1

theorem tell {post : Unit → σ → Prop} {Q : Engine.Query → Prop} (hQ : P.Allows Q K)
    (hq : Q (.tell notice)) (hs : K s) (h : ∀ s', K s' → post () s') :
    Action.Abides P post fail (liftM (Engine.tell notice)) s := by
  refine lift ((Program.Abides.query hQ hq hs).mono ?_)
  intro _ s' hanswered
  obtain ⟨_, -, -, hK⟩ := hanswered
  exact h s' hK

end Action.Abides

-- From here on actions are taken apart by the rules alone, as those that are run alone are.
attribute [irreducible] Action.Abides

end ChainIngest
