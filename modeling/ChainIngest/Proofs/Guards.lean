import ChainIngest.Proofs.Interference

/-! Guards at work. Each part of an engine leaves alone what the guards protect that it does not
hold; since no two parts hold the same guard, a part may count on what its own guards protect.
`Process.Safe` says that a process keeps to this from some moment on, and is itself kept by every
step of the process. -/

namespace ChainIngest

/-- What it means for a change to leave alone what some guards protect. -/
structure Discipline where
  keeps : (Guard → Prop) → Surroundings → Surroundings → Prop
  refl : keeps guards w w
  trans : keeps guards w₁ w₂ → keeps guards w₂ w₃ → keeps guards w₁ w₃
  mono : (∀ g, fewer g → guards g) → keeps guards w w' → keeps fewer w w'
  /-- Taking a guard or giving one back changes nothing that is protected. -/
  withGuard : ∀ {guard : Guard} {isHeld : Bool}, keeps guards w (w.withGuard guard isHeld)

/-- The guard that a program holds after a query, by the one that it has held before. -/
def heldAfter (own : Option Guard) : (q : Engine.Query) → Engine.Answer q → Option Guard
  | .acquire guard, _ => some guard
  | .tryAcquire guard, taken => if taken then some guard else own
  | .release _, _ => none
  | _, _ => own

/-- A program takes a guard only if it holds none, and gives back none but the one that it holds. -/
def MindsGuards (own : Option Guard) : Engine.Query → Prop
  | .acquire _ | .tryAcquire _ => own = none
  | .release guard => own = some guard
  | _ => True

/-- A query that neither takes a guard nor gives one back. -/
def Unguarded (q : Engine.Query) : Prop :=
  ∀ own, MindsGuards own q ∧ ∀ answer, heldAfter own q answer = own

/-- What is held after a query: the program's own guard, which it has held before or nobody has, and
what others have held. -/
theorem heldAfter_held {w w' : Surroundings} {q : Engine.Query} {answer : Engine.Answer q}
    (hanswer : w.Responds q answer w') (hminds : MindsGuards own q)
    (hown : ∀ g, own = some g → w.held g = true) :
    (∀ g, heldAfter own q answer = some g →
      w'.held g = true ∧ (own = some g ∨ w.held g = false)) ∧
    ∀ g, own ≠ some g → w.held g = true → w'.held g = true := by
  have hother (hsame : w'.held = w.held) (hafter : heldAfter own q answer = own) :
      (∀ g, heldAfter own q answer = some g →
        w'.held g = true ∧ (own = some g ∨ w.held g = false)) ∧
      ∀ g, own ≠ some g → w.held g = true → w'.held g = true := by
    rw [hsame, hafter]
    exact ⟨fun g h => ⟨hown g h, .inl h⟩, fun _ _ h => h⟩
  cases q with
  | acquire guard =>
    rcases hanswer with ⟨hfree, rfl⟩ | ⟨-, fault, hfault⟩
    · refine ⟨fun g h => ?_, fun g _ h => ?_⟩
      · obtain rfl := Option.some.inj h
        exact ⟨Function.update_self .., .inr hfree⟩
      · by_cases hg : g = guard
        · rw [hg] at h
          exact absurd (hfree.symm.trans h) Bool.false_ne_true
        · exact (Function.update_of_ne hg ..).trans h
    · cases hfault
  | tryAcquire guard =>
    rcases hanswer with ⟨htaken, rfl⟩ | ⟨-, fault, hfault⟩
    · refine ⟨fun g h => ?_, fun g _ h => ?_⟩
      · cases hfree : w.held guard with
        | true =>
          -- Somebody has it, so the program goes on holding none.
          rw [hfree] at htaken
          subst htaken
          rw [show own = none from hminds] at h
          cases h
        | false =>
          rw [hfree] at htaken
          subst htaken
          obtain rfl := Option.some.inj h
          exact ⟨Function.update_self .., .inr hfree⟩
      · by_cases hg : g = guard
        · exact hg ▸ Function.update_self ..
        · exact (Function.update_of_ne hg ..).trans h
    · cases hfault
  | release guard =>
    rcases hanswer with hafter | ⟨-, fault, hfault⟩
    · obtain rfl : w' = w.withGuard guard false := hafter
      refine ⟨nofun, fun g hne h => ?_⟩
      have hg : g ≠ guard := fun hg => hne (hg ▸ hminds)
      exact (Function.update_of_ne hg ..).trans h
    · cases hfault
  | subscribe | nextHeader | now | pause | waitUntil | tell =>
    have heq : w' = w := hanswer.elim id And.left
    exact hother (heq ▸ rfl) rfl
  | _ =>
    rcases hanswer with ⟨-, rfl⟩ | ⟨rfl, -⟩
    · exact hother rfl rfl
    · exact hother rfl rfl

/-- What is held after a query is the program's own guard, or one that others have held before. -/
theorem heldAfter_or_held {w w' : Surroundings} {q : Engine.Query} {answer : Engine.Answer q}
    (hanswer : w.Responds q answer w') (hminds : MindsGuards own q) (hheld : w'.held g = true) :
    heldAfter own q answer = some g ∨ own ≠ some g ∧ w.held g = true := by
  have hidle (hsame : w'.held = w.held) (hafter : heldAfter own q answer = own) :
      heldAfter own q answer = some g ∨ own ≠ some g ∧ w.held g = true := by
    rw [hafter]
    by_cases hown : own = some g
    · exact .inl hown
    · exact .inr ⟨hown, hsame ▸ hheld⟩
  have hother {guard : Guard} {isHeld : Bool} (hg : g ≠ guard)
      (hafter : w' = w.withGuard guard isHeld) : w.held g = true := by
    subst hafter
    exact (Function.update_of_ne hg ..).symm.trans hheld
  cases q with
  | acquire guard =>
    obtain rfl : own = none := hminds
    rcases hanswer with ⟨-, hafter⟩ | ⟨-, fault, hfault⟩
    · by_cases hg : g = guard
      · exact .inl (congrArg some hg.symm)
      · exact .inr ⟨nofun, hother hg hafter⟩
    · cases hfault
  | tryAcquire guard =>
    obtain rfl : own = none := hminds
    rcases hanswer with ⟨htaken, hafter⟩ | ⟨-, fault, hfault⟩
    · by_cases hg : g = guard
      · subst hg htaken
        cases hbefore : w.held g with
        | true => exact .inr ⟨nofun, rfl⟩
        | false => exact .inl rfl
      · exact .inr ⟨nofun, hother hg hafter⟩
    · cases hfault
  | release guard =>
    obtain rfl : own = some guard := hminds
    rcases hanswer with hafter | ⟨-, fault, hfault⟩
    · by_cases hg : g = guard
      · subst hg
        rw [show w' = w.withGuard g false from hafter] at hheld
        exact absurd ((Function.update_self ..).symm.trans hheld) Bool.false_ne_true
      · exact .inr ⟨fun h => hg (Option.some.inj h).symm, hother hg hafter⟩
    · cases hfault
  | subscribe | nextHeader | now | pause | waitUntil | tell =>
    have heq : w' = w := hanswer.elim id And.left
    exact hidle (heq ▸ rfl) rfl
  | _ =>
    rcases hanswer with ⟨-, rfl⟩ | ⟨rfl, -⟩
    · exact hidle rfl rfl
    · exact hidle rfl rfl

namespace Discipline

variable {D : Discipline}

/-- The pact of a program that keeps to a discipline; its state is the guard that it holds. -/
def pact (D : Discipline) : Pact Engine (Surroundings × Option Guard) where
  answers s q answer s' := s.1.Responds q answer s'.1 ∧ s'.2 = heldAfter s.2 q answer
  rely s s' := D.keeps (s.2 = some ·) s.1 s'.1 ∧ s'.2 = s.2
  guar s q _ s' := D.keeps (s.2 ≠ some ·) s.1 s'.1 ∧ MindsGuards s.2 q
  live := False
  rely_refl _ := ⟨D.refl, rfl⟩
  rely_trans h h' := ⟨D.trans h.1 (h.2 ▸ h'.1), h'.2.trans h.2⟩

theorem pact_over : D.pact.Over Prod.fst where
  responds h := h.1
  answered h _ := h.elim

/-- A program that keeps to a discipline and holds nothing when it ends. -/
def Minds (D : Discipline) (p : Program Engine α) (own : Option Guard) (w : Surroundings) : Prop :=
  p.Abides D.pact (fun _ s => s.2 = none) (w, own)

theorem Minds.shift {p : Program Engine α} (H : D.Minds p own w)
    (h : D.keeps (own = some ·) w w') : D.Minds p own w' :=
  Program.Abides.shift (fun _ _ _ hnone hrely => hrely.2.trans hnone) H ⟨h, rfl⟩

theorem holding_stable (own : Option Guard) : D.pact.Stable (·.2 = own) := by
  intro s s' h hrely
  exact hrely.2.trans h

/-- A program that is run while a guard is held. -/
theorem Minds.guarded {guard : Guard} {p : Program Engine α}
    (H : ∀ s, s.2 = some guard → p.Abides D.pact (fun _ s' => s'.2 = some guard) s)
    (w : Surroundings) : D.Minds (Engine.guarded guard p) none w := by
  refine Program.Abides.guarded (fun _ s => s.2 = some guard) (holding_stable none) rfl
    ?answered ?body (fun _ => holding_stable _) ?answeredMid ?release
  case answered => exact fun _ _ hlive => hlive.elim
  case answeredMid => exact fun _ _ _ hlive => hlive.elim
  case body =>
    intro s s' hnone hacquired
    obtain ⟨hresponds, hown⟩ := hacquired
    refine ⟨⟨?_, hnone⟩, H s' hown⟩
    rcases hresponds with ⟨-, hafter⟩ | ⟨hsame, -⟩
    · exact hafter ▸ D.withGuard
    · exact hsame ▸ D.refl
  case release =>
    intro _ s s' hown hreleased
    obtain ⟨hresponds, hnone⟩ := hreleased
    refine ⟨⟨?_, hown⟩, hnone⟩
    rcases hresponds with hafter | ⟨hsame, -⟩
    · exact (show s'.1 = s.1.withGuard guard false from hafter) ▸ D.withGuard
    · exact hsame ▸ D.refl

end Discipline

/-- A step that is made while some guards are held, after which others are: it leaves alone what is
protected by guards that it has not held, and takes none that others hold. -/
structure Discipline.Moves (D : Discipline) (held held' : Guard → Prop) (w w' : Surroundings) :
    Prop where
  keeps : D.keeps (¬held ·) w w'
  holds : ∀ g, held' g → w'.held g = true
  takes : ∀ g, held' g → held g ∨ w.held g = false
  leaves : ∀ g, ¬held g → w.held g = true → w'.held g = true

namespace Discipline.Moves

variable {D : Discipline} {held held' aside : Guard → Prop} {w w' : Surroundings}

/-- Nothing happens, and no guard is held any more. -/
theorem stop : D.Moves held (fun _ => False) w w where
  keeps := D.refl
  holds := nofun
  takes := nofun
  leaves _ _ h := h

end Discipline.Moves

/-- The guards that are held are those of two parts that have none in common. -/
def Beside (left right : (Guard → Prop) → Prop) (held : Guard → Prop) : Prop :=
  ∃ heldLeft heldRight, (∀ g, held g ↔ heldLeft g ∨ heldRight g) ∧
    (∀ g, heldLeft g → ¬heldRight g) ∧ left heldLeft ∧ right heldRight

namespace Beside

variable {D : Discipline} {left left' right right' : (Guard → Prop) → Prop} {held : Guard → Prop}
  {w w' : Surroundings}

theorem comm (H : Beside left right held) : Beside right left held := by
  obtain ⟨heldLeft, heldRight, hparts, hapart, hleft, hright⟩ := H
  exact ⟨heldRight, heldLeft, fun g => (hparts g).trans Or.comm, fun g hr hl => hapart g hl hr,
    hright, hleft⟩

/-- A step of one part, which the other one counts on leaving alone what its guards protect. -/
theorem moves (H : Beside left right held) (hheld : ∀ g, held g → w.held g = true)
    (hleft : ∀ heldLeft, left heldLeft → (∀ g, heldLeft g → w.held g = true) →
      ∃ heldLeft', D.Moves heldLeft heldLeft' w w' ∧ left' heldLeft')
    (hright : ∀ heldRight, right heldRight → D.keeps heldRight w w' → right' heldRight) :
    ∃ held', D.Moves held held' w w' ∧ Beside left' right' held' := by
  obtain ⟨heldLeft, heldRight, hparts, hapart, hl, hr⟩ := H
  have hheldRight : ∀ g, heldRight g → w.held g = true :=
    fun g hg => hheld g ((hparts g).mpr (.inr hg))
  obtain ⟨heldLeft', hmoves, hl'⟩ :=
    hleft heldLeft hl fun g hg => hheld g ((hparts g).mpr (.inl hg))
  have hnot : ∀ g, heldRight g → ¬heldLeft g := fun g hright hleft => hapart g hleft hright
  refine ⟨fun g => heldLeft' g ∨ heldRight g, ⟨?keeps, ?holds, ?takes, ?leaves⟩, heldLeft',
    heldRight, fun _ => .rfl, ?apart, hl', hright heldRight hr (D.mono hnot hmoves.keeps)⟩
  case keeps => exact D.mono (fun g hg h => hg ((hparts g).mpr (.inl h))) hmoves.keeps
  case holds =>
    intro g hg
    rcases hg with hg | hg
    · exact hmoves.holds g hg
    · exact hmoves.leaves g (hnot g hg) (hheldRight g hg)
  case takes =>
    intro g hg
    rcases hg with hg | hg
    · exact (hmoves.takes g hg).imp_left fun h => (hparts g).mpr (.inl h)
    · exact .inl ((hparts g).mpr (.inr hg))
  case leaves => exact fun g hg => hmoves.leaves g fun h => hg ((hparts g).mpr (.inl h))
  case apart =>
    intro g hg haside
    rcases hmoves.takes g hg with h | hfree
    · exact hapart g h haside
    · exact Bool.false_ne_true (hfree.symm.trans (hheldRight g haside))

theorem moves_right (H : Beside left right held) (hheld : ∀ g, held g → w.held g = true)
    (hright : ∀ heldRight, right heldRight → (∀ g, heldRight g → w.held g = true) →
      ∃ heldRight', D.Moves heldRight heldRight' w w' ∧ right' heldRight')
    (hleft : ∀ heldLeft, left heldLeft → D.keeps heldLeft w w' → left' heldLeft) :
    ∃ held', D.Moves held held' w w' ∧ Beside left' right' held' := by
  obtain ⟨held', hmoves, hbeside⟩ := H.comm.moves hheld hright hleft
  exact ⟨held', hmoves, hbeside.comm⟩

end Beside

namespace Process

variable {D : Discipline}

/-- A process that holds some guards keeps to a discipline from now on. -/
def Safe (D : Discipline) : {α : Type} → (Guard → Prop) → Process Engine α → Surroundings → Prop
  | _, held, .run p, w => ∃ own, (∀ g, held g ↔ own = some g) ∧ D.Minds p own w
  | _, held, .andThen first next, w =>
    Safe D held first w ∧ ∀ value w', Safe D (fun _ => False) (next value) w'
  | _, held, .both left right, w | _, held, .untilFailure left right, w =>
    Beside (Safe D · left w) (Safe D · right w) held
  | _, held, .loop _ round, _ =>
    (∀ g, ¬held g) ∧ ∀ state w', Safe D (fun _ => False) (round state) w'

namespace Safe

variable {held : Guard → Prop} {w w' : Surroundings}

theorem done (value : α) : Safe D (fun _ => False) (Process.done (I := Engine) value) w :=
  ⟨none, by simp, rfl⟩

theorem run {p : Program Engine α} (H : D.Minds p none w) : Safe D (fun _ => False) (.run p) w :=
  ⟨none, by simp, H⟩

theorem map {p : Process Engine α} {f : α → β} (H : Safe D held p w) :
    Safe D held (p.map f) w :=
  ⟨H, fun _ _ => done _⟩

theorem all {ps : List (Process Engine α)} (H : ∀ p ∈ ps, ∀ w, Safe D (fun _ => False) p w) :
    Safe D (fun _ => False) (Process.all ps) w := by
  induction ps with
  | nil => exact done []
  | cons p rest ih =>
    apply map
    refine ⟨fun _ => False, fun _ => False, by simp, by simp, H p List.mem_cons_self w, ?_⟩
    exact ih fun p' hp' => H p' (List.mem_cons_of_mem p hp')

/-- A process counts on what the guards protect that it holds. -/
theorem shift {p : Process Engine α} (H : Safe D held p w) (h : D.keeps held w w') :
    Safe D held p w' := by
  induction p generalizing held with
  | run program =>
    obtain ⟨own, hheld, hminds⟩ := H
    exact ⟨own, hheld, hminds.shift (D.mono (fun g hg => (hheld g).mpr hg) h)⟩
  | andThen first next ih => exact ⟨ih H.1 h, H.2⟩
  | both left right ihLeft ihRight | untilFailure left right ihLeft ihRight =>
    obtain ⟨heldLeft, heldRight, hheld, hapart, hleft, hright⟩ := H
    refine ⟨heldLeft, heldRight, hheld, hapart, ihLeft hleft ?_, ihRight hright ?_⟩
    · exact D.mono (fun g hg => (hheld g).mpr (.inl hg)) h
    · exact D.mono (fun g hg => (hheld g).mpr (.inr hg)) h
  | loop state round => exact H

/-- Every step of a process that keeps to a discipline leaves it doing so. -/
theorem step {C : Conduct}
    (hC : ∀ {w w'}, C.drift w w' → D.keeps (fun _ => True) w w' ∧ w'.held = w.held)
    {p p' : Process Engine α} (H : Safe D held p w) (hheld : ∀ g, held g → w.held g = true)
    (hstep : p.Step C.Answers w p' w') : ∃ held', D.Moves held held' w w' ∧ Safe D held' p' w' := by
  induction p generalizing held w w' with
  | run program =>
    cases program with
    | pure value => exact absurd hstep id
    | query q next =>
      obtain ⟨answer, hanswer, rfl⟩ := hstep
      -- Others go on first, and leave everything alone that any guard protects.
      obtain ⟨w₁, hdrift, hresponds⟩ := hanswer.responds
      obtain ⟨own, hown, hminds⟩ := H
      obtain ⟨hkeeps, hsame⟩ := hC hdrift
      obtain ⟨⟨hguar, hguards⟩, hnext⟩ :=
        (hminds (w₁, own) ⟨D.mono (fun _ _ => trivial) hkeeps, rfl⟩).2 answer
          (w', heldAfter own q answer) ⟨hresponds, rfl⟩
      obtain ⟨hafter, hothers⟩ := heldAfter_held hresponds hguards
        fun g hg => hsame ▸ hheld g ((hown g).mpr hg)
      refine ⟨fun g => heldAfter own q answer = some g, ⟨?_, ?_, ?_, ?_⟩, _, fun _ => .rfl, hnext⟩
      · have hmono : ∀ g, ¬held g → own ≠ some g := fun g => mt (hown g).mpr
        exact D.trans (D.mono (fun _ _ => trivial) hkeeps) (D.mono hmono hguar)
      · exact fun g hg => (hafter g hg).1
      · exact fun g hg => ((hafter g hg).2).imp (hown g).mpr fun h => hsame ▸ h
      · exact fun g hg h => hothers g (mt (hown g).mpr hg) (hsame ▸ h)
  | andThen first next ih =>
    rcases hstep with ⟨first', hstep, rfl⟩ | ⟨value, -, rfl, rfl⟩
    · obtain ⟨held', hmoves, hsafe⟩ := ih H.1 hheld hstep
      exact ⟨held', hmoves, hsafe, H.2⟩
    · exact ⟨_, .stop, H.2 value _⟩
  | both left right ihLeft ihRight =>
    rcases hstep with ⟨left', hstep, rfl⟩ | ⟨right', hstep, rfl⟩ | ⟨a, b, -, -, rfl, rfl⟩
    · exact H.moves hheld (fun _ hleft hheldLeft => ihLeft hleft hheldLeft hstep) fun _ => shift
    · exact H.moves_right hheld (fun _ hright hheldRight => ihRight hright hheldRight hstep)
        fun _ => shift
    · exact ⟨_, .stop, done _⟩
  | untilFailure left right ihLeft ihRight =>
    rcases hstep with ⟨left', hstep, rfl⟩ | ⟨right', hstep, rfl⟩ | ⟨e, -, rfl, rfl⟩ |
      ⟨e, -, rfl, rfl⟩ | ⟨a, b, -, -, rfl, rfl⟩
    · exact H.moves hheld (fun _ hleft hheldLeft => ihLeft hleft hheldLeft hstep) fun _ => shift
    · exact H.moves_right hheld (fun _ hright hheldRight => ihRight hright hheldRight hstep)
        fun _ => shift
    · exact ⟨_, .stop, done _⟩
    · exact ⟨_, .stop, done _⟩
    · exact ⟨_, .stop, done _⟩
  | loop state round ih =>
    obtain ⟨rfl, rfl⟩ := hstep
    refine ⟨_, .stop, H.2 state _, fun value w' => ?_⟩
    cases value with
    | inl state' => exact ⟨fun _ => id, H.2⟩
    | inr value => exact done value

end Safe

/-- What a process comes to after some steps. -/
inductive Reaches (A : Answering I σ) (p : Process I α) (s : σ) : Process I α → σ → Prop
  | refl : Reaches A p s p s
  | tail : Reaches A p s p' s' → p'.Step A s' p'' s'' → Reaches A p s p'' s''

namespace Reaches

variable {A : Answering I σ}

theorem trans {p p' p'' : Process I α} (H : p.Reaches A s p' s') (H' : p'.Reaches A s' p'' s'') :
    p.Reaches A s p'' s'' := by
  induction H' with
  | refl => exact H
  | tail _ hstep ih => exact ih.tail hstep

theorem of_runs {p : Program I α} (H : p.Runs A s value s') :
    (Process.run p).Reaches A s (done value) s' := by
  induction H with
  | pure => exact .refl
  | query hanswer _ ih => exact trans (.tail .refl ⟨_, hanswer, rfl⟩) ih

theorem andThen {p p' : Process I α} (H : p.Reaches A s p' s') (next : α → Process I β) :
    (p.andThen next).Reaches A s (p'.andThen next) s' := by
  induction H with
  | refl => exact .refl
  | tail _ hstep ih => exact ih.tail (.inl ⟨_, hstep, rfl⟩)

theorem both {p p' : Process I α} (H : p.Reaches A s p' s') (beside : Process I β) :
    (p.both beside).Reaches A s (p'.both beside) s' := by
  induction H with
  | refl => exact .refl
  | tail _ hstep ih => exact ih.tail (.inl ⟨_, hstep, rfl⟩)

end Reaches

/-- However far a process has come that keeps to a discipline, it goes on doing so. -/
theorem Safe.reaches {C : Conduct} {p p' : Process Engine α}
    (hC : ∀ {w w'}, C.drift w w' → D.keeps (fun _ => True) w w' ∧ w'.held = w.held)
    (H : Safe D held p w) (hheld : ∀ g, held g → w.held g = true)
    (hreaches : p.Reaches C.Answers w p' w') :
    D.keeps (fun _ => False) w w' ∧
      ∃ held', Safe D held' p' w' ∧ ∀ g, held' g → w'.held g = true := by
  induction hreaches with
  | refl => exact ⟨D.refl, held, H, hheld⟩
  | tail _ hstep ih =>
    obtain ⟨hkeeps, held', hsafe, hheld'⟩ := ih
    obtain ⟨held'', hmoves, hsafe'⟩ := hsafe.step hC hheld' hstep
    exact ⟨D.trans hkeeps (D.mono nofun hmoves.keeps), held'', hsafe', hmoves.holds⟩

end Process

end ChainIngest
