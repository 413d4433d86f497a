import Mathlib.Data.List.Forall2
import ChainIngest.Proofs.Interference

/-! Processes that run side by side without one's getting in the other's way: none writes what
another one reads. What each of them comes to is then what it comes to by itself, and they end if
each of them does. -/

namespace ChainIngest

/-- Named parts of a state, each with what it holds. -/
structure Parts (σ : Type) where
  Name : Type
  Content : Name → Type
  content : (x : Name) → σ → Content x

variable {I : Interface} {σ α β τ ι : Type} {W : Parts σ} {s s' s₁ s₂ : σ}

/-- Two states have some parts in common. -/
def Parts.Agree (W : Parts σ) (X : W.Name → Prop) (s s' : σ) : Prop :=
  ∀ x, X x → W.content x s = W.content x s'

namespace Parts.Agree

variable {X Y : W.Name → Prop}

theorem refl (s : σ) : W.Agree X s s := fun _ _ => rfl

theorem symm (H : W.Agree X s s') : W.Agree X s' s := fun x hx => (H x hx).symm

theorem trans (H : W.Agree X s s₁) (H' : W.Agree X s₁ s₂) : W.Agree X s s₂ :=
  fun x hx => (H x hx).trans (H' x hx)

theorem mono (H : W.Agree X s s') (h : ∀ x, Y x → X x) : W.Agree Y s s' :=
  fun x hx => H x (h x hx)

/-- States stay in agreement on what has changed in neither of them. -/
theorem around (H : W.Agree X s₁ s₂) (h₁ : W.Agree X s₁ s) (h₂ : W.Agree X s₂ s') :
    W.Agree X s s' :=
  h₁.symm.trans (H.trans h₂)

/-- States stay in agreement if one part has changed, and to the same in both of them. -/
theorem update (H : W.Agree X s₁ s₂) (h₁ : W.Agree (fun x => X x ∧ x ≠ part) s₁ s)
    (h₂ : W.Agree (fun x => X x ∧ x ≠ part) s₂ s')
    (hpart : X part → W.content part s = W.content part s') : W.Agree X s s' := by
  intro x hx
  by_cases heq : x = part
  · subst heq
    exact hpart hx
  · exact (H.mono fun _ => And.left).around h₁ h₂ x ⟨hx, heq⟩

end Parts.Agree

/-- The parts that a process reads, and those that it may change. -/
structure Footprint (W : Parts σ) where
  reads : W.Name → Prop
  writes : W.Name → Prop

namespace Footprint

/-- One process does not change what the other one reads. -/
def Spares (F F' : Footprint W) : Prop := ∀ x, F.writes x → ¬F'.reads x

/-- Whoever has the footprint `F` has `F'` too. -/
structure Within (F F' : Footprint W) : Prop where
  reads : ∀ x, F.reads x → F'.reads x
  writes : ∀ x, F.writes x → F'.writes x

def join (F F' : Footprint W) : Footprint W where
  reads x := F.reads x ∨ F'.reads x
  writes x := F.writes x ∨ F'.writes x

def all (xs : List ι) (F : ι → Footprint W) : Footprint W where
  reads x := ∃ i ∈ xs, (F i).reads x
  writes x := ∃ i ∈ xs, (F i).writes x

/-- A footprint of what nobody else may interfere with. -/
def watching (F : Footprint W) : Footprint W where
  reads _ := True
  writes := F.writes

variable {F F' F'' : Footprint W} {foot : ι → Footprint W} {xs ys : List ι}

theorem Within.refl : F.Within F := ⟨fun _ => id, fun _ => id⟩

theorem Within.trans (H : F.Within F') (H' : F'.Within F'') : F.Within F'' :=
  ⟨fun x hx => H'.reads x (H.reads x hx), fun x hx => H'.writes x (H.writes x hx)⟩

theorem Within.join_left : F.Within (F.join F') := ⟨fun _ => .inl, fun _ => .inl⟩

theorem Within.join_right : F'.Within (F.join F') := ⟨fun _ => .inr, fun _ => .inr⟩

theorem Within.join (H : F.Within F'') (H' : F'.Within F'') : (F.join F').Within F'' :=
  ⟨fun x hx => hx.elim (H.reads x) (H'.reads x), fun x hx => hx.elim (H.writes x) (H'.writes x)⟩

theorem Within.all_of_mem (h : i ∈ xs) : (foot i).Within (all xs foot) :=
  ⟨fun _ hx => ⟨i, h, hx⟩, fun _ hx => ⟨i, h, hx⟩⟩

theorem Within.all_of_subset (h : ∀ i ∈ xs, i ∈ ys) : (all xs foot).Within (all ys foot) :=
  ⟨fun _ ⟨i, hi, hx⟩ => ⟨i, h i hi, hx⟩, fun _ ⟨i, hi, hx⟩ => ⟨i, h i hi, hx⟩⟩

theorem Within.watching (H : F.Within F') : F.Within F'.watching := ⟨fun _ _ => trivial, H.writes⟩

theorem Spares.join_left (H : F.Spares F'') (H' : F'.Spares F'') : (F.join F').Spares F'' :=
  fun x hx => hx.elim (H x) (H' x)

theorem Spares.join_right (H : F.Spares F') (H' : F.Spares F'') : F.Spares (F'.join F'') :=
  fun x hx hreads => hreads.elim (H x hx) (H' x hx)

theorem Spares.all_right (h : ∀ j ∈ xs, F.Spares (foot j)) : F.Spares (all xs foot) :=
  fun x hx ⟨j, hj, hreads⟩ => h j hj x hx hreads

theorem Spares.all_left (h : ∀ j ∈ xs, (foot j).Spares F) : (all xs foot).Spares F :=
  fun x ⟨j, hj, hx⟩ => h j hj x hx

/-- The pact of programs with a footprint, which are answered as `A` says. -/
def pact (F : Footprint W) (A : Answering I σ) : Pact I σ where
  answers := A
  rely := W.Agree F.reads
  guar s _ _ s' := W.Agree (¬F.writes ·) s s'
  live := True
  rely_refl := .refl
  rely_trans := .trans

end Footprint

namespace Process

/-- Processes one after another. -/
def inOrder : List (Process I α) → Process I (List α)
  | [] => done []
  | p :: rest => p.andThen fun a => (inOrder rest).map (a :: ·)

variable {A : Answering I σ} {F F' F₁ F₂ : Footprint W}

/-- A process ends, with `post`, as long as others leave alone what it reads; and it leaves alone
what it does not write. -/
inductive Fulfils (A : Answering I σ) (F : Footprint W) (post : α → σ → Prop) :
    Process I α → σ → Prop
  | intro {p s} :
      (∀ value s₁, p.value? = some value → W.Agree F.reads s s₁ → post value s₁) →
      (∀ s₁, p.value? = none → W.Agree F.reads s s₁ → ∃ p' s', p.Step A s₁ p' s') →
      (∀ s₁ p' s', W.Agree F.reads s s₁ → p.Step A s₁ p' s' → W.Agree (¬F.writes ·) s₁ s') →
      (∀ s₁ p' s', W.Agree F.reads s s₁ → p.Step A s₁ p' s' → Fulfils A F post p' s') →
      Fulfils A F post p s

namespace Fulfils

theorem shift {post : α → σ → Prop} {p : Process I α} (H : Fulfils A F post p s)
    (h : W.Agree F.reads s s') : Fulfils A F post p s' := by
  cases H with
  | intro ended goes keeps next =>
    exact ⟨fun value s₁ hv hrely => ended value s₁ hv (h.trans hrely),
      fun s₁ hv hrely => goes s₁ hv (h.trans hrely),
      fun s₁ p' s₂ hrely => keeps s₁ p' s₂ (h.trans hrely),
      fun s₁ p' s₂ hrely => next s₁ p' s₂ (h.trans hrely)⟩

theorem mono {post post' : α → σ → Prop} {p : Process I α} (H : Fulfils A F post p s)
    (hF : F.Within F') (hpost : ∀ value s', post value s' → post' value s') :
    Fulfils A F' post' p s := by
  induction H with
  | intro ended goes keeps _ ih =>
    refine ⟨fun value s₁ hv hrely => ?_, fun s₁ hv hrely => ?_, fun s₁ p' s' hrely hstep => ?_,
      fun s₁ p' s' hrely hstep => ih s₁ p' s' (hrely.mono hF.reads) hstep⟩
    · exact hpost value s₁ (ended value s₁ hv (hrely.mono hF.reads))
    · exact goes s₁ hv (hrely.mono hF.reads)
    · exact (keeps s₁ p' s' (hrely.mono hF.reads) hstep).mono fun x hx hwrites =>
        hx (hF.writes x hwrites)

/-- A process that fulfils its part ends when it runs alone. -/
theorem ends {post : α → σ → Prop} {p : Process I α} (H : Fulfils A F post p s) :
    Ends A post p s := by
  induction H with
  | @intro p s ended goes keeps _ ih =>
    cases hv : p.value? with
    | some value => exact .done hv (ended value s hv (.refl s))
    | none => exact .step (goes s hv (.refl s)) fun p' s' hstep => ih s p' s' (.refl s) hstep

/-- What holds at the end goes on to hold while others leave alone what has been read. -/
theorem closed {post : α → σ → Prop} {p : Process I α} (H : Fulfils A F post p s) :
    Fulfils A F (fun value s' => ∀ s'', W.Agree F.reads s' s'' → post value s'') p s := by
  induction H with
  | intro ended goes keeps _ ih =>
    exact ⟨fun value s₁ hv hrely s₂ h => ended value s₂ hv (hrely.trans h), goes, keeps, ih⟩

theorem of_value? {post : α → σ → Prop} {p : Process I α} (H : Fulfils A F post p s)
    (hv : p.value? = some value) (h : W.Agree F.reads s s') : post value s' := by
  cases H with
  | intro ended => exact ended value s' hv h

/-- What a process does not write it leaves alone, if others do so. -/
theorem frame {post : α → σ → Prop} {p : Process I α} {J : W.Name → Prop}
    (H : Fulfils A F post p s) (hreads : ∀ x, J x → F.reads x) (hwrites : ∀ x, J x → ¬F.writes x) :
    Fulfils A F (fun value s' => post value s' ∧ W.Agree J s s') p s := by
  induction H with
  | @intro p s ended goes keeps _ ih =>
    refine ⟨fun value s₁ hv hrely => ⟨ended value s₁ hv hrely, hrely.mono hreads⟩, goes, keeps, ?_⟩
    intro s₁ p' s' hrely hstep
    refine (ih s₁ p' s' hrely hstep).mono .refl ?_
    intro value s'' h
    have hkept : W.Agree J s s' :=
      (hrely.mono hreads).trans ((keeps s₁ p' s' hrely hstep).mono hwrites)
    exact ⟨h.1, hkept.trans h.2⟩

/-- Without interference, a process leaves alone what it does not write. -/
theorem watching {post : α → σ → Prop} {p : Process I α} (H : Fulfils A F post p s) :
    Fulfils A F.watching (fun value s' => post value s' ∧ W.Agree (¬F.writes ·) s s') p s :=
  (H.mono Footprint.Within.refl.watching fun _ _ h => h).frame (fun _ _ => trivial) fun _ => id

theorem done {post : α → σ → Prop} (h : ∀ s', W.Agree F.reads s s' → post value s') :
    Fulfils A F post (Process.done value) s :=
  ⟨fun _ s₁ hv hrely => Option.some.inj hv ▸ h s₁ hrely, nofun,
    fun _ _ _ _ => False.elim, fun _ _ _ _ => False.elim⟩

theorem run {post : α → σ → Prop} {p : Program I α}
    (stable : ∀ value, (F.pact A).Stable (post value)) (H : p.Abides (F.pact A) post s) :
    Fulfils A F post (.run p) s := by
  induction p generalizing s with
  | pure value => exact done fun s' hrely => stable value H hrely
  | query q next ih =>
    refine ⟨nofun, fun s₁ _ hrely => ?_, fun s₁ p' s' hrely hstep => ?_,
      fun s₁ p' s' hrely hstep => ?_⟩
    · obtain ⟨answer, s', hanswer⟩ := (H s₁ hrely).1 trivial
      exact ⟨_, s', answer, hanswer, rfl⟩
    · obtain ⟨answer, hanswer, rfl⟩ := hstep
      exact ((H s₁ hrely).2 answer s' hanswer).1
    · obtain ⟨answer, hanswer, rfl⟩ := hstep
      exact ih answer ((H s₁ hrely).2 answer s' hanswer).2

theorem andThen {first : Process I α} {next : α → Process I β} {post : β → σ → Prop}
    (H : Fulfils A F (fun value s' => Fulfils A F post (next value) s') first s) :
    Fulfils A F post (first.andThen next) s := by
  induction H with
  | @intro p s ended goes keeps _ ih =>
    refine ⟨nofun, fun s₁ _ hrely => ?_, fun s₁ p' s' hrely hstep => ?_,
      fun s₁ p' s' hrely hstep => ?_⟩
    · cases hv : p.value? with
      | some value => exact ⟨_, s₁, .inr ⟨value, hv, rfl, rfl⟩⟩
      | none =>
        obtain ⟨p', s', hstep⟩ := goes s₁ hv hrely
        exact ⟨_, s', .inl ⟨p', hstep, rfl⟩⟩
    · rcases hstep with ⟨first', hstep, rfl⟩ | ⟨value, -, rfl, rfl⟩
      · exact keeps s₁ first' s' hrely hstep
      · exact .refl _
    · rcases hstep with ⟨first', hstep, rfl⟩ | ⟨value, hv, rfl, rfl⟩
      · exact ih s₁ first' s' hrely hstep
      · exact ended value _ hv hrely

theorem map {post : β → σ → Prop} {p : Process I α} {f : α → β}
    (H : Fulfils A F (fun value => post (f value)) p s) : Fulfils A F post (p.map f) s :=
  .andThen (H.closed.mono .refl fun _ _ h => done h)

theorem loop {state : τ} {round : τ → Process I (τ ⊕ α)} {post : α → σ → Prop}
    (H : Fulfils A F (fun
      | .inl state', s' => Fulfils A F post (.loop state' round) s'
      | .inr value, s' => post value s') (round state) s) :
    Fulfils A F post (.loop state round) s := by
  refine ⟨nofun, fun s₁ _ _ => ⟨_, s₁, rfl, rfl⟩, fun s₁ p' s' _ hstep => ?_,
    fun s₁ p' s' hrely hstep => ?_⟩
  · obtain ⟨rfl, -⟩ := hstep
    exact .refl _
  · obtain ⟨rfl, rfl⟩ := hstep
    refine .andThen ((H.shift hrely).closed.mono .refl ?_)
    intro result s' h
    cases result with
    | inl state' => exact h s' (.refl s')
    | inr value => exact done h

/-- A loop whose rounds are programs. -/
theorem repeatProgram {state : τ} {round : τ → Program I (τ ⊕ α)} {post : α → σ → Prop}
    (stable : ∀ value, (F.pact A).Stable (post value))
    (H : (round state).Abides (F.pact A) (fun
      | .inl state', s' => Fulfils A F post (.repeatProgram state' round) s'
      | .inr value, s' => post value s') s) :
    Fulfils A F post (.repeatProgram state round) s := by
  refine .loop (.run ?_ H)
  intro result
  cases result with
  | inl state' => exact fun h hrely => h.shift hrely
  | inr value => exact stable value

/-- Two processes beside each other, in a process `p left right` of which each step is a step of one
of them or, as `stops` says, the last one. -/
theorem beside {γ : Type} {p : Process I α → Process I β → Process I γ} {post₁ : α → σ → Prop}
    {post₂ : β → σ → Prop} {post : γ → σ → Prop} {left : Process I α} {right : Process I β}
    (pending : ∀ l r, (p l r).value? = none)
    (goes : ∀ {l r s}, ((∃ l' s', l.Step A s l' s') ∨ ∃ a, l.value? = some a) →
      ((∃ r' s', r.Step A s r' s') ∨ ∃ b, r.value? = some b) → ∃ q s', (p l r).Step A s q s')
    (steps : ∀ {l r s q s'}, (p l r).Step A s q s' →
      (∃ l', l.Step A s l' s' ∧ q = p l' r) ∨ (∃ r', r.Step A s r' s' ∧ q = p l r') ∨
        s' = s ∧ (Fulfils A F₁ post₁ l s → Fulfils A F₂ post₂ r s → Fulfils A F post q s))
    (hleft : F₁.Within F) (hright : F₂.Within F) (h₁₂ : F₁.Spares F₂) (h₂₁ : F₂.Spares F₁)
    (H₁ : Fulfils A F₁ post₁ left s) (H₂ : Fulfils A F₂ post₂ right s) :
    Fulfils A F post (p left right) s := by
  -- What the left one comes to is fixed from `s` on; the right one goes on meanwhile, so the inner
  -- induction is from any state that the left one cannot tell from `s`.
  induction H₁ generalizing right with
  | @intro left s ended₁ goes₁ keeps₁ next₁ ih₁ =>
    suffices H : ∀ s', W.Agree F₁.reads s s' → Fulfils A F₂ post₂ right s' →
        Fulfils A F post (p left right) s' from H s (.refl s) H₂
    clear H₂
    intro s' hrely₁ H₂
    induction H₂ with
    | @intro right s' ended₂ goes₂ keeps₂ next₂ ih₂ =>
      have hleft₁ : ∀ {s₁}, W.Agree F.reads s' s₁ → W.Agree F₁.reads s s₁ :=
        fun hrely => hrely₁.trans (hrely.mono hleft.reads)
      refine ⟨fun _ _ hv => absurd hv (by simp [pending]), fun s₁ _ hrely => ?_,
        fun s₁ q s₂ hrely hstep => ?_, fun s₁ q s₂ hrely hstep => ?_⟩
      · apply goes
        · cases hv : left.value? with
          | some a => exact .inr ⟨a, rfl⟩
          | none => exact .inl (goes₁ s₁ hv (hleft₁ hrely))
        · cases hv : right.value? with
          | some b => exact .inr ⟨b, rfl⟩
          | none => exact .inl (goes₂ s₁ hv (hrely.mono hright.reads))
      · rcases steps hstep with ⟨left', hpart, rfl⟩ | ⟨right', hpart, rfl⟩ | ⟨rfl, -⟩
        · exact (keeps₁ s₁ left' s₂ (hleft₁ hrely) hpart).mono fun x hx h => hx (hleft.writes x h)
        · exact (keeps₂ s₁ right' s₂ (hrely.mono hright.reads) hpart).mono
            fun x hx h => hx (hright.writes x h)
        · exact .refl _
      · have H₁ : Fulfils A F₁ post₁ left s' :=
          shift ⟨ended₁, goes₁, keeps₁, next₁⟩ hrely₁
        have H₂ : Fulfils A F₂ post₂ right s' := ⟨ended₂, goes₂, keeps₂, next₂⟩
        rcases steps hstep with ⟨left', hpart, rfl⟩ | ⟨right', hpart, rfl⟩ | ⟨rfl, hstops⟩
        · have hkept : W.Agree F₂.reads s₁ s₂ :=
            (keeps₁ s₁ left' s₂ (hleft₁ hrely) hpart).mono fun x hx h => h₁₂ x h hx
          exact ih₁ s₁ left' s₂ (hleft₁ hrely) hpart
            (H₂.shift ((hrely.mono hright.reads).trans hkept))
        · have hkept : W.Agree F₁.reads s₁ s₂ :=
            (keeps₂ s₁ right' s₂ (hrely.mono hright.reads) hpart).mono fun x hx h => h₂₁ x h hx
          exact ih₂ s₁ right' s₂ (hrely.mono hright.reads) hpart ((hleft₁ hrely).trans hkept)
        · exact hstops (H₁.shift (hrely.mono hleft.reads)) (H₂.shift (hrely.mono hright.reads))

theorem both {post₁ : α → σ → Prop} {post₂ : β → σ → Prop} {left : Process I α}
    {right : Process I β} (hleft : F₁.Within F) (hright : F₂.Within F) (h₁₂ : F₁.Spares F₂)
    (h₂₁ : F₂.Spares F₁) (H₁ : Fulfils A F₁ post₁ left s) (H₂ : Fulfils A F₂ post₂ right s) :
    Fulfils A F (fun ab s' => post₁ ab.1 s' ∧ post₂ ab.2 s') (left.both right) s := by
  refine beside (fun _ _ => rfl) ?goes ?steps hleft hright h₁₂ h₂₁ H₁ H₂
  case goes =>
    intro l r s hl hr
    rcases hl with ⟨l', s', hstep⟩ | ⟨a, ha⟩
    · exact ⟨_, s', .inl ⟨l', hstep, rfl⟩⟩
    · rcases hr with ⟨r', s', hstep⟩ | ⟨b, hb⟩
      · exact ⟨_, s', .inr (.inl ⟨r', hstep, rfl⟩)⟩
      · exact ⟨_, s, .inr (.inr ⟨a, b, ha, hb, rfl, rfl⟩)⟩
  case steps =>
    intro l r s q s' hstep
    rcases hstep with hstep | hstep | ⟨a, b, ha, hb, rfl, rfl⟩
    · exact .inl hstep
    · exact .inr (.inl hstep)
    · refine .inr (.inr ⟨rfl, fun hl hr => done fun s'' hrely => ?_⟩)
      exact ⟨hl.of_value? ha (hrely.mono hleft.reads), hr.of_value? hb (hrely.mono hright.reads)⟩

/-- Two processes of which the first failure ends both. -/
theorem untilFailure_results {ε : Type} {post₁ : Except ε α → σ → Prop}
    {post₂ : Except ε β → σ → Prop} {left : Process I (Except ε α)}
    {right : Process I (Except ε β)} (hleft : F₁.Within F) (hright : F₂.Within F)
    (h₁₂ : F₁.Spares F₂) (h₂₁ : F₂.Spares F₁) (H₁ : Fulfils A F₁ post₁ left s)
    (H₂ : Fulfils A F₂ post₂ right s) :
    Fulfils A F (fun
      | .ok ab, s' => post₁ (.ok ab.1) s' ∧ post₂ (.ok ab.2) s'
      | .error e, s' => post₁ (.error e) s' ∨ post₂ (.error e) s') (left.untilFailure right) s := by
  refine beside (fun _ _ => rfl) ?goes ?steps hleft hright h₁₂ h₂₁ H₁ H₂
  case goes =>
    intro l r s hl hr
    rcases hl with ⟨l', s', hstep⟩ | ⟨e | a, ha⟩
    · exact ⟨_, s', .inl ⟨l', hstep, rfl⟩⟩
    · exact ⟨_, s, .inr (.inr (.inl ⟨e, ha, rfl, rfl⟩))⟩
    · rcases hr with ⟨r', s', hstep⟩ | ⟨e | b, hb⟩
      · exact ⟨_, s', .inr (.inl ⟨r', hstep, rfl⟩)⟩
      · exact ⟨_, s, .inr (.inr (.inr (.inl ⟨e, hb, rfl, rfl⟩)))⟩
      · exact ⟨_, s, .inr (.inr (.inr (.inr ⟨a, b, ha, hb, rfl, rfl⟩)))⟩
  case steps =>
    intro l r s q s' hstep
    rcases hstep with hstep | hstep | ⟨e, he, rfl, rfl⟩ | ⟨e, he, rfl, rfl⟩ |
      ⟨a, b, ha, hb, rfl, rfl⟩
    · exact .inl hstep
    · exact .inr (.inl hstep)
    · refine .inr (.inr ⟨rfl, fun hl _ => done fun s'' hrely => .inl ?_⟩)
      exact hl.of_value? he (hrely.mono hleft.reads)
    · refine .inr (.inr ⟨rfl, fun _ hr => done fun s'' hrely => .inr ?_⟩)
      exact hr.of_value? he (hrely.mono hright.reads)
    · refine .inr (.inr ⟨rfl, fun hl hr => done fun s'' hrely => ?_⟩)
      exact ⟨hl.of_value? ha (hrely.mono hleft.reads), hr.of_value? hb (hrely.mono hright.reads)⟩

/-- Two processes of which the first failure ends both; all that is said is that they end. -/
theorem untilFailure {ε : Type} {post₁ : Except ε α → σ → Prop} {post₂ : Except ε β → σ → Prop}
    {left : Process I (Except ε α)} {right : Process I (Except ε β)}
    (hleft : F₁.Within F) (hright : F₂.Within F) (h₁₂ : F₁.Spares F₂)
    (h₂₁ : F₂.Spares F₁) (H₁ : Fulfils A F₁ post₁ left s) (H₂ : Fulfils A F₂ post₂ right s) :
    Fulfils A F (fun _ _ => True) (left.untilFailure right) s :=
  (untilFailure_results hleft hright h₁₂ h₂₁ H₁ H₂).mono .refl fun _ _ _ => trivial

/-- All processes of a list, none of which writes what another one reads. -/
theorem all_results {xs : List ι} {p : ι → Process I α} {foot : ι → Footprint W}
    {post : ι → α → σ → Prop}
    (hapart : xs.Pairwise fun i j => (foot i).Spares (foot j) ∧ (foot j).Spares (foot i))
    (H : ∀ i ∈ xs, Fulfils A (foot i) (post i) (p i) s) :
    Fulfils A (.all xs foot) (fun results s' => List.Forall₂ (fun i => (post i · s')) xs results)
      (Process.all (xs.map p)) s := by
  induction xs with
  | nil => exact done fun _ _ => .nil
  | cons i xs ih =>
    obtain ⟨hi, hxs⟩ := List.pairwise_cons.mp hapart
    have hrest := ih hxs fun j hj => H j (List.mem_cons_of_mem i hj)
    have hboth := both (.all_of_mem List.mem_cons_self)
      (.all_of_subset fun _ => List.mem_cons_of_mem i)
      (.all_right fun j hj => (hi j hj).1) (.all_left fun j hj => (hi j hj).2)
      (H i List.mem_cons_self) hrest
    refine .andThen (hboth.closed.mono .refl ?_)
    intro results s' h
    exact done fun s'' hrely => .cons (h s'' hrely).1 (h s'' hrely).2

theorem all {xs : List ι} {p : ι → Process I α} {foot : ι → Footprint W} {post : ι → σ → Prop}
    (hapart : xs.Pairwise fun i j => (foot i).Spares (foot j) ∧ (foot j).Spares (foot i))
    (H : ∀ i ∈ xs, Fulfils A (foot i) (fun _ => post i) (p i) s) :
    Fulfils A (.all xs foot) (fun _ s' => ∀ i ∈ xs, post i s') (Process.all (xs.map p)) s := by
  have hresults : Fulfils A (.all xs foot)
      (fun results s' => List.Forall₂ (fun i _ => post i s') xs results)
      (Process.all (xs.map p)) s := all_results hapart H
  refine hresults.mono .refl fun results s' h => ?_
  clear hresults hapart H
  induction h with
  | nil => exact nofun
  | cons hpost _ ih => exact List.forall_mem_cons.mpr ⟨hpost, ih⟩

/-- Processes of which none writes what another one reads, one after another. -/
theorem ends_inOrder {xs : List ι} {p : ι → Process I α} {foot : ι → Footprint W}
    {post : ι → α → σ → Prop}
    (hapart : xs.Pairwise fun i j => (foot i).Spares (foot j) ∧ (foot j).Spares (foot i))
    (H : ∀ i ∈ xs, Fulfils A (foot i) (post i) (p i) s) :
    Ends A (fun results s' => List.Forall₂ (fun i => (post i · s')) xs results ∧
      W.Agree (¬(Footprint.all xs foot).writes ·) s s') (inOrder (xs.map p)) s := by
  induction xs generalizing s with
  | nil => exact .done rfl ⟨.nil, .refl s⟩
  | cons i xs ih =>
    obtain ⟨hi, hxs⟩ := List.pairwise_cons.mp hapart
    refine .andThen ((H i List.mem_cons_self).closed.watching.ends.mono ?_)
    intro value s₁ hfirst
    obtain ⟨hpost, hkept⟩ := hfirst
    have hrest := ih hxs fun j hj => (H j (List.mem_cons_of_mem i hj)).shift
      (hkept.mono fun x hreads hwrites => (hi j hj).1 x hwrites hreads)
    refine .andThen (hrest.mono ?_)
    intro results s₂ hlast
    obtain ⟨hposts, hkept'⟩ := hlast
    have hspares : W.Agree (foot i).reads s₁ s₂ :=
      hkept'.mono fun x hreads ⟨j, hj, hwrites⟩ => (hi j hj).2 x hwrites hreads
    refine .done rfl ⟨.cons (hpost s₂ hspares) hposts, ?_⟩
    exact (hkept.mono fun x hx h => hx ⟨i, List.mem_cons_self, h⟩).trans
      (hkept'.mono fun x hx ⟨j, hj, h⟩ => hx ⟨j, List.mem_cons_of_mem i hj, h⟩)

/-- What is done after a process, and does not write what that one has read, leaves as it is what
the process has come to. -/
theorem andThenAside {post : α → σ → Prop} {first : Process I α} {next : α → Process I β}
    (H : Fulfils A F₁ post first s)
    (hnext : ∀ value s', post value s' → Fulfils A F₂ (fun _ _ => True) (next value) s')
    (hspares : F₂.Spares F₁) (hfirst : F₁.Within F) (hF : F₂.Within F) :
    Fulfils A F (fun _ s' => ∃ value, post value s') (first.andThen next) s := by
  refine .andThen (H.closed.mono hfirst ?_)
  intro value s' h
  -- What `first` has read is to stay as it is meanwhile, so it counts as read by what comes next.
  let watching : Footprint W := ⟨fun x => F₂.reads x ∨ F₁.reads x, F₂.writes⟩
  have hwatching : Fulfils A watching (fun _ _ => True) (next value) s' :=
    (hnext value s' (h s' (.refl s'))).mono ⟨fun _ => .inl, fun _ => id⟩ fun _ _ h => h
  have hframed := hwatching.frame (J := F₁.reads) (fun _ => .inr)
    fun x hreads hwrites => hspares x hwrites hreads
  refine hframed.mono ⟨fun x hx => hx.elim (hF.reads x) (hfirst.reads x), hF.writes⟩ ?_
  exact fun _ s'' hkept => ⟨value, h s'' hkept.2⟩

/-- All processes of a list, and what is to be done with the answer of each, all of which are as
`good` says. -/
theorem allInOrder {xs : List ι} {use : α → Program I Unit} {p : ι → Process I α}
    {foot : ι → Footprint W} {post : ι → σ → Prop} {teller : Footprint W} {good : α → Prop}
    (huse : ∀ value s', good value → Fulfils A teller (fun _ _ => True) (.run (use value)) s')
    (hteller : ∀ i ∈ xs, teller.Spares (foot i) ∧ (foot i).Spares teller)
    (hself : teller.Spares teller)
    (hapart : xs.Pairwise fun i j => (foot i).Spares (foot j) ∧ (foot j).Spares (foot i))
    (H : ∀ i ∈ xs, Fulfils A (foot i) (fun value s' => good value ∧ post i s') (p i) s) :
    Fulfils A (.join teller (.all xs foot)) (fun _ s' => ∀ i ∈ xs, post i s')
      (Process.allInOrder use (xs.map p)) s := by
  -- The induction is on the processes still to come; `ys` are those that are under way.
  suffices h : ∀ ys before, (ys ++ xs).Pairwise (fun i j =>
        (foot i).Spares (foot j) ∧ (foot j).Spares (foot i)) →
      (∀ i ∈ ys ++ xs, teller.Spares (foot i) ∧ (foot i).Spares teller) →
      Fulfils A (.join teller (.all ys foot)) (fun (_ : Unit) s' => ∀ i ∈ ys, post i s') before s →
      Fulfils A (.join teller (.all (ys ++ xs) foot)) (fun _ s' => ∀ i ∈ ys ++ xs, post i s')
        ((xs.map p).foldl (fun before p => (before.both p).andThen fun ab => .run (use ab.2))
          before) s from
    h [] (Process.done ()) hapart hteller (done fun _ _ => nofun)
  clear hapart hteller
  induction xs with
  | nil =>
    intro ys before _ _ hbefore
    simpa using hbefore
  | cons i xs ih =>
    intro ys before hapart hteller hbefore
    have hassoc : ys ++ i :: xs = (ys ++ [i]) ++ xs := by simp
    rw [hassoc] at hapart hteller ⊢
    refine ih (fun j hj => H j (List.mem_cons_of_mem i hj)) (ys ++ [i]) _ hapart hteller ?_
    have hlast : ∀ j ∈ ys, (foot j).Spares (foot i) ∧ (foot i).Spares (foot j) := by
      obtain ⟨-, -, hlast⟩ := List.pairwise_append.mp (List.pairwise_append.mp hapart).1
      exact fun j hj => hlast j hj i (List.mem_singleton.mpr rfl)
    have hmem : ∀ j ∈ ys ++ [i], teller.Spares (foot j) ∧ (foot j).Spares teller :=
      fun j hj => hteller j (List.mem_append_left xs hj)
    have hi : i ∈ ys ++ [i] := by simp
    have hys : (Footprint.all ys foot).Within (.all (ys ++ [i]) foot) :=
      .all_of_subset fun _ => List.mem_append_left [i]
    have hboth := both (F := .join teller (.all (ys ++ [i]) foot))
      (.join .join_left (hys.trans .join_right))
      ((Footprint.Within.all_of_mem hi).trans .join_right)
      (.join_left (hmem i hi).1 (.all_left fun j hj => (hlast j hj).1))
      (.join_right (hmem i hi).2 (.all_right fun j hj => (hlast j hj).2))
      hbefore (H i List.mem_cons_self)
    have hafter := andThenAside hboth (fun ab s' h => huse ab.2 s' h.2.1)
      (.join_right hself (.all_right fun j hj => (hmem j hj).1)) .refl .join_left
    refine hafter.mono .refl ?_
    intro _ s' h j hj
    obtain ⟨-, hposts, -, hpost⟩ := h
    rcases List.mem_append.mp hj with hj | hj
    · exact hposts j hj
    · rw [List.mem_singleton] at hj
      exact hj ▸ hpost

end Fulfils

end Process

end ChainIngest
