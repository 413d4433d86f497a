import ChainIngest.Proofs.Callers
import ChainIngest.Proofs.Footprints
import ChainIngest.Proofs.Parallel

/-! Runs in which it is settled beforehand which calls fail: by who makes a call, by how many
queries it has asked before, and by what it asks. A party to such a run is known by what it asks and
by the parts of the surroundings that it reads and writes; what it comes to depends on what it reads
and on which of its own calls fail. -/

namespace ChainIngest

open Engine (Concur Failed)

/-- Parts of the surroundings. Reading the head of a chain that is not stored creates it, so the
text that is read is told apart from the text that is there. -/
inductive Part where
  | text (key : String)
  | head (chain : String)
  | guard (guard : Guard)
  | outside

namespace Surroundings

/-- The text that reading the head of a chain gives. -/
def headText (w : Surroundings) (chain : String) : String :=
  (w.store.checkpoints.getOrCreate (CheckpointKey.head chain) (Number.showUInt64 0)).1

def parts : Parts Surroundings where
  Name := Part
  Content
    | .text _ => Option String
    | .head _ => String
    | .guard _ => Bool
    | .outside => ChainContents × List (UInt64 × Address) × Bool
  content
    | .text key, w => w.store.checkpoints.get? key
    | .head chain, w => w.headText chain
    | .guard guard, w => w.held guard
    | .outside, w => (w.chains, w.store.recipients, w.cancelled)

variable {w w₁ w₂ : Surroundings} {X : Part → Prop}

theorem agree_afterRead (h : ∀ chain, CheckpointKey.head chain = key → 0 = initial) :
    parts.Agree (· ≠ .text key) w (w.afterRead key initial) := by
  intro x hx
  cases x with
  | text k =>
    have hne : k ≠ key := fun heq => hx (congrArg Part.text heq)
    exact (Checkpoints.get?_getOrCreate_of_ne hne).symm
  | head chain =>
    show w.headText chain = (w.afterRead key initial).headText chain
    unfold headText afterRead withCheckpoints
    by_cases hkey : CheckpointKey.head chain = key
    · obtain rfl := h chain hkey
      subst hkey
      have hget := Checkpoints.get?_getOrCreate_self w.store.checkpoints (CheckpointKey.head chain)
        (Number.showUInt64 0)
      rw [Checkpoints.getOrCreate_of_some hget]
    · have hget : (w.store.checkpoints.getOrCreate key (Number.showUInt64 initial)).2.get?
          (CheckpointKey.head chain) = w.store.checkpoints.get? (CheckpointKey.head chain) :=
        Checkpoints.get?_getOrCreate_of_ne hkey
      rw [Checkpoints.getOrCreate_congr hget]
  | guard guard => rfl
  | outside => rfl

theorem agree_afterWrite {height : UInt64} :
    parts.Agree (fun x => x ≠ .text key ∧ ∀ chain, x = .head chain → CheckpointKey.head chain ≠ key)
      w (w.afterWrite key height) := by
  intro x hx
  have hget : ∀ k, k ≠ key → w.store.checkpoints.get? k =
      (w.store.checkpoints.put key (Number.showUInt64 height)).get? k :=
    fun k hk => ((Checkpoints.get?_put ..).trans (if_neg hk)).symm
  cases x with
  | text k => exact hget k fun heq => hx.1 (congrArg Part.text heq)
  | head chain => exact (Checkpoints.getOrCreate_congr (hget _ (hx.2 chain rfl)).symm).symm
  | guard guard => rfl
  | outside => rfl

theorem agree_withGuard {guard : Guard} :
    parts.Agree (· ≠ .guard guard) w (w.withGuard guard isHeld) := by
  intro x hx
  cases x with
  | guard guard' =>
    have hne : guard' ≠ guard := fun heq => hx (congrArg Part.guard heq)
    exact (Function.update_of_ne hne ..).symm
  | text key => rfl
  | head chain => rfl
  | outside => rfl

/-- Nothing but rows and snapshots has been added. -/
theorem agree_of_eq (hcheckpoints : w₁.store.checkpoints = w₂.store.checkpoints)
    (hheld : w₁.held = w₂.held)
    (houtside : parts.content .outside w₁ = parts.content .outside w₂) : parts.Agree X w₁ w₂ := by
  intro x _
  cases x with
  | text key => exact congrArg (·.get? key) hcheckpoints
  | head chain =>
    have hget := congrArg (·.get? (CheckpointKey.head chain)) hcheckpoints
    exact Checkpoints.getOrCreate_congr hget
  | guard guard => exact congrFun hheld guard
  | outside => exact houtside

theorem agree_withLedger {l : Ledger} : parts.Agree X w (w.withLedger l) := agree_of_eq rfl rfl rfl

/-- The stored head of a chain depends on the text that is read of it. -/
theorem height?_head_congr (h : w₁.headText chain = w₂.headText chain) :
    w₁.height? (CheckpointKey.head chain) 0 = w₂.height? (CheckpointKey.head chain) 0 := by
  unfold headText at h
  unfold height? Checkpoints.height?
  rw [h]

/-- A checkpoint of a head that is there has the text that is read of it. -/
theorem get?_head_congr (htext : w₁.headText chain = w₂.headText chain)
    (hthere : (w₁.store.checkpoints.get? (CheckpointKey.head chain)).isSome ↔
      (w₂.store.checkpoints.get? (CheckpointKey.head chain)).isSome) :
    w₁.store.checkpoints.get? (CheckpointKey.head chain) =
      w₂.store.checkpoints.get? (CheckpointKey.head chain) := by
  unfold headText at htext
  cases hget : w₁.store.checkpoints.get? (CheckpointKey.head chain) with
  | none =>
    rw [hget] at hthere
    exact (Option.not_isSome_iff_eq_none.mp (mt hthere.mpr Bool.false_ne_true)).symm
  | some text =>
    rw [hget] at hthere
    obtain ⟨text', hget'⟩ := Option.isSome_iff_exists.mp (hthere.mp rfl)
    rw [Checkpoints.getOrCreate_of_some hget, Checkpoints.getOrCreate_of_some hget'] at htext
    rw [hget']
    exact congrArg some htext

/-! Surroundings that agree do so after the same has been done in both. -/

theorem agree_both_afterRead (H : parts.Agree X w₁ w₂)
    (hhead : ∀ chain, CheckpointKey.head chain = key → 0 = initial)
    (htext : (w₁.store.checkpoints.getOrCreate key (Number.showUInt64 initial)).1 =
      (w₂.store.checkpoints.getOrCreate key (Number.showUInt64 initial)).1) :
    parts.Agree X (w₁.afterRead key initial) (w₂.afterRead key initial) := by
  have hafter : ∀ w : Surroundings,
      parts.Agree (fun x => X x ∧ x ≠ .text key) w (w.afterRead key initial) :=
    fun w => (agree_afterRead hhead).mono fun _ => And.right
  refine H.update (hafter w₁) (hafter w₂) fun _ => ?_
  exact (Checkpoints.get?_getOrCreate_self ..).trans
    ((congrArg some htext).trans (Checkpoints.get?_getOrCreate_self ..).symm)

theorem agree_both_afterWrite (H : parts.Agree X w₁ w₂) (key : String) (height : UInt64) :
    parts.Agree X (w₁.afterWrite key height) (w₂.afterWrite key height) := by
  have hput : ∀ w : Surroundings, (w.afterWrite key height).store.checkpoints.get? key =
      some (Number.showUInt64 height) :=
    fun w => (Checkpoints.get?_put ..).trans (if_pos rfl)
  intro x hx
  by_cases hother : x ≠ .text key ∧ ∀ chain, x = .head chain → CheckpointKey.head chain ≠ key
  · exact (H.mono fun _ => And.left).around (agree_afterWrite.mono fun _ => And.right)
      (agree_afterWrite.mono fun _ => And.right) x ⟨hx, hother⟩
  -- Two parts change if the key is that of a head: the text, and what reading the head gives.
  · simp only [ne_eq, not_and_or, not_forall, not_not, exists_prop] at hother
    rcases hother with rfl | ⟨chain, rfl, hkey⟩
    · exact (hput w₁).trans (hput w₂).symm
    · subst hkey
      exact Checkpoints.getOrCreate_congr ((hput w₁).trans (hput w₂).symm)

theorem agree_both_withGuard (H : parts.Agree X w₁ w₂) (guard : Guard) (isHeld : Bool) :
    parts.Agree X (w₁.withGuard guard isHeld) (w₂.withGuard guard isHeld) := by
  have hafter : ∀ w : Surroundings,
      parts.Agree (fun x => X x ∧ x ≠ .guard guard) w (w.withGuard guard isHeld) :=
    fun w => agree_withGuard.mono fun _ => And.right
  have hheld : ∀ w : Surroundings, (w.withGuard guard isHeld).held guard = isHeld :=
    fun w => Function.update_self ..
  exact H.update (hafter w₁) (hafter w₂) fun _ => (hheld w₁).trans (hheld w₂).symm

/-- Every query is answered, but that a guard that is held cannot be acquired. -/
theorem exists_answers (q : Engine.Query)
    (free : ∀ guard, q = .acquire guard → w.held guard = false) :
    ∃ answer w', w.Answers q answer w' := by
  cases q with
  | acquire guard => exact ⟨(), _, free guard rfl, rfl⟩
  | tryAcquire guard => exact ⟨_, _, rfl, rfl⟩
  | release guard => exact ⟨(), _, rfl⟩
  | tell notice => exact ⟨(), w, rfl⟩
  | now => exact ⟨0, w, rfl⟩
  | subscribe | nextHeader | pause | waitUntil => exact ⟨.cancelled, w, rfl⟩
  | _ => exact ⟨_, _, rfl, rfl⟩

/-- The surroundings answer no call with a fault. -/
theorem Answers.not_failed {q : Engine.Query} {answer : Engine.Answer q} {w' : Surroundings}
    (H : w.Answers q answer w') : ¬Failed q answer := by
  intro ⟨fault, hfault⟩
  cases q with
  | acquire | tryAcquire | release | isCancelled | subscribe | nextHeader | now | pause
  | waitUntil | tell => cases hfault
  | _ => cases (Option.some.inj hfault).trans H.1

end Surroundings

/-- Which calls fail, and with what. -/
abbrev Outages := Caller → Nat → Engine.Query → Option Fault

/-- Surroundings, with how many queries each caller has asked, and whether a call of it has
failed. -/
structure Watched where
  world : Surroundings
  asked : Caller → Nat
  failed : Caller → Bool

namespace Watched

/-- Before anything has been asked. -/
def start (w : Surroundings) : Watched := ⟨w, fun _ => 0, fun _ => false⟩

/-- After a query of a caller that has been answered. -/
def after (st : Watched) (i : Caller) (w : Surroundings) : Watched :=
  ⟨w, Function.update st.asked i (st.asked i + 1), st.failed⟩

/-- After a call of a caller that has failed. -/
def afterFailure (st : Watched) (i : Caller) : Watched :=
  ⟨st.world, Function.update st.asked i (st.asked i + 1), Function.update st.failed i true⟩

def parts : Parts Watched where
  Name := Part ⊕ Caller
  Content
    | .inl x => Surroundings.parts.Content x
    | .inr _ => Nat × Bool
  content
    | .inl x, st => Surroundings.parts.content x st.world
    | .inr i, st => (st.asked i, st.failed i)

end Watched

namespace Outages

/-- The answer of a call that is to fail. -/
def failure? (F : Outages) (i : Caller) (st : Watched) (q : Engine.Query) :
    Option (Engine.Answer q) :=
  (F i (st.asked i) q).bind (Engine.failure? q)

/-- A query is answered by the surroundings unless it is to fail. -/
def Answers (F : Outages) : Answering (Engine.By Caller) Watched := fun st q answer st' =>
  (F.failure? q.1 st q.2 = some answer ∧ st' = st.afterFailure q.1) ∨
    F.failure? q.1 st q.2 = none ∧ ∃ w, st.world.Answers q.2 answer w ∧ st' = st.after q.1 w

variable {F : Outages} {i : Caller} {st st' : Watched}

theorem exists_answers {q : Engine.Query} {answer : Engine.Answer q}
    (h : st.world.Answers q answer w) : ∃ answer st', F.Answers.of i st q answer st' := by
  cases hfailure : F.failure? i st q with
  | some failure => exact ⟨failure, st.afterFailure i, .inl ⟨hfailure, rfl⟩⟩
  | none => exact ⟨answer, st.after i w, .inr ⟨hfailure, w, h, rfl⟩⟩

theorem failed_of_failure? {q : Engine.Query} {answer : Engine.Answer q}
    (h : F.failure? i st q = some answer) : Failed q answer := by
  obtain ⟨fault, -, hfault⟩ := Option.bind_eq_some_iff.mp h
  exact ⟨fault, hfault⟩

/-- What is no call does not fail. -/
theorem answered_of_not_call {q : Engine.Query} {answer : Engine.Answer q}
    (hq : ∀ fault, Engine.failure? q fault = none) (h : F.Answers.of i st q answer st') :
    ∃ w, st.world.Answers q answer w ∧ st' = st.after i w := by
  rcases h with ⟨hfailure, -⟩ | ⟨-, hanswered⟩
  · obtain ⟨fault, hfault⟩ := F.failed_of_failure? hfailure
    cases (hq fault).symm.trans hfault
  · exact hanswered

/-- A call that has failed is noted down. -/
theorem failed_of_failed {q : Engine.Query} {answer : Engine.Answer q}
    (h : F.Answers.of i st q answer st') (hfailed : Failed q answer) : st'.failed i = true := by
  rcases h with ⟨-, rfl⟩ | ⟨-, w, hanswer, -⟩
  · exact Function.update_self ..
  · exact absurd hfailed hanswer.not_failed

theorem failed_mono {q : Engine.Query} {answer : Engine.Answer q}
    (h : F.Answers.of i st q answer st') (hfailed : st.failed i = true) : st'.failed i = true := by
  rcases h with ⟨-, rfl⟩ | ⟨-, w, -, rfl⟩
  · exact Function.update_self ..
  · exact hfailed

/-- Of a caller whose calls are not to fail, no failure is noted down. -/
theorem unfailed (hF : ∀ n q, F i n q = none) (st : Watched)
    (q : (Engine.By Caller).Query) (answer : (Engine.By Caller).Answer q) (st' : Watched)
    (hst : st.failed i = false) (h : F.Answers st q answer st') : st'.failed i = false := by
  rcases h with ⟨hfailure, rfl⟩ | ⟨-, w, -, rfl⟩
  · have hne : i ≠ q.1 := by
      rintro rfl
      simp [Outages.failure?, hF] at hfailure
    exact (Function.update_of_ne hne ..).trans hst
  · exact hst

/-- A caller's query changes what it changes in the surroundings, and what is noted down of the
caller. -/
theorem agree_of_answers {q : Engine.Query} {answer : Engine.Answer q} {X : Part → Prop}
    (h : F.Answers.of i st q answer st')
    (keeps : ∀ w, st.world.Answers q answer w → Surroundings.parts.Agree X st.world w) :
    Watched.parts.Agree (fun x => x.elim X (· ≠ i)) st st' := by
  intro x hx
  rcases h with ⟨-, rfl⟩ | ⟨-, w, hanswer, rfl⟩
  · cases x with
    | inl x => rfl
    | inr j => exact Prod.ext (Function.update_of_ne hx ..).symm (Function.update_of_ne hx ..).symm
  · cases x with
    | inl x => exact keeps w hanswer x hx
    | inr j => exact Prod.ext (Function.update_of_ne hx ..).symm rfl

end Outages

/-- A part of an engine, with what it asks and with what it reads and writes: what it does not write
is not changed by what it asks, and what it reads settles the answers. -/
structure Party where
  caller : Caller
  asks : Engine.Query → Prop
  reads : Part → Prop
  writes : Part → Prop
  keeps : ∀ {q answer} {w w' : Surroundings}, asks q → w.Answers q answer w' →
    Surroundings.parts.Agree (¬writes ·) w w'
  settled : ∀ {q answer₁ answer₂} {w₁ w₂ w₁' w₂' : Surroundings}, asks q →
    Surroundings.parts.Agree reads w₁ w₂ → w₁.Answers q answer₁ w₁' → w₂.Answers q answer₂ w₂' →
    Concur q answer₁ answer₂ ∧ Surroundings.parts.Agree reads w₁' w₂'

namespace Party

/-- What a party reads and writes, itself included. -/
def footprint (p : Party) : Footprint Watched.parts where
  reads x := x.elim p.reads (· = p.caller)
  writes x := x.elim p.writes (· = p.caller)

/-- The pact of a party while calls fail as it is settled. -/
def pact (p : Party) (F : Outages) : Pact Engine Watched := p.footprint.pact (F.Answers.of p.caller)

/-- The states between which a party cannot tell. -/
def Like (p : Party) (st st' : Watched) : Prop := Watched.parts.Agree p.footprint.reads st st'

variable {p p' : Party} {F : Outages} {st st' st₁ st₂ : Watched}

theorem spares (hparts : ∀ x, p.writes x → ¬p'.reads x) (hcaller : p.caller ≠ p'.caller) :
    p.footprint.Spares p'.footprint := by
  intro x hwrites hreads
  cases x with
  | inl x => exact hparts x hwrites hreads
  | inr i => exact hcaller (Eq.trans (Eq.symm hwrites) hreads)

theorem like_iff : p.Like st st' ↔ Surroundings.parts.Agree p.reads st.world st'.world ∧
    st.asked p.caller = st'.asked p.caller ∧ st.failed p.caller = st'.failed p.caller := by
  constructor
  · intro H
    exact ⟨fun x hx => H (.inl x) hx, Prod.mk.inj (H (.inr p.caller) (Eq.refl _))⟩
  · intro H
    obtain ⟨hworld, hasked, hfailed⟩ := H
    intro x hx
    cases x with
    | inl x => exact hworld x hx
    | inr i =>
      obtain rfl : i = p.caller := hx
      exact Prod.ext hasked hfailed

theorem pact_over : (p.pact F).Over Watched.world where
  responds := by
    intro st q answer st' h
    rcases h with ⟨hfailure, rfl⟩ | ⟨-, w, hanswer, rfl⟩
    · exact .inr ⟨rfl, F.failed_of_failure? hfailure⟩
    · exact .inl hanswer
  answered _ h := Outages.exists_answers h

theorem guar_of_asks {q : Engine.Query} {answer : Engine.Answer q} (hq : p.asks q)
    (h : F.Answers.of p.caller st q answer st') :
    Watched.parts.Agree (¬p.footprint.writes ·) st st' := by
  refine (Outages.agree_of_answers h fun w => p.keeps hq).mono ?_
  intro x hx
  cases x with
  | inl x => exact hx
  | inr i => exact hx

/-- From states between which a party cannot tell, it is answered alike, and it comes to such states
again. -/
theorem answers_alike {q : Engine.Query} {answer₁ answer₂ : Engine.Answer q} (hq : p.asks q)
    (hlike : p.Like st₁ st₂) (h₁ : F.Answers.of p.caller st₁ q answer₁ st)
    (h₂ : F.Answers.of p.caller st₂ q answer₂ st') : Concur q answer₁ answer₂ ∧ p.Like st st' := by
  obtain ⟨hworld, hasked, hfailed⟩ := like_iff.mp hlike
  -- The party has asked equally many queries, so the call fails in both states or in neither.
  have hsame : F.failure? p.caller st₁ q = F.failure? p.caller st₂ q := by
    unfold Outages.failure?
    rw [hasked]
  rcases h₁ with ⟨hfailure₁, rfl⟩ | ⟨hnone₁, w₁, hanswer₁, rfl⟩
  · rcases h₂ with ⟨hfailure₂, rfl⟩ | ⟨hnone₂, -⟩
    · obtain rfl := Option.some.inj (hfailure₁.symm.trans (hsame.trans hfailure₂))
      refine ⟨.refl q answer₁, like_iff.mpr ⟨hworld, ?_, ?_⟩⟩
      · simp only [Watched.afterFailure, Function.update_self, hasked]
      · simp only [Watched.afterFailure, Function.update_self]
    · cases hfailure₁.symm.trans (hsame.trans hnone₂)
  · rcases h₂ with ⟨hfailure₂, rfl⟩ | ⟨-, w₂, hanswer₂, rfl⟩
    · cases hnone₁.symm.trans (hsame.trans hfailure₂)
    · obtain ⟨hconcur, hworld'⟩ := p.settled hq hworld hanswer₁ hanswer₂
      refine ⟨hconcur, like_iff.mpr ⟨hworld', ?_, hfailed⟩⟩
      simp only [Watched.after, Function.update_self, hasked]

theorem of_tell {answer : Unit} (h : F.Answers.of p.caller st (.tell notice) answer st') :
    st' = st.after p.caller st.world := by
  obtain ⟨w, hanswer, rfl⟩ := Outages.answered_of_not_call (fun _ => rfl) h
  exact congrArg (st.after p.caller) hanswer

theorem tells_alike {answer₁ answer₂ : Unit} (hlike : p.Like st₁ st₂)
    (h₁ : F.Answers.of p.caller st₁ (.tell notice₁) answer₁ st)
    (h₂ : F.Answers.of p.caller st₂ (.tell notice₂) answer₂ st') : p.Like st st' := by
  obtain ⟨hworld, hasked, hfailed⟩ := like_iff.mp hlike
  rw [of_tell h₁, of_tell h₂]
  refine like_iff.mpr ⟨hworld, ?_, hfailed⟩
  simp only [Watched.after, Function.update_self, hasked]

/-- Whatever a program comes to in one run, a program that goes the same way comes to the like of it
in all runs, from states that the party cannot tell apart. -/
theorem abides_alike {R : α → α → Prop} {prog prog' : Program Engine α} {post : α → Watched → Prop}
    (H : prog.Alike p.asks True R prog') (hlike : p.Like st₁ st₂)
    (hrun : prog.Runs (p.pact F).among st₁ value st)
    (habides : prog'.Abides (p.pact F) post st₂) :
    prog'.Abides (p.pact F)
      (fun value' st' => post value' st' ∧ R value value' ∧ p.Like st st') st₂ := by
  apply habides.and_of_runs
  intro value' st' hrun'
  refine H.runs ?_ ?_ hlike hrun hrun'
  · intro s s' q a a' t t' hq hlike h h'
    obtain ⟨s₁, hrely, hanswer⟩ := h
    obtain ⟨s₁', hrely', hanswer'⟩ := h'
    exact answers_alike hq (hrely.symm.trans (hlike.trans hrely')) hanswer hanswer'
  · intro s s' notice notice' a a' t t' hlike h h'
    obtain ⟨s₁, hrely, hanswer⟩ := h
    obtain ⟨s₁', hrely', hanswer'⟩ := h'
    exact tells_alike (hrely.symm.trans (hlike.trans hrely')) hanswer hanswer'

/-- A party keeps its pact by what it asks. -/
theorem allows {Q : Engine.Query → Prop} {K : Surroundings → Prop} (hQ : ∀ q, Q q → p.asks q)
    (stable : ∀ {w w'}, K w → Surroundings.parts.Agree p.reads w w' → K w')
    (free : ∀ {w guard}, Q (.acquire guard) → K w → w.held guard = false)
    (keeps : ∀ {w q answer w'}, Q q → K w → w.Answers q answer w' → K w') :
    (p.pact F).Allows Q fun st => K st.world where
  stable h hrely := stable h (like_iff.mp hrely).1
  answered := by
    intro st q hq hK _
    obtain ⟨answer, w, hanswer⟩ := Surroundings.exists_answers (w := st.world) q
      fun guard hguard => free (hguard ▸ hq) hK
    exact Outages.exists_answers hanswer
  keeps := by
    intro st q answer st' hq hK hanswer
    refine ⟨guar_of_asks (hQ q hq) hanswer, ?_⟩
    rcases hanswer with ⟨-, rfl⟩ | ⟨-, w, hanswer, rfl⟩
    · exact hK
    · exact keeps hq hK hanswer

/-- Running a program while holding a guard that nobody else takes. -/
theorem guarded {guard : Guard} {prog : Program Engine α} {K : Watched → Prop}
    {post : α → Watched → Prop} (mid : α → Watched → Prop) (hacquire : p.asks (.acquire guard))
    (hrelease : p.asks (.release guard)) (stable : (p.pact F).Stable K)
    (stableMid : ∀ value, (p.pact F).Stable (mid value))
    (free : ∀ st, K st → st.world.held guard = false)
    (body : ∀ st, K st →
      prog.Abides (p.pact F) mid (st.after p.caller (st.world.withGuard guard true)))
    (release : ∀ value st, mid value st →
      post value (st.after p.caller (st.world.withGuard guard false)))
    (hst : K st) : (Engine.guarded guard prog).Abides (p.pact F) post st := by
  refine Program.Abides.guarded mid stable hst ?_ ?_ stableMid ?_ ?_
  · intro st₁ hK _
    have hanswers : st₁.world.Answers (.acquire guard) () (st₁.world.withGuard guard true) :=
      ⟨free st₁ hK, rfl⟩
    obtain ⟨_, st₂, hacquired⟩ := F.exists_answers hanswers
    exact ⟨st₂, hacquired⟩
  · intro st₁ st₂ hK hacquired
    refine ⟨guar_of_asks hacquire hacquired, ?_⟩
    obtain ⟨w, ⟨-, rfl⟩, rfl⟩ := F.answered_of_not_call (fun _ => rfl) hacquired
    exact body st₁ hK
  · intro value st₁ _ _
    have hanswers : st₁.world.Answers (.release guard) () (st₁.world.withGuard guard false) := rfl
    obtain ⟨_, st₂, hreleased⟩ := F.exists_answers hanswers
    exact ⟨st₂, hreleased⟩
  · intro value st₁ st₂ hmid hreleased
    refine ⟨guar_of_asks hrelease hreleased, ?_⟩
    obtain ⟨w, hafter, rfl⟩ := F.answered_of_not_call (fun _ => rfl) hreleased
    obtain rfl : w = st₁.world.withGuard guard false := hafter
    exact release value st₁ hmid

theorem failed_stable : (p.pact F).Stable (·.failed p.caller = true) :=
  fun h hrely => (like_iff.mp hrely).2.2.symm.trans h

/-- What has failed stays noted down. -/
theorem allows_failed {Q : Engine.Query → Prop} {K : Watched → Prop} (H : (p.pact F).Allows Q K) :
    (p.pact F).Allows Q fun st => K st ∧ st.failed p.caller = true where
  stable h hrely := ⟨H.stable h.1 hrely, failed_stable (F := F) h.2 hrely⟩
  answered hq h := H.answered hq h.1
  keeps hq h hanswer :=
    ⟨(H.keeps hq h.1 hanswer).1, (H.keeps hq h.1 hanswer).2, Outages.failed_mono hanswer h.2⟩

end Party

namespace Process.Fulfils

variable {I : Interface} {ι α σ : Type} {W : Parts σ} {F : Footprint W} {s : σ}

/-- What a process fulfils does not depend on how its queries are marked. -/
theorem askedBy {A : Answering (I.By ι) σ} {i : ι} {post : α → σ → Prop} {p : Process I α}
    (H : Fulfils (A.of i) F post p s) : Fulfils A F post (p.askedBy i) s := by
  induction H with
  | @intro p s ended goes keeps _ ih =>
    refine ⟨fun value s₁ hv hrely => ?_, fun s₁ hv hrely => ?_, fun s₁ q s' hrely hstep => ?_,
      fun s₁ q s' hrely hstep => ?_⟩
    · exact ended value s₁ (value?_askedBy i p ▸ hv) hrely
    · obtain ⟨p', s', hstep⟩ := goes s₁ (value?_askedBy i p ▸ hv) hrely
      exact ⟨_, s', step_askedBy_iff.mpr ⟨p', hstep, rfl⟩⟩
    · obtain ⟨p', hmine, rfl⟩ := step_askedBy_iff.mp hstep
      exact keeps s₁ p' s' hrely hmine
    · obtain ⟨p', hmine, rfl⟩ := step_askedBy_iff.mp hstep
      exact ih s₁ p' s' hrely hmine

end Process.Fulfils

end ChainIngest
