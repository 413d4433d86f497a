import Mathlib.Order.Bounds.Basic
import ChainIngest.HeadTracker
import ChainIngest.Proofs.Guards
import ChainIngest.Proofs.HeadRecords
import ChainIngest.Proofs.Outages
import ChainIngest.Proofs.SerialTicks

/-! Calls that update one stored head at the same time, each with what it has been told. A call
counts on the head while it holds the guard of the tracker, and leaves the head alone while it does
not; so a height is written only above the one that is stored. -/

namespace ChainIngest

/-- Programs that run at the same time, a query at a time and in any order. Any call may fail,
without effect; `others` is what is done meanwhile by those who are not among them. -/
inductive Interleaved {ι α : Type} [DecidableEq ι] (others : Surroundings → Surroundings → Prop)
    (start : ι → Program Engine α) (w₀ : Surroundings) :
    List (Event ι) → (ι → Program Engine α) → Surroundings → Prop
  | refl : Interleaved others start w₀ [] start w₀
  | others : Interleaved others start w₀ events pool w → others w w' →
      Interleaved others start w₀ events pool w'
  | query {q : Engine.Query} {next : Engine.Answer q → Program Engine α}
      {answer : Engine.Answer q} :
      Interleaved others start w₀ events pool w → pool i = .query q next →
      w.Responds q answer w' →
      Interleaved others start w₀ (events ++ [⟨i, q, answer, w, w'⟩])
        (Function.update pool i (next answer)) w'

/-- A program that runs to its end while the others wait. -/
theorem Interleaved.of_runs {ι α : Type} [DecidableEq ι]
    {others : Surroundings → Surroundings → Prop} {start pool : ι → Program Engine α}
    {w₀ w w' : Surroundings} {events : List (Event ι)} {value : α} {i : ι}
    (H : Interleaved others start w₀ events pool w)
    (hrun : (pool i).Runs Surroundings.Responds w value w') :
    ∃ more, Interleaved others start w₀ (events ++ more) (Function.update pool i (.pure value))
      w' := by
  generalize hpool : pool i = p at hrun
  induction hrun generalizing events pool with
  | pure => exact ⟨[], by rwa [List.append_nil, ← hpool, Function.update_eq_self]⟩
  | query hanswer _ ih =>
    obtain ⟨more, hmore⟩ := ih (H.query hpool hanswer) (Function.update_self ..)
    rw [Function.update_idem, List.append_assoc] at hmore
    exact ⟨_, hmore⟩

/-- The ways to update a head. -/
inductive HeadCall where
  /-- A height that is known already, such as that of a header. -/
  | record (height : UInt64)
  /-- The height that the node tells. -/
  | refresh
  deriving DecidableEq, Repr

/-- Surroundings, the guard that a call holds in them, and what has been asked so far. -/
structure Course (ι : Type) where
  world : Surroundings
  own : Option Guard
  events : List (Event ι)

namespace HeadTracker

/-- What a call runs. -/
def called (t : HeadTracker) : HeadCall → Program Engine (Except Fault UInt64)
  | .record height => (t.record height).run
  | .refresh => t.refresh.run

/-- The height that is stored, 0 if there is none. A text that is no number is no height. -/
def stored? (t : HeadTracker) (w : Surroundings) : Option UInt64 :=
  w.height? (CheckpointKey.head t.chain) 0

/-- The head that the tracker's node tells. -/
def told? (t : HeadTracker) : (q : Engine.Query) → Engine.Answer q → Option UInt64
  | .headHeight node, .ok height => if node = t.node then some height else none
  | _, _ => none

/-- A query leaves the store alone, but that a head which is not there may be created with 0. -/
def Spares (t : HeadTracker) (e : Event ι) : Prop :=
  e.after.store = e.before.store ∨
    e.before.store.checkpoints.get? (CheckpointKey.head t.chain) = none ∧
      e.after.store = e.before.store.write (CheckpointKey.head t.chain) "0"

/-- The stored height does not decrease. -/
def Rises (t : HeadTracker) (w w' : Surroundings) : Prop :=
  ∀ h, t.stored? w = some h → ∃ h', t.stored? w' = some h' ∧ h ≤ h'

variable {t : HeadTracker} {w w' w'' : Surroundings}

theorem Rises.refl : t.Rises w w :=
  fun height hstored => ⟨height, hstored, UInt64.le_refl _⟩

theorem Rises.of_eq (h : t.stored? w' = t.stored? w) : t.Rises w w' :=
  fun height hstored => ⟨height, h.trans hstored, UInt64.le_refl _⟩

theorem Rises.trans (H : t.Rises w w') (H' : t.Rises w' w'') : t.Rises w w'' := by
  intro h hstored
  obtain ⟨h', hstored', hle⟩ := H h hstored
  obtain ⟨h'', hstored'', hle'⟩ := H' h' hstored'
  exact ⟨h'', hstored'', UInt64.le_trans hle hle'⟩

theorem stored?_of_store (h : w'.store = w.store) : t.stored? w' = t.stored? w := by
  unfold stored? Surroundings.height?
  rw [h]

theorem stored?_of_none
    (h : w.store.checkpoints.get? (CheckpointKey.head t.chain) = none) : t.stored? w = some 0 := by
  unfold stored? Surroundings.height?
  exact Checkpoints.height?_of_none h

theorem stored?_of_holds
    (h : w.store.checkpoints.Holds (CheckpointKey.head t.chain) height) :
    t.stored? w = some height := by
  unfold stored? Surroundings.height?
  exact h.height?

theorem stored?_of_write (h : w' = w.afterWrite (CheckpointKey.head t.chain) height) :
    t.stored? w' = some height :=
  stored?_of_holds (h ▸ Checkpoints.holds_put ..)

theorem Spares.stored? {e : Event ι} (H : t.Spares e) : t.stored? e.after = t.stored? e.before := by
  rcases H with hstore | ⟨hnone, hstore⟩
  · exact stored?_of_store hstore
  · have hbefore : t.stored? e.before = some 0 := stored?_of_none hnone
    have hafter :
        e.after.store = (e.before.afterWrite (CheckpointKey.head t.chain) 0).store := hstore
    rw [hbefore, stored?_of_store hafter, stored?_of_write rfl]

theorem Spares.of_eq {q : Engine.Query} {answer : Engine.Answer q} {i : ι} (h : w' = w) :
    t.Spares ⟨i, q, answer, w, w'⟩ :=
  .inl (congrArg _ h)

/-- Reading the head creates it if it is not there. -/
theorem Spares.read {i : ι}
    {answer : Engine.Answer (.readCheckpoint (CheckpointKey.head t.chain) (Number.showUInt64 0))}
    (h : w.Responds (.readCheckpoint (CheckpointKey.head t.chain) (Number.showUInt64 0)) answer
      w') : t.Spares ⟨i, _, answer, w, w'⟩ := by
  rcases h with ⟨-, hafter⟩ | ⟨hsame, -⟩
  · obtain rfl : w' = w.afterRead (CheckpointKey.head t.chain) 0 := hafter
    unfold Spares Surroundings.afterRead Surroundings.withCheckpoints
    cases hget : w.store.checkpoints.get? (CheckpointKey.head t.chain) with
    | none =>
      rw [Checkpoints.getOrCreate_of_none hget]
      exact .inr ⟨rfl, rfl⟩
    | some text =>
      rw [Checkpoints.getOrCreate_of_some hget]
      exact .inl rfl
  · exact .of_eq hsame

variable {ι : Type} [DecidableEq ι] {i : ι} {call : HeadCall} {events more : List (Event ι)}
  {height before : UInt64} {own : Option Guard} {s s' : Course ι}

/-- The height that a call is to record. One that refreshes has it from the node. -/
def calledWith? (t : HeadTracker) (events : List (Event ι)) (i : ι) : HeadCall → Option UInt64
  | .record height => some height
  | .refresh =>
    events.findSome? fun e => if e.caller = i then t.told? e.query e.answer else none

theorem calledWith?_append (h : t.calledWith? events i call = some height) :
    t.calledWith? (events ++ more) i call = some height := by
  cases call with
  | record => exact h
  | refresh =>
    have hfirst : events.findSome? _ = some height := h
    show (events ++ more).findSome? _ = some height
    rw [List.findSome?_append, hfirst]
    rfl

/-- What others ask does not tell a call anything. -/
theorem calledWith?_append_others (h : t.calledWith? events i .refresh = none)
    (hmore : ∀ e ∈ more, e.caller ≠ i) : t.calledWith? (events ++ more) i .refresh = none := by
  have hfirst : events.findSome? _ = none := h
  show (events ++ more).findSome? _ = none
  rw [List.findSome?_append, hfirst, Option.none_or, List.findSome?_eq_none_iff]
  exact fun e he => if_neg (hmore e he)

/-! ### One call -/

/-- What a call counts on, and what the others may count on: without the guard it spares the head,
and with the guard it may only write the height that it has been called with, above the stored
one. -/
def updatePact (t : HeadTracker) (i : ι) (call : HeadCall) : Pact Engine (Course ι) where
  answers s q answer s' := s.world.Responds q answer s'.world ∧
    s'.own = heldAfter s.own q answer ∧
    s'.events = s.events ++ [⟨i, q, answer, s.world, s'.world⟩]
  rely s s' := s'.own = s.own ∧
    (s.own = some t.guard → t.stored? s'.world = t.stored? s.world) ∧
    t.Rises s.world s'.world ∧
    ∃ more, s'.events = s.events ++ more ∧ ∀ e ∈ more, e.caller ≠ i
  guar s q answer s' := MindsGuards s.own q ∧
    (∀ guard, heldAfter s.own q answer = some guard → guard = t.guard) ∧
    (t.Spares ⟨i, q, answer, s.world, s'.world⟩ ∨ s.own = some t.guard ∧
      t.Rises s.world s'.world ∧ ∃ height, t.calledWith? s'.events i call = some height ∧
        t.stored? s'.world = some height)
  live := False
  rely_refl _ := ⟨rfl, fun _ => rfl, .refl, [], by simp, List.forall_mem_nil _⟩
  rely_trans := by
    rintro s₁ s₂ s₃ ⟨hown, hstored, hrises, more, hmore, hothers⟩
      ⟨hown', hstored', hrises', more', hmore', hothers'⟩
    refine ⟨hown'.trans hown, fun h => (hstored' (hown.trans h)).trans (hstored h),
      hrises.trans hrises', more ++ more', ?_, fun e he => ?_⟩
    · rw [hmore', hmore, List.append_assoc]
    · rcases List.mem_append.mp he with he | he
      · exact hothers e he
      · exact hothers' e he

theorem updatePact_over : (t.updatePact i call).Over Course.world where
  responds h := h.1
  answered h _ := h.elim

/-- A call that holds `own` has left the store alone so far. -/
structure Sparing (t : HeadTracker) (i : ι) (own : Option Guard) (s : Course ι) : Prop where
  own : s.own = own
  spares : ∀ e ∈ s.events, e.caller = i → t.Spares e

/-- A call has been called with `height` and waits for the guard. -/
structure Waits (t : HeadTracker) (i : ι) (call : HeadCall) (height : UInt64) (s : Course ι) :
    Prop extends Sparing t i none s where
  calledWith : t.calledWith? s.events i call = some height
  stored : ∃ before, t.stored? s.world = some before

/-- A call has taken the guard, and found the height `before`. -/
structure Holds (t : HeadTracker) (i : ι) (call : HeadCall) (height before : UInt64)
    (s : Course ι) : Prop extends Sparing t i (some t.guard) s where
  calledWith : t.calledWith? s.events i call = some height
  stored : t.stored? s.world = some before

/-- What holds before a call gives the guard back. -/
def Settles (t : HeadTracker) (i : ι) (call : HeadCall) : Except Fault UInt64 → Course ι → Prop
  | .ok result, s => s.own = some t.guard ∧ t.stored? s.world = some result ∧
    ∃ height, t.calledWith? s.events i call = some height ∧ height ≤ result
  | .error _, s => t.Sparing i (some t.guard) s

/-- What holds from then on. -/
def Returns (t : HeadTracker) (i : ι) (call : HeadCall) : Except Fault UInt64 → Course ι → Prop
  | .ok result, s => s.own = none ∧ (∃ stored, t.stored? s.world = some stored ∧ result ≤ stored) ∧
    ∃ height, t.calledWith? s.events i call = some height ∧ height ≤ result
  | .error _, s => t.Sparing i none s

theorem Sparing.rely (H : t.Sparing i own s) (hrely : (t.updatePact i call).rely s s') :
    t.Sparing i own s' := by
  obtain ⟨hown, -, -, more, hmore, hothers⟩ := hrely
  refine ⟨hown.trans H.own, fun e he hcaller => ?_⟩
  rw [hmore] at he
  rcases List.mem_append.mp he with he | he
  · exact H.spares e he hcaller
  · exact absurd hcaller (hothers e he)

theorem Sparing.answered {q : Engine.Query} {answer : Engine.Answer q} (H : t.Sparing i own s)
    (hanswer : (t.updatePact i call).answers s q answer s')
    (hspares : t.Spares ⟨i, q, answer, s.world, s'.world⟩) :
    t.Sparing i (heldAfter own q answer) s' := by
  obtain ⟨-, hown, hevents⟩ := hanswer
  refine ⟨H.own ▸ hown, fun e he hcaller => ?_⟩
  rw [hevents] at he
  rcases List.mem_append.mp he with he | he
  · exact H.spares e he hcaller
  · rwa [List.mem_singleton.mp he]

theorem calledWith?_rely (h : t.calledWith? s.events i call = some height)
    (hrely : (t.updatePact i call).rely s s') : t.calledWith? s'.events i call = some height := by
  obtain ⟨-, -, -, more, hmore, -⟩ := hrely
  rw [hmore]
  exact calledWith?_append h

theorem calledWith?_answered {q : Engine.Query} {answer : Engine.Answer q}
    (h : t.calledWith? s.events i call = some height)
    (hanswer : (t.updatePact i call).answers s q answer s') :
    t.calledWith? s'.events i call = some height := by
  rw [hanswer.2.2]
  exact calledWith?_append h

theorem Waits.stable : (t.updatePact i call).Stable (t.Waits i call height) := by
  intro s s' H hrely
  obtain ⟨before, hbefore⟩ := H.stored
  obtain ⟨after, hafter, -⟩ := hrely.2.2.1 before hbefore
  exact ⟨H.toSparing.rely hrely, calledWith?_rely H.calledWith hrely, after, hafter⟩

theorem Holds.stable : (t.updatePact i call).Stable (t.Holds i call height before) := by
  intro s s' H hrely
  exact ⟨H.toSparing.rely hrely, calledWith?_rely H.calledWith hrely,
    (hrely.2.1 H.own).trans H.stored⟩

theorem Settles.stable (result : Except Fault UInt64) :
    (t.updatePact i call).Stable (t.Settles i call result) := by
  intro s s' H hrely
  cases result with
  | error fault => exact Sparing.rely H hrely
  | ok result =>
    obtain ⟨hown, hstored, height, hcalled, hle⟩ := H
    exact ⟨hrely.1.trans hown, (hrely.2.1 hown).trans hstored, height,
      calledWith?_rely hcalled hrely, hle⟩

theorem Returns.stable (result : Except Fault UInt64) :
    (t.updatePact i call).Stable (t.Returns i call result) := by
  intro s s' H hrely
  cases result with
  | error fault => exact Sparing.rely H hrely
  | ok result =>
    obtain ⟨hown, ⟨stored, hstored, hbelow⟩, height, hcalled, hle⟩ := H
    obtain ⟨stored', hstored', hle'⟩ := hrely.2.2.1 stored hstored
    exact ⟨hrely.1.trans hown, ⟨stored', hstored', UInt64.le_trans hbelow hle'⟩, height,
      calledWith?_rely hcalled hrely, hle⟩

/-- What a call asks while it holds the guard, but for writing. -/
def Consults (t : HeadTracker) (q : Engine.Query) : Prop :=
  q = .readCheckpoint (CheckpointKey.head t.chain) (Number.showUInt64 0) ∨
    ∃ notice, q = .tell notice

theorem Holds.allows : (t.updatePact i call).Allows t.Consults (t.Holds i call height before) where
  stable := Holds.stable
  answered _ _ hlive := hlive.elim
  keeps := by
    intro s q answer s' hq H hanswer
    have hspares : t.Spares ⟨i, q, answer, s.world, s'.world⟩ := by
      rcases hq with rfl | ⟨notice, rfl⟩
      · exact .read hanswer.1
      · exact .of_eq hanswer.1.of_tell
    have hguards : Unguarded q := by
      rcases hq with rfl | ⟨notice, rfl⟩
      · exact fun own => ⟨trivial, fun _ => rfl⟩
      · exact fun own => ⟨trivial, fun _ => rfl⟩
    obtain ⟨hminds, hsame⟩ := hguards (some t.guard)
    refine ⟨⟨H.own.symm ▸ hminds, ?_, .inl hspares⟩, ?_, ?_, ?_⟩
    · rw [H.own, hsame]
      exact fun guard h => (Option.some.inj h).symm
    · exact hsame answer ▸ H.toSparing.answered hanswer hspares
    · exact calledWith?_answered H.calledWith hanswer
    · exact hspares.stored?.trans H.stored

/-- What is written is above what is stored, since nobody else writes the head meanwhile. -/
theorem Holds.recordsUnder : t.RecordsUnder height (t.updatePact i call) Course.world
    (t.Holds i call height before)
    (fun found s => found = before ∧ t.Holds i call height before s)
    (fun result => t.Settles i call (.ok result)) fun fault => t.Settles i call (.error fault) where
  pactOver := updatePact_over
  reads := Holds.allows.mono fun _ => .inl
  unread _ _ _ H := H.toSparing
  read H hholds := ⟨Option.some.inj ((stored?_of_holds hholds).symm.trans H.stored), H⟩
  tells := (Holds.allows.mono fun _ => .inr).and_fixed
  stays hle h := by
    obtain ⟨rfl, H⟩ := h
    exact ⟨H.own, H.stored, height, H.calledWith, hle⟩
  guar {_ s₁ answer s₂} hlt h hanswer := by
    obtain ⟨rfl, H⟩ := h
    refine ⟨trivial, fun guard h => (Option.some.inj (H.own.symm.trans h)).symm, ?_⟩
    rcases hanswer.1 with ⟨-, hafter⟩ | ⟨hsame, -⟩
    · have hstored : t.stored? s₂.world = some height := stored?_of_write hafter
      refine .inr ⟨H.own, ?_, height, calledWith?_answered H.calledWith hanswer, hstored⟩
      intro c hc
      obtain rfl := Option.some.inj (H.stored.symm.trans hc)
      exact ⟨height, hstored, UInt64.le_of_lt hlt⟩
    · exact .inl (.of_eq hsame)
  written _ h hanswer hafter := ⟨hanswer.2.1.trans h.2.own, stored?_of_write hafter, height,
    calledWith?_answered h.2.calledWith hanswer, UInt64.le_refl _⟩
  unwritten _ h hanswer hsame := h.2.toSparing.answered hanswer (.of_eq hsame)

theorem record_returns (H : t.Waits i call height s) :
    (t.record height).run.Abides (t.updatePact i call) (t.Returns i call) s := by
  refine Program.Abides.guarded (t.Settles i call) Waits.stable H ?answered ?body Settles.stable
    ?answeredMid ?release
  case answered => exact fun _ _ hlive => hlive.elim
  case answeredMid => exact fun _ _ _ hlive => hlive.elim
  case body =>
    intro s₁ s₂ H₁ hacquired
    have hstore : s₂.world.store = s₁.world.store := by
      rcases hacquired.1 with ⟨-, h⟩ | ⟨h, -⟩
      · rw [h]
      · rw [h]
    have hspares : t.Spares ⟨i, .acquire t.guard, (), s₁.world, s₂.world⟩ := .inl hstore
    refine ⟨⟨H₁.own, fun guard h => (Option.some.inj h).symm, .inl hspares⟩, ?_⟩
    obtain ⟨before, hbefore⟩ := H₁.stored
    exact Action.Abides.of_results (Holds.recordsUnder.recordHeld_abides
      ⟨H₁.toSparing.answered hacquired hspares, calledWith?_answered H₁.calledWith hacquired,
        hspares.stored?.trans hbefore⟩)
  case release =>
    intro result s₁ s₂ H₁ hreleased
    have hown : s₁.own = some t.guard := by
      cases result with
      | error fault => exact Sparing.own H₁
      | ok result => exact H₁.1
    have hstore : s₂.world.store = s₁.world.store := by
      rcases hreleased.1 with h | ⟨h, -⟩
      · rw [show s₂.world = _ from h]
      · rw [h]
    have hspares : t.Spares ⟨i, .release t.guard, (), s₁.world, s₂.world⟩ := .inl hstore
    refine ⟨⟨hown, nofun, .inl hspares⟩, ?_⟩
    cases result with
    | error fault => exact Sparing.answered H₁ hreleased hspares
    | ok result =>
      obtain ⟨-, hstored, height, hcalled, hle⟩ := H₁
      exact ⟨hreleased.2.1, ⟨result, hspares.stored?.trans hstored, UInt64.le_refl _⟩, height,
        calledWith?_answered hcalled hreleased, hle⟩

/-- A call that refreshes is called with what the node tells it. -/
theorem refresh_returns (H : t.Sparing i none s)
    (hcalled : t.calledWith? s.events i .refresh = none)
    (hstored : ∃ before, t.stored? s.world = some before) :
    t.refresh.run.Abides (t.updatePact i .refresh) (t.Returns i .refresh) s := by
  let K : Course ι → Prop := fun s => t.Sparing i none s ∧
    t.calledWith? s.events i .refresh = none ∧ ∃ before, t.stored? s.world = some before
  have hstable : (t.updatePact i .refresh).Stable K := by
    intro s s' hK hrely
    obtain ⟨hsparing, hcalled, before, hbefore⟩ := hK
    refine ⟨hsparing.rely hrely, ?_, ?_⟩
    · obtain ⟨-, -, -, more, hmore, hothers⟩ := hrely
      rw [hmore]
      exact calledWith?_append_others hcalled hothers
    · obtain ⟨after, hafter, -⟩ := hrely.2.2.1 before hbefore
      exact ⟨after, hafter⟩
  apply Program.Abides.bind
  refine (Program.Abides.ask hstable ⟨H, hcalled, hstored⟩ (fun _ _ hlive => hlive.elim)
    fun s₁ answer s₂ hK hanswer => ?_)
  obtain ⟨hsparing, hcalled, before, hbefore⟩ := hK
  have hspares : t.Spares ⟨i, .headHeight t.node, answer, s₁.world, s₂.world⟩ := by
    rcases hanswer.1 with ⟨-, h⟩ | ⟨h, -⟩
    · exact .of_eq h
    · exact .of_eq h
  have hsparing' : t.Sparing i none s₂ := hsparing.answered hanswer hspares
  refine ⟨⟨trivial, fun guard h => absurd (hsparing.own.symm.trans h) nofun, .inl hspares⟩, ?_⟩
  cases answer with
  | error fault => exact hsparing'
  | ok height =>
    refine record_returns ⟨hsparing', ?_, before, hspares.stored?.trans hbefore⟩
    have hnone : s₁.events.findSome? _ = none := hcalled
    show s₂.events.findSome? _ = some height
    rw [hanswer.2.2, List.findSome?_append, hnone]
    simp [told?]

theorem called_returns (H : t.Sparing i none s) (hevents : s.events = [])
    (hstored : ∃ before, t.stored? s.world = some before) :
    (t.called call).Abides (t.updatePact i call) (t.Returns i call) s := by
  cases call with
  | record height => exact record_returns ⟨H, rfl, hstored⟩
  | refresh => exact refresh_returns H (by rw [hevents]; rfl) hstored

/-- A call that nothing gets in the way of answers with the higher of two heights. -/
theorem record_runs {stored : UInt64} (hfree : w.held t.guard = false)
    (hstored : t.stored? w = some stored) :
    ∃ w', (t.record height).run.Runs Surroundings.Responds w (.ok (max stored height)) w' := by
  let C : Conduct := .undisturbed fun _ => False
  have hkeeps (P : Surroundings → Prop) : C.Keeps P := fun h hdrift => hdrift ▸ h
  have hfallible : ¬C.Fallible := fun h => h.elim fun _ h => h
  have hinside : t.stored? (w.withGuard t.guard true) = some stored := hstored
  have hbody : Action.Ensures C (fun result _ => result = max stored height) (fun _ _ => False)
      (t.recordHeld height) (w.withGuard t.guard true) := by
    unfold recordHeld
    apply Action.Ensures.bind
    apply Action.Ensures.readHeight (hkeeps (t.stored? · = some stored)) hinside
    · exact fun _ h => ⟨stored, h⟩
    · intro w' stored' hw' hstored'
      obtain rfl : stored = stored' := Option.some.inj (Eq.trans (Eq.symm hw') hstored')
      by_cases hlt : height < stored
      · rw [if_pos hlt]
        apply Action.Ensures.bind
        refine .tell (hkeeps fun _ => True) trivial fun _ _ => .pure ?_
        exact (Height.max_eq_left (UInt64.le_of_lt hlt)).symm
      · rw [if_neg hlt]
        by_cases hgt : stored < height
        · rw [if_pos hgt]
          apply Action.Ensures.bind
          refine .writeHeight (hkeeps fun _ => True) trivial (fun _ _ => .pure ?_)
            fun _ _ _ h => hfallible h
          exact (Height.max_eq_right (UInt64.le_of_lt hgt)).symm
        · rw [if_neg hgt]
          refine .pure (Height.max_eq_right (UInt64.not_lt.mp hlt)).symm
    · exact fun _ _ _ h => hfallible h
  have hends : (t.record height).run.Ensures C.Answers
      (fun result _ => result = .ok (max stored height)) w := by
    refine Conduct.ensures_guarded (hkeeps (· = w)) rfl (fun _ h => h ▸ hfree) ?body
      (fun result => hkeeps (fun _ => result = .ok (max stored height))) fun _ _ h => h
    rintro _ rfl
    refine hbody.run.mono ?_
    intro result w' h
    cases result with
    | error fault => exact h.elim
    | ok result => exact congrArg Except.ok h
  obtain ⟨result, w', hrun, rfl⟩ := hends.exists_runs
  refine ⟨w', hrun.mono fun w q answer w' hanswer => ?_⟩
  obtain ⟨w₁, rfl, hresponds⟩ := hanswer.responds
  exact hresponds

/-! ### All calls -/

/-- How far some calls have come. No two of them hold the guard, and the stored height is the first
one, or has been written by a call that has been called with it. -/
structure Underway (t : HeadTracker) (calls : ι → HeadCall) (initial : UInt64)
    (events : List (Event ι)) (pool : ι → Program Engine (Except Fault UInt64)) (w : Surroundings)
    (own : ι → Option Guard) : Prop where
  held : ∀ i guard, own i = some guard → guard = t.guard ∧ w.held t.guard = true
  apart : ∀ i j, own i = some t.guard → own j = some t.guard → i = j
  taken : w.held t.guard = true → ∃ i, own i = some t.guard
  stored : ∃ height, t.stored? w = some height ∧ (height = initial ∨ ∃ e ∈ events, ¬t.Spares e ∧
    t.calledWith? events e.caller (calls e.caller) = some height)
  abides : ∀ i, (pool i).Abides (t.updatePact i (calls i)) (t.Returns i (calls i))
    ⟨w, own i, events⟩

namespace Underway

variable {calls : ι → HeadCall} {initial : UInt64}
  {pool pool' : ι → Program Engine (Except Fault UInt64)} {own : ι → Option Guard}

theorem at_start (hfree : w.held t.guard = false) (hinitial : t.stored? w = some initial) :
    t.Underway calls initial [] (fun i => t.called (calls i)) w fun _ => none where
  held := nofun
  apart := nofun
  taken h := absurd (hfree.symm.trans h) Bool.false_ne_true
  stored := ⟨initial, hinitial, .inl rfl⟩
  abides _ := called_returns ⟨rfl, List.forall_mem_nil _⟩ rfl ⟨initial, hinitial⟩

theorem others (H : t.Underway calls initial events pool w own)
    (hstored : t.stored? w' = t.stored? w) (hheld : w'.held t.guard = w.held t.guard) :
    t.Underway calls initial events pool w' own where
  held := hheld.symm ▸ H.held
  apart := H.apart
  taken := hheld.symm ▸ H.taken
  stored := hstored.symm ▸ H.stored
  abides i := by
    refine (H.abides i).shift Returns.stable ⟨rfl, fun _ => hstored, .of_eq hstored, [], ?_,
      List.forall_mem_nil _⟩
    exact (List.append_nil _).symm

/-- No two hold a guard after one of them has taken it that nobody else holds. -/
theorem holder_unique_update {guard : Guard} {after : Option Guard}
    (hunique : ∀ j k, own j = some guard → own k = some guard → j = k)
    (halone : after = some guard → ∀ j, own j = some guard → j = i) (j k : ι)
    (hj : Function.update own i after j = some guard)
    (hk : Function.update own i after k = some guard) : j = k := by
  by_cases hji : j = i
  · subst hji
    rw [Function.update_self] at hj
    by_cases hkj : k = j
    · exact hkj.symm
    · rw [Function.update_of_ne hkj] at hk
      exact (halone hj k hk).symm
  · rw [Function.update_of_ne hji] at hj
    by_cases hki : k = i
    · subst hki
      rw [Function.update_self] at hk
      exact halone hk j hj
    · rw [Function.update_of_ne hki] at hk
      exact hunique j k hj hk

/-- Whoever does not spare the head writes the height that it has been called with. -/
theorem stored_query {e : Event ι} (H : t.Underway calls initial events pool e.before own)
    (heffect : t.Spares e ∨ ∃ height,
      t.calledWith? (events ++ [e]) e.caller (calls e.caller) = some height ∧
        t.stored? e.after = some height) :
    ∃ height, t.stored? e.after = some height ∧ (height = initial ∨ ∃ e' ∈ events ++ [e],
      ¬t.Spares e' ∧
        t.calledWith? (events ++ [e]) e'.caller (calls e'.caller) = some height) := by
  by_cases hspares : t.Spares e
  · obtain ⟨height, hstored, hfrom⟩ := H.stored
    refine ⟨height, hspares.stored?.trans hstored, hfrom.imp_right ?_⟩
    rintro ⟨e', he', hwrites, hcalled⟩
    exact ⟨e', List.mem_append_left _ he', hwrites, calledWith?_append hcalled⟩
  · obtain ⟨height, hcalled, hstored⟩ := heffect.resolve_left hspares
    have hmem : e ∈ events ++ [e] := List.mem_append_right _ List.mem_cons_self
    exact ⟨height, hstored, .inr ⟨e, hmem, hspares, hcalled⟩⟩

theorem query {q : Engine.Query} {next : Engine.Answer q → Program Engine (Except Fault UInt64)}
    {answer : Engine.Answer q} (H : t.Underway calls initial events pool w own)
    (hpool : pool i = .query q next) (hanswer : w.Responds q answer w') :
    t.Rises w w' ∧ t.Underway calls initial (events ++ [⟨i, q, answer, w, w'⟩])
      (Function.update pool i (next answer)) w'
      (Function.update own i (heldAfter (own i) q answer)) := by
  have habides := H.abides i
  rw [hpool] at habides
  obtain ⟨⟨hminds, hguard, heffect⟩, hnext⟩ := (habides _ (Pact.rely_refl _ _)).2 answer
    ⟨w', heldAfter (own i) q answer, events ++ [⟨i, q, answer, w, w'⟩]⟩ ⟨hanswer, rfl, rfl⟩
  obtain ⟨hown, hothers⟩ := heldAfter_held hanswer hminds fun g hg => by
    obtain ⟨rfl, hheld⟩ := H.held i g hg
    exact hheld
  have hrises : t.Rises w w' := heffect.elim (fun h => .of_eq h.stored?) fun h => h.2.1
  refine ⟨hrises, ?held, ?apart, ?taken, ?stored, ?abides⟩
  case held =>
    intro j guard hj
    by_cases hji : j = i
    · subst hji
      rw [Function.update_self] at hj
      obtain rfl := hguard guard hj
      exact ⟨rfl, (hown _ hj).1⟩
    · rw [Function.update_of_ne hji] at hj
      obtain ⟨rfl, hheld⟩ := H.held j guard hj
      exact ⟨rfl, hothers _ (fun hi => hji (H.apart j i hj hi)) hheld⟩
  case apart =>
    refine holder_unique_update H.apart fun hi j hj => ?_
    -- A guard that is taken now was free, or the call has held it before.
    rcases (hown _ hi).2 with hbefore | hfree
    · exact H.apart j i hj hbefore
    · exact absurd (hfree.symm.trans (H.held j _ hj).2) Bool.false_ne_true
  case taken =>
    intro hheld
    rcases heldAfter_or_held hanswer hminds hheld with hi | ⟨hi, hbefore⟩
    · exact ⟨i, (Function.update_self ..).trans hi⟩
    · obtain ⟨j, hj⟩ := H.taken hbefore
      have hji : j ≠ i := fun h => hi (h ▸ hj)
      exact ⟨j, (Function.update_of_ne hji ..).trans hj⟩
  case stored =>
    let e : Event ι := ⟨i, q, answer, w, w'⟩
    have hwrites : t.Spares e ∨ ∃ height,
        t.calledWith? (events ++ [e]) i (calls i) = some height ∧ t.stored? w' = some height :=
      heffect.imp_right fun h => h.2.2
    exact H.stored_query (e := e) hwrites
  case abides =>
    intro j
    by_cases hji : j = i
    · subst hji
      rwa [Function.update_self, Function.update_self]
    · rw [Function.update_of_ne hji, Function.update_of_ne hji]
      refine (H.abides j).shift Returns.stable ⟨rfl, fun hj => ?_, hrises, _, rfl, ?_⟩
      · rcases heffect with hspares | ⟨hi, -⟩
        · exact hspares.stored?
        · exact absurd (H.apart j i hj hi) hji
      · intro e he
        rw [List.mem_singleton.mp he]
        exact Ne.symm hji

/-- However the calls go on, the stored height does not decrease. -/
theorem goesOn {others : Surroundings → Surroundings → Prop}
    (hothers : ∀ w w', others w w' →
      t.stored? w' = t.stored? w ∧ w'.held t.guard = w.held t.guard)
    (H : t.Underway calls initial events pool w own)
    (hrun : Interleaved others pool w more pool' w') :
    t.Rises w w' ∧ ∃ own', t.Underway calls initial (events ++ more) pool' w' own' := by
  induction hrun with
  | refl => exact ⟨.refl, own, by rwa [List.append_nil]⟩
  | others _ hstep ih =>
    obtain ⟨hrises, own', H'⟩ := ih
    obtain ⟨hstored, hheld⟩ := hothers _ _ hstep
    exact ⟨hrises.trans (.of_eq hstored), own', H'.others hstored hheld⟩
  | query _ hpool hanswer ih =>
    obtain ⟨hrises, own', H'⟩ := ih
    obtain ⟨hrises', H''⟩ := H'.query hpool hanswer
    exact ⟨hrises.trans hrises', _, by rwa [← List.append_assoc]⟩

/-- A call that asks for the guard holds none, and asks for no other. -/
theorem acquires {guard : Guard} {next : Unit → Program Engine (Except Fault UInt64)}
    (H : t.Underway calls initial events pool w own)
    (hpool : pool i = .query (.acquire guard) next) : own i = none ∧ guard = t.guard := by
  have habides := H.abides i
  rw [hpool] at habides
  -- Once the guard is free the call takes it.
  let free : Surroundings := { w with held := fun _ => false }
  have hrely : (t.updatePact i (calls i)).rely ⟨w, own i, events⟩ ⟨free, own i, events⟩ :=
    ⟨rfl, fun _ => stored?_of_store rfl, .of_eq (stored?_of_store rfl), [], by simp,
      List.forall_mem_nil _⟩
  have hacquired : free.Responds (.acquire guard) () (free.withGuard guard true) := .inl ⟨rfl, rfl⟩
  obtain ⟨⟨hminds, hguard, -⟩, -⟩ := (habides _ hrely).2 ()
    ⟨free.withGuard guard true, some guard, events ++ [⟨i, .acquire guard, (), free, _⟩]⟩
    ⟨hacquired, rfl, rfl⟩
  exact ⟨hminds, hguard guard rfl⟩

theorem own_of_returned {result : Except Fault UInt64}
    (H : t.Underway calls initial events pool w own) (hpool : pool i = .pure result) :
    own i = none := by
  have hreturns := H.abides i
  rw [hpool] at hreturns
  cases result with
  | error fault => exact Sparing.own hreturns
  | ok result => exact hreturns.1

/-- The calls do not wait for each other for ever. -/
theorem exists_answers (H : t.Underway calls initial events pool w own)
    (hwaits : ∀ result, pool i ≠ .pure result) :
    ∃ j q next answer w', pool j = .query q next ∧ w.Answers q answer w' := by
  have hgoes : ∀ j, (∀ result, pool j ≠ .pure result) →
      (∀ guard next, pool j = .query (.acquire guard) next → w.held guard = false) →
      ∃ j q next answer w', pool j = .query q next ∧ w.Answers q answer w' := by
    intro j hj hfree
    cases hpool : pool j with
    | pure result => exact absurd hpool (hj result)
    | query q next =>
      obtain ⟨answer, w', hanswer⟩ := Surroundings.exists_answers q fun guard h => by
        subst h
        exact hfree guard next hpool
      exact ⟨j, q, next, answer, w', hpool, hanswer⟩
  cases hheld : w.held t.guard with
  | false =>
    refine hgoes i hwaits fun guard next hpool => ?_
    obtain ⟨-, rfl⟩ := H.acquires hpool
    exact hheld
  | true =>
    obtain ⟨j, hj⟩ := H.taken hheld
    refine hgoes j (fun result hpool => ?_) fun guard next hpool => ?_
    · cases (H.own_of_returned hpool).symm.trans hj
    · cases (H.acquires hpool).1.symm.trans hj

end Underway

/-- However calls that update one head run at the same time, and whichever of their queries fail:

* the stored height never decreases, and while a call has not returned, one of them can go on;
* when all have returned, the stored height is the largest of the one there was before and those
  that the calls have been called with that have succeeded;
* what a call succeeds with is at least the height that it has been called with, and at most the
  stored one;
* a call that fails has left the store alone, but that it may have created the head with 0. -/
theorem concurrent_updates_keep_highest {calls : ι → HeadCall} {initial : UInt64}
    {w₀ w : Surroundings} {pool : ι → Program Engine (Except Fault UInt64)}
    {others : Surroundings → Surroundings → Prop}
    (hothers : ∀ w w', others w w' →
      t.stored? w' = t.stored? w ∧ w'.held t.guard = w.held t.guard)
    (hfree : w₀.held t.guard = false) (hinitial : t.stored? w₀ = some initial)
    (hrun : Interleaved others (fun i => t.called (calls i)) w₀ events pool w) :
    (∀ more pool' w', Interleaved others pool w more pool' w' → t.Rises w w') ∧
    (∀ i, (∀ result, pool i ≠ .pure result) →
      ∃ j q next answer w', pool j = .query q next ∧ w.Answers q answer w') ∧
    (∃ stored, t.stored? w = some stored ∧
      ((∀ i, ∃ result, pool i = .pure result) →
        IsGreatest {height | height = initial ∨ ∃ i result, pool i = .pure (.ok result) ∧
          t.calledWith? events i (calls i) = some height} stored) ∧
      ∀ i result, pool i = .pure (.ok result) →
        ∃ height, t.calledWith? events i (calls i) = some height ∧
          height ≤ result ∧ result ≤ stored) ∧
    ∀ i fault, pool i = .pure (.error fault) → ∀ e ∈ events, e.caller = i → t.Spares e := by
  obtain ⟨hrises, own, H⟩ := (Underway.at_start hfree hinitial).goesOn hothers hrun
  rw [List.nil_append] at H
  have hreturns : ∀ i result, pool i = .pure result →
      t.Returns i (calls i) result ⟨w, own i, events⟩ := by
    intro i result hpool
    have habides := H.abides i
    rwa [hpool] at habides
  obtain ⟨stored, hstored, hfrom⟩ := H.stored
  have hbetween : ∀ i result, pool i = .pure (.ok result) →
      ∃ height, t.calledWith? events i (calls i) = some height ∧
        height ≤ result ∧ result ≤ stored := by
    intro i result hpool
    obtain ⟨-, ⟨stored', hstored', hbelow⟩, height, hcalled, hle⟩ := hreturns i _ hpool
    obtain rfl := Option.some.inj (hstored.symm.trans hstored')
    exact ⟨height, hcalled, hle, hbelow⟩
  refine ⟨fun more pool' w' hmore => (H.goesOn hothers hmore).1,
    fun i hwaits => H.exists_answers hwaits,
    ⟨stored, hstored, fun hall => ⟨?attained, ?bounds⟩, hbetween⟩, ?failed⟩
  case attained =>
    rcases hfrom with hsame | ⟨e, he, hwrites, hcalled⟩
    · exact .inl hsame
    · -- The call that has written the stored height cannot have failed.
      obtain ⟨result, hpool⟩ := hall e.caller
      cases result with
      | error fault => exact absurd (Sparing.spares (hreturns _ _ hpool) e he rfl) hwrites
      | ok result => exact .inr ⟨e.caller, result, hpool, hcalled⟩
  case bounds =>
    rintro height (rfl | ⟨i, result, hpool, hcalled⟩)
    · obtain ⟨stored', hstored', hle⟩ := hrises height hinitial
      obtain rfl := Option.some.inj (hstored.symm.trans hstored')
      exact hle
    · obtain ⟨height', hcalled', hle, hbelow⟩ := hbetween i result hpool
      obtain rfl := Option.some.inj (hcalled.symm.trans hcalled')
      exact UInt64.le_trans hle hbelow
  case failed => exact fun i fault hpool => Sparing.spares (hreturns i _ hpool)

def sample : HeadTracker := ⟨"mainnet", .poll, 0, [], defaultResubscribeDelay⟩

/-- One call asks the node, and one has seen a header at 40. -/
def sampleCalls (refreshes : Bool) : HeadCall := if refreshes then .refresh else .record 40

def unreachable : Fault := .reported "unreachable" []

/-- The node cannot be asked, and 40 is recorded above the stored 30. -/
theorem sample_keeps_highest : ∃ events pool w,
    Interleaved Eq (fun i => sample.called (sampleCalls i)) .sample events pool w ∧
      (∀ i, pool i = .pure (if i then .error unreachable else .ok 40)) ∧
      sample.stored? w = some 40 ∧ ∀ e ∈ events, e.caller = true → sample.Spares e := by
  have hholds : Surroundings.sample.store.checkpoints.Holds (CheckpointKey.head sample.chain) 30 :=
    Checkpoints.holds_put ..
  have hinitial : sample.stored? .sample = some 30 := stored?_of_holds hholds
  have hasked : Surroundings.sample.Responds (.headHeight 0) (.error unreachable) .sample :=
    .inr ⟨rfl, unreachable, rfl⟩
  have hrefreshes : (sample.called (sampleCalls true)).Runs Surroundings.Responds .sample
      (.error unreachable) .sample := .query hasked .pure
  obtain ⟨w, hrecords⟩ : ∃ w, (sample.called (sampleCalls false)).Runs Surroundings.Responds .sample
      (.ok 40) w := record_runs rfl hinitial
  have hstart : Interleaved Eq (fun i => sample.called (sampleCalls i)) .sample [] _ .sample :=
    .refl
  obtain ⟨events, hrefreshed⟩ := hstart.of_runs hrefreshes
  obtain ⟨more, hrun⟩ := hrefreshed.of_runs (i := false) hrecords
  have hreturned : ∀ i, Function.update (Function.update (fun i => sample.called (sampleCalls i))
      true (.pure (.error unreachable))) false (.pure (.ok 40)) i =
        .pure (if i then .error unreachable else .ok 40) := by
    intro i
    cases i with
    | true => rfl
    | false => rfl
  obtain ⟨-, -, ⟨stored, hstored, hall, -⟩, hfailed⟩ := concurrent_updates_keep_highest
    (by rintro _ _ rfl; exact ⟨rfl, rfl⟩) rfl hinitial hrun
  obtain ⟨hfrom, hbound⟩ := hall fun i => ⟨_, hreturned i⟩
  have h40 : (40 : UInt64) ≤ stored := hbound (.inr ⟨false, 40, rfl, rfl⟩)
  refine ⟨_, _, w, hrun, hreturned, ?_, hfailed true unreachable rfl⟩
  rcases hfrom with rfl | ⟨i, result, hpool, hcalled⟩
  · exact absurd h40 (by decide)
  · have hok := (hreturned i).symm.trans hpool
    cases i with
    | true => cases hok
    | false =>
      cases hcalled
      exact hstored

end HeadTracker

end ChainIngest
