import Mathlib.Logic.Function.Basic
import ChainIngest.Store
import ChainIngest.Proofs.CheckpointHeights
import ChainIngest.Proofs.Semantics

/-! The surroundings of an engine: a store in memory, what the chains hold, the guards that are
held, and whether the engine is cancelled. A `Conduct` says which calls may fail, and what others
may do to the surroundings between any two queries; a call that fails has no effect.

For the actions of an engine, `Action.Ensures` says what holds when they succeed and what holds
when they stop with a fault. There is one rule for each query. -/

namespace ChainIngest

/-- What chains and price contracts tell at one moment. -/
structure ChainContents where
  head : Node → UInt64
  block : Node → UInt64 → Block
  blockTime : Node → UInt64 → UInt64
  logs : Node → Address → UInt64 → UInt64 → List EventLog
  decimals : Node → Address → UInt8
  oracleAnswer : Address → BitVec 256
  poolPrice : Address → BitVec 256

/-- The surroundings of an engine at one moment. -/
structure Surroundings where
  store : Store
  chains : ChainContents
  held : Guard → Bool
  cancelled : Bool

namespace Surroundings

/-- The answer to a query that does not fail, with the surroundings after it. A guard that is held
cannot be acquired. Times and headers may be anything. -/
def Answers (w : Surroundings) : (q : Engine.Query) → Engine.Answer q → Surroundings → Prop
  | .readCheckpoint key initial, answer, w' =>
    answer = .ok (w.store.read key initial).1 ∧
      w' = { w with store := (w.store.read key initial).2 }
  | .writeCheckpoint key value, answer, w' =>
    answer = .ok () ∧ w' = { w with store := w.store.write key value }
  | .insertTransfer t, answer, w' =>
    answer = .ok (w.store.insertTransfer t).1 ∧
      w' = { w with store := (w.store.insertTransfer t).2 }
  | .insertSnapshot snapshot, answer, w' =>
    answer = .ok () ∧ w' = { w with store := w.store.insertSnapshot snapshot }
  | .latestSnapshot, answer, w' => answer = .ok w.store.latestSnapshot ∧ w' = w
  | .whitelist chainId, answer, w' => answer = .ok (w.store.whitelist chainId) ∧ w' = w
  | .headHeight node, answer, w' => answer = .ok (w.chains.head node) ∧ w' = w
  | .block node number, answer, w' => answer = .ok (w.chains.block node number) ∧ w' = w
  | .blockTime node number, answer, w' => answer = .ok (w.chains.blockTime node number) ∧ w' = w
  | .transferLogs node contract first last, answer, w' =>
    answer = .ok (w.chains.logs node contract first last) ∧ w' = w
  | .tokenDecimals node contract, answer, w' =>
    answer = .ok (w.chains.decimals node contract) ∧ w' = w
  | .oracleAnswer oracle, answer, w' => answer = .ok (w.chains.oracleAnswer oracle) ∧ w' = w
  | .poolPrice pool, answer, w' => answer = .ok (w.chains.poolPrice pool) ∧ w' = w
  | .acquire guard, _, w' =>
    w.held guard = false ∧ w' = { w with held := Function.update w.held guard true }
  | .tryAcquire guard, answer, w' =>
    answer = !w.held guard ∧ w' = { w with held := Function.update w.held guard true }
  | .release guard, _, w' => w' = { w with held := Function.update w.held guard false }
  | .isCancelled, answer, w' => answer = w.cancelled ∧ w' = w
  | .subscribe _, _, w' | .nextHeader _, _, w' | .now, _, w' | .pause _, _, w'
  | .waitUntil _, _, w' | .tell _, _, w' => w' = w

/-- The height that a checkpoint holds, or would be created with. -/
def height? (w : Surroundings) (key : String) (initial : UInt64) : Option UInt64 :=
  w.store.checkpoints.height? key initial

/-- The surroundings with another ledger. -/
def withLedger (w : Surroundings) (l : Ledger) : Surroundings :=
  { w with store := { w.store with ledger := l } }

/-- The surroundings with other checkpoints. -/
def withCheckpoints (w : Surroundings) (c : Checkpoints) : Surroundings :=
  { w with store := { w.store with checkpoints := c } }

/-- The surroundings after a checkpoint has been read as a height. -/
def afterRead (w : Surroundings) (key : String) (initial : UInt64) : Surroundings :=
  w.withCheckpoints (w.store.checkpoints.getOrCreate key (Number.showUInt64 initial)).2

/-- The surroundings after a height has been written to a checkpoint. -/
def afterWrite (w : Surroundings) (key : String) (height : UInt64) : Surroundings :=
  w.withCheckpoints (w.store.checkpoints.put key (Number.showUInt64 height))

/-- The surroundings with a guard held or free. -/
def withGuard (w : Surroundings) (guard : Guard) (isHeld : Bool) : Surroundings :=
  { w with held := Function.update w.held guard isHeld }

/-- Taking a guard that nobody holds and giving it back changes nothing. -/
theorem withGuard_free {w : Surroundings} {guard : Guard} (hfree : w.held guard = false) :
    (w.withGuard guard true).withGuard guard false = w := by
  have hheld : Function.update w.held guard false = w.held :=
    Function.update_eq_self_iff.mpr hfree.symm
  simp only [withGuard, Function.update_idem, hheld]

end Surroundings

/-- The answer to a call that fails. What is no call, such as a wait, cannot fail. -/
def Engine.failure? : (q : Engine.Query) → Fault → Option (Engine.Answer q)
  | .readCheckpoint .., fault | .writeCheckpoint .., fault | .insertTransfer .., fault
  | .insertSnapshot .., fault | .latestSnapshot, fault | .whitelist .., fault
  | .headHeight .., fault | .block .., fault | .blockTime .., fault | .transferLogs .., fault
  | .tokenDecimals .., fault | .oracleAnswer .., fault | .poolPrice .., fault =>
    some (.error fault)
  | _, _ => none

/-- How surroundings behave. -/
structure Conduct where
  /-- The calls that may fail. -/
  mayFail : Engine.Query → Prop
  /-- What others may do before a query is answered. -/
  drift : Surroundings → Surroundings → Prop
  drift_refl : ∀ w, drift w w

namespace Conduct

variable {C : Conduct}

/-- Before a query is answered, others may have done something. -/
def Answers (C : Conduct) : Answering Engine Surroundings := fun w q answer w' =>
  ∃ w₁, C.drift w w₁ ∧
    (w₁.Answers q answer w' ∨
      C.mayFail q ∧ w' = w₁ ∧ ∃ fault, Engine.failure? q fault = some answer)

/-- Some call may fail. -/
def Fallible (C : Conduct) : Prop := ∃ q, C.mayFail q

/-- What others leave true. -/
def Keeps (C : Conduct) (P : Surroundings → Prop) : Prop := ∀ {w w'}, P w → C.drift w w' → P w'

theorem ensures_ask {q : Engine.Query} {P : Surroundings → Prop}
    {post : Engine.Answer q → Surroundings → Prop} (keeps : C.Keeps P) (hw : P w)
    (answered : ∀ w, P w → ∃ answer w', w.Answers q answer w')
    (ok : ∀ w answer w', P w → w.Answers q answer w' → post answer w')
    (fails : ∀ w fault answer, P w → C.mayFail q → Engine.failure? q fault = some answer →
      post answer w) :
    (Engine.ask q).Ensures C.Answers post w := by
  constructor
  · obtain ⟨answer, w', h⟩ := answered w hw
    exact ⟨answer, w', w, C.drift_refl w, .inl h⟩
  · intro answer w' hanswer
    obtain ⟨w₁, hdrift, hanswer⟩ := hanswer
    have hP : P w₁ := keeps hw hdrift
    rcases hanswer with hanswer | ⟨hq, rfl, fault, hfault⟩
    · exact ok w₁ answer w' hP hanswer
    · exact fails w' fault answer hP hq hfault

/-- A call that does not fail has one answer, and one effect. -/
theorem ensures_call {q : Engine.Query} {P : Surroundings → Prop}
    {post : Engine.Answer q → Surroundings → Prop} (value : Surroundings → Engine.Answer q)
    (after : Surroundings → Surroundings) (keeps : C.Keeps P) (hw : P w)
    (answers : ∀ w answer w', w.Answers q answer w' ↔ answer = value w ∧ w' = after w)
    (ok : ∀ w, P w → post (value w) (after w))
    (fails : ∀ w fault answer, P w → C.Fallible → Engine.failure? q fault = some answer →
      post answer w) :
    (Engine.ask q).Ensures C.Answers post w := by
  apply ensures_ask keeps hw
  · intro w _
    exact ⟨value w, after w, (answers w _ _).mpr ⟨rfl, rfl⟩⟩
  · intro w answer w' hP hanswer
    obtain ⟨rfl, rfl⟩ := (answers w answer w').mp hanswer
    exact ok w hP
  · intro w fault answer hP hq hfault
    exact fails w fault answer hP ⟨q, hq⟩ hfault

/-- A program that runs while a guard is held begins with the guard taken and ends with it given
back. -/
theorem ensures_guarded {guard : Guard} {p : Program Engine α} {P : Surroundings → Prop}
    {post post' : α → Surroundings → Prop} (keeps : C.Keeps P) (hw : P w)
    (free : ∀ w, P w → w.held guard = false)
    (body : ∀ w, P w → p.Ensures C.Answers post (w.withGuard guard true))
    (keepsPost : ∀ value, C.Keeps (post value))
    (release : ∀ value w, post value w → post' value (w.withGuard guard false)) :
    (Engine.guarded guard p).Ensures C.Answers post' w := by
  apply Program.Ensures.bind
  apply ensures_ask keeps hw
  case answered => exact fun w hP => ⟨(), _, free w hP, rfl⟩
  case fails => exact fun _ _ _ _ _ hfault => nomatch hfault
  intro w _ w' hP hacquired
  obtain ⟨-, rfl⟩ := hacquired
  apply Program.Ensures.bind
  refine (body w hP).mono ?_
  intro value w hpost
  apply Program.Ensures.bind
  apply ensures_ask (keepsPost value) hpost
  case answered => exact fun w _ => ⟨(), _, rfl⟩
  case fails => exact fun _ _ _ _ _ hfault => nomatch hfault
  intro w _ w' hpost hreleased
  obtain rfl := hreleased
  exact release value w hpost

end Conduct

/-- Every run of an action ends; if it succeeds then `post` holds, and if not then `fail`. -/
def Action.Ensures (C : Conduct) (post : α → Surroundings → Prop)
    (fail : Fault → Surroundings → Prop) (a : Action α) (w : Surroundings) : Prop :=
  Program.Ensures C.Answers (fun
    | .ok value, w' => post value w'
    | .error fault, w' => fail fault w') a.run w

namespace Action.Ensures

variable {C : Conduct} {α β : Type} {w : Surroundings} {P : Surroundings → Prop}
  {post : α → Surroundings → Prop} {fail : Fault → Surroundings → Prop}

theorem run {a : Action α} (H : a.Ensures C post fail w) :
    Program.Ensures C.Answers (fun
      | .ok value, w' => post value w'
      | .error fault, w' => fail fault w') a.run w := H

theorem of_run {a : Action α} (H : Program.Ensures C.Answers (fun
      | .ok value, w' => post value w'
      | .error fault, w' => fail fault w') a.run w) : a.Ensures C post fail w := H

theorem pure (h : post value w) : Action.Ensures C post fail (Pure.pure value) w := h

theorem throw (h : fail fault w) : Action.Ensures C post fail (MonadExcept.throw fault) w := h

theorem bind {a : Action β} {k : β → Action α}
    (H : a.Ensures C (fun value w' => (k value).Ensures C post fail w') fail w) :
    (a >>= k).Ensures C post fail w := by
  refine Program.Ensures.bind (Program.Ensures.mono H ?_)
  intro result w' h
  cases result with
  | error fault => exact h
  | ok value => exact h

theorem mono {post' : α → Surroundings → Prop} {fail' : Fault → Surroundings → Prop}
    {a : Action α} (H : a.Ensures C post fail w)
    (hpost : ∀ value w', post value w' → post' value w')
    (hfail : ∀ fault w', fail fault w' → fail' fault w') : a.Ensures C post' fail' w := by
  refine Program.Ensures.mono H ?_
  intro result w' h
  cases result with
  | error fault => exact hfail fault w' h
  | ok value => exact hpost value w' h

/-- A program that cannot stop with a fault, as an action. -/
theorem lift {p : Program Engine α} (H : p.Ensures C.Answers post w) :
    Action.Ensures C post fail (liftM p) w :=
  Program.Ensures.bind (Program.Ensures.mono H fun _ _ h => h)

theorem tell {post : Unit → Surroundings → Prop} (keeps : C.Keeps P) (hw : P w)
    (h : ∀ w, P w → post () w) :
    Action.Ensures C post fail (liftM (Engine.tell notice)) w :=
  lift <| Conduct.ensures_call (fun _ => ()) id keeps hw
    (fun _ _ _ => (and_iff_right rfl).symm) h (fun _ _ _ _ _ hfault => nomatch hfault)

theorem readCheckpoint {post : String → Surroundings → Prop} (keeps : C.Keeps P) (hw : P w)
    (ok : ∀ w, P w → post (w.store.checkpoints.getOrCreate key text).1
      (w.withCheckpoints (w.store.checkpoints.getOrCreate key text).2))
    (fails : ∀ w fault, P w → C.Fallible → fail fault w) :
    Action.Ensures C post fail (Engine.readCheckpoint key text) w :=
  Conduct.ensures_call (fun w => .ok (w.store.checkpoints.getOrCreate key text).1)
    (fun w => w.withCheckpoints (w.store.checkpoints.getOrCreate key text).2) keeps hw
    (fun _ _ _ => .rfl) ok
    (fun w fault _ hP hq hfault => Option.some.inj hfault ▸ fails w fault hP hq)

theorem writeHeight {post : Unit → Surroundings → Prop} (keeps : C.Keeps P) (hw : P w)
    (ok : ∀ w, P w → post () (w.afterWrite key height))
    (fails : ∀ w fault, P w → C.Fallible → fail fault w) :
    Action.Ensures C post fail (Engine.writeHeight key height) w :=
  Conduct.ensures_call (fun _ => .ok ()) (fun w => w.afterWrite key height) keeps hw
    (fun _ _ _ => .rfl) ok
    (fun w fault _ hP hq hfault => Option.some.inj hfault ▸ fails w fault hP hq)

theorem insertTransfer {post : Bool → Surroundings → Prop} (keeps : C.Keeps P) (hw : P w)
    (ok : ∀ w, P w → post (w.store.ledger.insert t).1 (w.withLedger (w.store.ledger.insert t).2))
    (fails : ∀ w fault, P w → C.Fallible → fail fault w) :
    Action.Ensures C post fail (Engine.insertTransfer t) w :=
  Conduct.ensures_call (fun w => .ok (w.store.ledger.insert t).1)
    (fun w => w.withLedger (w.store.ledger.insert t).2) keeps hw (fun _ _ _ => .rfl) ok
    (fun w fault _ hP hq hfault => Option.some.inj hfault ▸ fails w fault hP hq)

theorem whitelist {post : List Address → Surroundings → Prop} (keeps : C.Keeps P) (hw : P w)
    (ok : ∀ w, P w → post (w.store.whitelist chainId) w)
    (fails : ∀ w fault, P w → C.Fallible → fail fault w) :
    Action.Ensures C post fail (Engine.whitelist chainId) w :=
  Conduct.ensures_call (fun w => .ok (w.store.whitelist chainId)) id keeps hw
    (fun _ _ _ => .rfl) ok
    (fun w fault _ hP hq hfault => Option.some.inj hfault ▸ fails w fault hP hq)

theorem block {post : Block → Surroundings → Prop} (keeps : C.Keeps P) (hw : P w)
    (ok : ∀ w, P w → post (w.chains.block node number) w)
    (fails : ∀ w fault, P w → C.Fallible → fail fault w) :
    Action.Ensures C post fail (Engine.block node number) w :=
  Conduct.ensures_call (fun w => .ok (w.chains.block node number)) id keeps hw
    (fun _ _ _ => .rfl) ok
    (fun w fault _ hP hq hfault => Option.some.inj hfault ▸ fails w fault hP hq)

theorem blockTime {post : UInt64 → Surroundings → Prop} (keeps : C.Keeps P) (hw : P w)
    (ok : ∀ w, P w → post (w.chains.blockTime node number) w)
    (fails : ∀ w fault, P w → C.Fallible → fail fault w) :
    Action.Ensures C post fail (Engine.blockTime node number) w :=
  Conduct.ensures_call (fun w => .ok (w.chains.blockTime node number)) id keeps hw
    (fun _ _ _ => .rfl) ok
    (fun w fault _ hP hq hfault => Option.some.inj hfault ▸ fails w fault hP hq)

theorem transferLogs {post : List EventLog → Surroundings → Prop} (keeps : C.Keeps P) (hw : P w)
    (ok : ∀ w, P w → post (w.chains.logs node contract first last) w)
    (fails : ∀ w fault, P w → C.Fallible → fail fault w) :
    Action.Ensures C post fail (Engine.transferLogs node contract first last) w :=
  Conduct.ensures_call (fun w => .ok (w.chains.logs node contract first last)) id keeps hw
    (fun _ _ _ => .rfl) ok
    (fun w fault _ hP hq hfault => Option.some.inj hfault ▸ fails w fault hP hq)

-- From here on actions are taken apart by the rules alone; tactics that look for the form of a goal
-- would otherwise run the program.
attribute [irreducible] Action.Ensures

/-- A checkpoint that holds a number can be read unless the call fails. -/
theorem readHeight {post : UInt64 → Surroundings → Prop} (keeps : C.Keeps P) (hw : P w)
    (numeric : ∀ w, P w → ∃ height, w.height? key initial = some height)
    (ok : ∀ w height, P w → w.height? key initial = some height →
      post height (w.afterRead key initial))
    (fails : ∀ w fault, P w → C.Fallible → fail fault w) :
    Action.Ensures C post fail (Engine.readHeight key initial) w := by
  unfold Engine.readHeight
  apply bind
  apply readCheckpoint keeps hw
  · intro w hP
    obtain ⟨height, hheight⟩ := numeric w hP
    rw [Checkpoints.height?_eq_some_iff.mp hheight]
    exact pure (ok w height hP hheight)
  · exact fails

end Action.Ensures

end ChainIngest
