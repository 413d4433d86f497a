import ChainIngest.Proofs.Chronicles
import ChainIngest.Proofs.Evaluation
import ChainIngest.Proofs.IdleTicks

/-! Ticks that fail. A tick gives up at the first call that fails, so up to there it has done what
the tick without failures does; the last block is written last, and only then is a tick past
failing. -/

namespace ChainIngest

open Engine (Failed)

/-- A program stops with the fault of the first call that fails. -/
def Program.GivesUp : Program Engine (Except Fault α) → Prop
  | .pure _ => True
  | .query q next =>
    (∀ fault answer, Engine.failure? q fault = some answer → next answer = .pure (.error fault)) ∧
      ∀ answer, (next answer).GivesUp

def Action.GivesUp (a : Action α) : Prop := Program.GivesUp a.run

/-! ### What is left of a run in which a call fails -/

/-- Whichever calls fail, a program that gives up has inserted the first of the records that it
inserts when no call fails. -/
theorem Program.GivesUp.inserted {p : Program Engine (Except Fault α)} {Q : Engine.Query → Prop}
    {l : Ledger} {st st₀ : Chronicle} {result result₀ : Except Fault α}
    (H : p.GivesUp) (hasks : p.Asks Q)
    (unique : ∀ {w w₁ w₂ : Surroundings} {q : Engine.Query} {answer answer' : Engine.Answer q},
      Q q → w.Answers q answer w₁ → w.Answers q answer' w₂ → answer' = answer ∧ w₂ = w₁)
    (hst : st.Ledgers l) (hclean : p.Runs (Chronicle.noting Surroundings.Answers) st result₀ st₀)
    (hrun : p.Runs (Conduct.undisturbed mayFail).Answers st.world result w') :
    ∃ ts, ts <+: insertions st₀.events ∧ w'.store.ledger = l.insertAll ts := by
  induction p generalizing st with
  | pure value =>
    cases hclean
    cases hrun
    exact ⟨_, List.prefix_rfl, hst⟩
  | query q next ih =>
    have hprefix : insertions st.events <+: insertions st₀.events :=
      (Chronicle.events_prefix hclean).filterMap _
    cases hclean with
    | @query _ _ answer st₁ _ _ _ hnoted hclean =>
    cases hrun with
    | @query _ _ answer' w₁ _ _ _ hanswer hrun =>
    obtain ⟨_, rfl, hanswer | ⟨-, rfl, fault, hfault⟩⟩ := hanswer
    · obtain ⟨hanswer₀, hst₁⟩ := hnoted
      obtain ⟨rfl, rfl⟩ := unique hasks.1 hanswer₀ hanswer
      refine ih answer' (H.2 answer') (hasks.2 answer') ?_ hclean hrun
      rw [hst₁]
      exact hst.after hanswer
    · -- The call has failed, and nothing comes after it.
      rw [H.1 fault answer' hfault] at hrun
      cases hrun
      exact ⟨_, hprefix, hst⟩

namespace Action.GivesUp

theorem pure (value : α) : Action.GivesUp (Pure.pure value) := trivial

theorem throw (fault : Fault) : Action.GivesUp (MonadExcept.throw fault : Action α) := trivial

theorem bind {a : Action α} {k : α → Action β} (H : a.GivesUp) (h : ∀ value, (k value).GivesUp) :
    (a >>= k).GivesUp := by
  suffices hbind : ∀ p : Program Engine (Except Fault α), p.GivesUp →
      Program.GivesUp (p.bind (ExceptT.bindCont k)) from hbind a.run H
  intro p hp
  induction p with
  | pure result =>
    cases result with
    | error fault => exact trivial
    | ok value => exact h value
  | query q next ih =>
    refine ⟨fun fault answer hfault => ?_, fun answer => ih answer (hp.2 answer)⟩
    exact congrArg (·.bind (ExceptT.bindCont k)) (hp.1 fault answer hfault)

/-- What is only told cannot fail. -/
theorem tell (notice : Notice) : Action.GivesUp (liftM (Engine.tell notice) : Action Unit) :=
  ⟨nofun, fun _ => trivial⟩

theorem insertTransfer (t : Transfer) : Action.GivesUp (Engine.insertTransfer t) :=
  ⟨fun _ _ h => congrArg Program.pure (Option.some.inj h).symm, fun _ => trivial⟩

theorem whitelist (chainId : UInt64) : Action.GivesUp (Engine.whitelist chainId) :=
  ⟨fun _ _ h => congrArg Program.pure (Option.some.inj h).symm, fun _ => trivial⟩

theorem block (node : Node) (number : UInt64) : Action.GivesUp (Engine.block node number) :=
  ⟨fun _ _ h => congrArg Program.pure (Option.some.inj h).symm, fun _ => trivial⟩

theorem blockTime (node : Node) (number : UInt64) :
    Action.GivesUp (Engine.blockTime node number) :=
  ⟨fun _ _ h => congrArg Program.pure (Option.some.inj h).symm, fun _ => trivial⟩

theorem transferLogs (node : Node) (contract : Address) (first last : UInt64) :
    Action.GivesUp (Engine.transferLogs node contract first last) :=
  ⟨fun _ _ h => congrArg Program.pure (Option.some.inj h).symm, fun _ => trivial⟩

theorem readHeight (key : String) (initial : UInt64) :
    Action.GivesUp (Engine.readHeight key initial) := by
  have hread : Action.GivesUp (Engine.readCheckpoint key (Number.showUInt64 initial)) :=
    ⟨fun _ _ h => congrArg Program.pure (Option.some.inj h).symm, fun _ => trivial⟩
  refine hread.bind fun text => ?_
  cases Number.readUInt64 (Text.trim text) with
  | ok height => exact .pure height
  | error reason => exact .throw _

theorem writeHeight (key : String) (height : UInt64) :
    Action.GivesUp (Engine.writeHeight key height) :=
  ⟨fun _ _ h => congrArg Program.pure (Option.some.inj h).symm, fun _ => trivial⟩

end Action.GivesUp

namespace Scraper

variable {s : Scraper}

theorem scanTransactions_givesUp (recipients : List Address) (block : Block)
    (txs : List Transaction) (emitted : Nat) :
    (s.scanTransactions recipients block txs emitted).GivesUp := by
  induction txs generalizing emitted with
  | nil => exact .pure _
  | cons tx rest ih =>
    rw [scanTransactions]
    split
    · cases tx.sender with
      | none => exact (Action.GivesUp.tell _).bind fun _ => ih emitted
      | some sender => exact (Action.GivesUp.insertTransfer _).bind fun _ => ih _
    · exact ih emitted

theorem scanBlocks_givesUp (recipients : List Address) (count : Nat) (number : UInt64)
    (emitted : Nat) : (s.scanBlocks recipients count number emitted).GivesUp := by
  induction count generalizing number emitted with
  | zero => exact .pure _
  | succ count ih =>
    exact (Action.GivesUp.block ..).bind fun block =>
      (scanTransactions_givesUp recipients block ..).bind fun emitted => ih _ emitted

theorem scanNative_givesUp (window : Window) : (s.scanNative window).GivesUp := by
  unfold scanNative allRecipients
  rw [bind_assoc]
  refine (Action.GivesUp.whitelist _).bind fun stored => ?_
  simp only [pure_bind]
  split
  · exact (Action.GivesUp.tell _).bind fun _ => .pure _
  · exact scanBlocks_givesUp ..

theorem logRecord?_givesUp (contract : Address) (log : EventLog) :
    (s.logRecord? contract log).GivesUp := by
  unfold logRecord? logRecordBy?
  split
  · next block index tx _ _ _ =>
    split
    · exact (Action.GivesUp.tell _).bind fun _ => .pure _
    · cases log.timestamp with
      | some timestamp => exact .pure _
      | none => exact (Action.GivesUp.blockTime ..).bind fun _ => .pure _
  · exact (Action.GivesUp.tell _).bind fun _ => .pure _

theorem scanLogs_givesUp (contract : Address) (logs : List EventLog) (emitted : Nat) :
    (s.scanLogs contract logs emitted).GivesUp := by
  induction logs generalizing emitted with
  | nil => exact .pure _
  | cons log rest ih =>
    refine (logRecord?_givesUp contract log).bind fun record? => ?_
    cases record? with
    | none => exact ih emitted
    | some record => exact (Action.GivesUp.insertTransfer record).bind fun _ => ih _

theorem scanToken_givesUp (contract : Address) (window : Window) :
    (s.scanToken contract window).GivesUp := by
  unfold scanToken
  split
  · exact .pure _
  · exact (Action.GivesUp.transferLogs ..).bind fun logs => scanLogs_givesUp contract logs 0

theorem scanWindow_givesUp (lastScanned head range overlap : UInt64) :
    (s.scanWindow lastScanned head range overlap).GivesUp := by
  unfold scanWindow
  cases s.task.asset with
  | native => exact (scanNative_givesUp _).bind fun _ => .pure _
  | token contract => exact (scanToken_givesUp contract _).bind fun _ => .pure _

theorem readPlan_givesUp : s.readPlan.GivesUp := by
  refine (Action.GivesUp.readHeight ..).bind fun range => ?_
  split
  · exact trivial
  · exact (Action.GivesUp.readHeight ..).bind fun overlap =>
      (Action.GivesUp.readHeight ..).bind fun lastScanned =>
        (Action.GivesUp.readHeight ..).bind fun head => .pure _

theorem advance_givesUp (p : Plan) (o : ScanOutcome) : (s.advance p o).GivesUp := by
  unfold advance
  split
  · exact (Action.GivesUp.writeHeight ..).bind fun _ =>
      (Action.GivesUp.tell _).bind fun _ => .pure _
  · exact (Action.GivesUp.tell _).bind fun _ => .pure _

theorem tickHeld_givesUp : s.tickHeld.GivesUp := by
  rw [tickHeld_eq]
  exact readPlan_givesUp.bind fun p =>
    (scanWindow_givesUp ..).bind fun o => advance_givesUp p o

/-! ### What a tick leaves of the checkpoints -/

/-- Checkpoints that have been there are as they were. Those of the task may have been created with
their defaults; beside that only the ledger may have changed. -/
structure Kept (s : Scraper) (w w' : Surroundings) : Prop where
  kept : ∀ key, (w.store.checkpoints.get? key).isSome →
    w'.store.checkpoints.get? key = w.store.checkpoints.get? key
  created : ∀ key text, w.store.checkpoints.get? key = none →
    w'.store.checkpoints.get? key = some text →
    ∃ initial, (key, initial) ∈ s.task.readings ∧ text = Number.showUInt64 initial
  rest : w' = (w.withCheckpoints w'.store.checkpoints).withLedger w'.store.ledger

/-- Checkpoints that have been there are as they were, but for the last block. -/
def KeptOthers (s : Scraper) (w w' : Surroundings) : Prop :=
  ∀ key, key ≠ s.task.lastBlockKey → (w.store.checkpoints.get? key).isSome →
    w'.store.checkpoints.get? key = w.store.checkpoints.get? key

namespace Kept

variable {w w' : Surroundings}

theorem refl (s : Scraper) (w : Surroundings) : s.Kept w w :=
  ⟨fun _ _ => rfl, fun _ _ hnone hsome => by simp [hnone] at hsome, rfl⟩

theorem withLedger (H : s.Kept w w') (l : Ledger) : s.Kept w (w'.withLedger l) :=
  ⟨H.kept, H.created, congrArg (·.withLedger l) H.rest⟩

theorem afterRead (H : s.Kept w w') (h : (key, initial) ∈ s.task.readings) :
    s.Kept w (w'.afterRead key initial) := by
  refine ⟨fun k hk => ?_, fun k text hnone hsome => ?_, ?_⟩
  · have hkept := H.kept k hk
    rw [← hkept]
    exact Checkpoints.get?_getOrCreate_isSome (hkept ▸ hk)
  · rcases Checkpoints.get?_of_getOrCreate hsome with hheld | ⟨rfl, rfl⟩
    · exact H.created k text hnone hheld
    · exact ⟨initial, h, rfl⟩
  · exact congrArg (·.afterRead key initial) H.rest

theorem afterWrite (H : s.Kept w w') (height : UInt64) :
    s.KeptOthers w (w'.afterWrite s.task.lastBlockKey height) := by
  intro key hne hkey
  have hput : (w'.afterWrite s.task.lastBlockKey height).store.checkpoints.get? key =
      w'.store.checkpoints.get? key :=
    (Checkpoints.get?_put ..).trans (if_neg hne)
  exact hput.trans (H.kept key hkey)

end Kept

/-- What a tick leaves of the checkpoints. -/
def TickKept (s : Scraper) (w : Surroundings) : Except Fault TickOutcome → Surroundings → Prop
  | .ok _ => s.KeptOthers w
  | .error _ => s.Kept w

theorem tickHeld_keeps (mayFail : Engine.Query → Prop) (s : Scraper) (w : Surroundings) :
    s.tickHeld.run.Abides (Conduct.undisturbed mayFail).pact (s.TickKept w) w := by
  have hkeeps (K : Surroundings → Prop) : (Conduct.undisturbed mayFail).Keeps K :=
    Conduct.undisturbed_keeps mayFail K
  have hplans : s.PlansUnder (Conduct.undisturbed mayFail).pact (fun w' => w') (s.Kept w)
      fun _ => True := plansUnder_conduct (hkeeps _) fun hmem H => H.afterRead hmem
  have hscans : (Conduct.undisturbed mayFail).pact.Allows s.Scans (s.Kept w) :=
    allows_scans (hkeeps _) fun _ H => H.withLedger _
  apply Action.Abides.of_results
  rw [tickHeld_eq]
  apply Action.Abides.bind
  refine (hplans.readPlan_abides (.refl s w)).mono ?_ fun _ _ h => h.1
  intro p w₁ hplan
  apply Action.Abides.bind
  refine (scanWindow_keeps hscans _ _ _ _ hplan.1).mono ?_ fun _ _ h => h
  intro o w₂ hscanned
  have hadvance : (s.advance p o).Abides (Conduct.undisturbed mayFail).pact
      (fun o' w' => o' = p.outcome o ∧ s.KeptOthers w w') (fun _ => s.Kept w) w₂ := by
    refine advance_abides (Conduct.pact_over _) (Conduct.stable_pact (hkeeps _)) hscanned.2
      (fun _ w' h key _ => h.kept key) (fun _ _ _ _ _ => trivial) ?_
      (fun _ _ _ h hanswer => hanswer.of_failed_write ▸ h) (Conduct.allows_tells (hkeeps _))
    intro w₁ answer w₂ h _ hworld
    subst hworld
    exact h.afterWrite _
  exact hadvance.mono (fun _ _ h => h.2) fun _ _ h => h

theorem Kept.withGuard {w w' : Surroundings} {guard : Guard} (hfree : w.held guard = false)
    (H : s.Kept (w.withGuard guard true) w') : s.Kept w (w'.withGuard guard false) := by
  refine ⟨H.kept, H.created, ?_⟩
  have hrest := congrArg (·.withGuard guard false) H.rest
  rw [← Surroundings.withGuard_free hfree]
  exact hrest

/-! ### Failing ticks -/

/-- The tick without failures, and what is left of it by one whose calls may fail. -/
theorem tickHeld_leavesPrefix (mayFail : Engine.Query → Prop) {st : Chronicle} (hst : st.Ledgers l) :
    ∃ result₀ st₀, s.tickHeld.run.Runs (Chronicle.noting Surroundings.Answers) st result₀ st₀ ∧
      s.tickHeld.run.Ensures (Conduct.undisturbed mayFail).Answers (fun result w' =>
        s.TickKept st.world result w' ∧
        ∃ ts, ts <+: insertions st₀.events ∧ w'.store.ledger = l.insertAll ts) st.world := by
  have hanswers : ∀ (w : Surroundings) q, s.AsksHeld q → ∃ answer w', w.Answers q answer w' :=
    fun w q hq => Surroundings.exists_answers q fun guard hacquire =>
      absurd (hacquire ▸ hq) AsksHeld.not_acquire
  have hnotes : s.tickHeld.run.Ensures (Chronicle.noting Surroundings.Answers) (fun _ _ => True)
      st := by
    refine tickHeld_asks.ensures fun st q hq => ?_
    obtain ⟨answer, w', hanswer⟩ := hanswers st.world q hq
    exact ⟨answer, _, Chronicle.noting_after hanswer⟩
  have hends : s.tickHeld.run.Ensures (Conduct.undisturbed mayFail).Answers (fun _ _ => True)
      st.world := by
    refine tickHeld_asks.ensures fun w q hq => ?_
    obtain ⟨answer, w', hanswer⟩ := hanswers w q hq
    exact ⟨answer, w', w, rfl, .inl hanswer⟩
  obtain ⟨result₀, st₀, hclean, -⟩ := hnotes.exists_runs
  refine ⟨result₀, st₀, hclean, hends.imp_of_runs fun result w' hrun _ => ⟨?_, ?_⟩⟩
  · exact Conduct.of_runs (tickHeld_keeps mayFail s st.world) hrun
  · exact tickHeld_givesUp.inserted tickHeld_asks (fun hq h h' => hq.unique h h') hst hclean hrun

/-- However the calls of a tick fail, it ends. If it stops with a fault then no checkpoint has moved,
at most the task's own have been created, and the ledger has grown by the first of the records that
the tick without failures inserts. If it succeeds then at most the last block has moved. -/
theorem failed_tick_leaves_prefix (s : Scraper) {w : Surroundings}
    (hfree : w.held s.guard = false) :
    ∃ result₀ st₀, s.tick.run.Runs (Chronicle.noting Surroundings.Answers) ⟨w, []⟩ result₀ st₀ ∧
      s.tick.run.Ensures (Conduct.undisturbed fun _ => True).Answers (fun
        | .error _, w' => s.Kept w w' ∧ ∃ ts, ts <+: insertions st₀.events ∧
            w'.store.ledger = w.store.ledger.insertAll ts
        | .ok _, w' => s.KeptOthers w w') w := by
  have hst : (Chronicle.after ⟨w, []⟩ (.acquire s.guard) () (w.withGuard s.guard true)).Ledgers
      w.store.ledger := rfl
  obtain ⟨result₀, st₀, hclean, hleaves⟩ := tickHeld_leavesPrefix (s := s) (fun _ => True) hst
  refine ⟨result₀, st₀.after (.release s.guard) () (st₀.world.withGuard s.guard false), ?_, ?_⟩
  · have hacquired : Chronicle.noting Surroundings.Answers ⟨w, []⟩ (.acquire s.guard) () _ :=
      Chronicle.noting_after ⟨hfree, rfl⟩
    have hreleased : Chronicle.noting Surroundings.Answers st₀ (.release s.guard) () _ :=
      Chronicle.noting_after rfl
    exact .query hacquired (hclean.bind (.query hreleased .pure))
  · rw [Chronicle.insertions_after]
    apply Conduct.ensures_guarded (Conduct.undisturbed_keeps _ (· = w)) rfl
    case body =>
      intro w' hw'
      rw [hw']
      exact hleaves
    case free =>
      rintro _ rfl
      exact hfree
    case keepsPost => exact fun _ _ _ h hdrift => hdrift ▸ h
    case release =>
      rintro result w' ⟨hkept, ts, hts, hledger⟩
      cases result with
      | ok o => exact hkept
      | error fault =>
        exact ⟨Kept.withGuard hfree hkept, ts, (List.append_nil _).symm ▸ hts, hledger⟩

/-- Block 10 cannot be had. -/
def sampleFailure : Engine.Query → Option Fault
  | .block _ 10 => some (.reported "block unavailable" [])
  | _ => none

/-- The tick stops at block 10. By then it has created three checkpoints, and has inserted the
transactions of the blocks 8 and 9. -/
theorem sampleNative_stops_at_block : ∃ w',
    sampleNative.tick.run.Runs (Conduct.undisturbed fun _ => True).Answers .sample
      (.error (.reported "block unavailable" [])) w' ∧
    ([sampleNative.task.scanRangeKey, sampleNative.task.overlapKey,
      sampleNative.task.lastBlockKey].map w'.store.checkpoints.get?) =
        [some "5", some "2", some "10"] ∧
    w'.store.ledger.ids = [⟨1, .sample 9, 0⟩, ⟨1, .sample 8, 0⟩] ∧
    sampleNative.Kept .sample w' ∧
    ∃ result₀ st₀, sampleNative.tick.run.Runs (Chronicle.noting Surroundings.Answers) ⟨.sample, []⟩
        result₀ st₀ ∧
      ∃ ts, ts <+: insertions st₀.events ∧
        w'.store.ledger = Surroundings.sample.store.ledger.insertAll ts := by
  have hcomputed : (sampleNative.tick.run.interpret (Surroundings.respond sampleFailure)
      Surroundings.sample).map (Prod.map id fun w =>
        ([sampleNative.task.scanRangeKey, sampleNative.task.overlapKey,
          sampleNative.task.lastBlockKey].map w.store.checkpoints.get?, w.store.ledger.ids)) =
      some (.error (.reported "block unavailable" []), [some "5", some "2", some "10"],
        [⟨1, .sample 9, 0⟩, ⟨1, .sample 8, 0⟩]) := by
    decide +kernel
  obtain ⟨w', hresponds, hseen⟩ := Surroundings.exists_runs_of_respond _ hcomputed
  obtain ⟨hkeys, hids⟩ := Prod.mk.inj hseen
  have hrun : sampleNative.tick.run.Runs (Conduct.undisturbed fun _ => True).Answers .sample
      (.error (.reported "block unavailable" [])) w' :=
    hresponds.mono fun w q answer w' h => ⟨w, rfl, h.imp_right fun h => ⟨trivial, h⟩⟩
  obtain ⟨result₀, st₀, hclean, hleaves⟩ :=
    failed_tick_leaves_prefix sampleNative (w := .sample) rfl
  obtain ⟨hkept, ts, hprefix, hledger⟩ := hleaves.of_runs hrun
  exact ⟨w', hrun, hkeys, hids, hkept, result₀, st₀, hclean, ts, hprefix, hledger⟩

end Scraper

end ChainIngest
