import ChainIngest.Proofs.Interference

/-! Runs that can be computed. Once it is settled which calls fail, surroundings in which no time
passes and no header comes answer every query in one way. -/

namespace ChainIngest

/-- A program whose queries are answered as `handle` says runs as far as it is computed. -/
theorem Program.runs_of_interpret {I : Interface} {A : Answering I σ}
    {handle : (q : I.Query) → StateT σ Option (I.Answer q)}
    (h : ∀ q s answer s', handle q s = some (answer, s') → A s q answer s') {p : Program I α}
    (hp : p.interpret handle s = some (value, s')) : p.Runs A s value s' := by
  induction p generalizing s with
  | pure value =>
    cases hp
    exact .pure
  | query q next ih =>
    obtain ⟨⟨answer, s₁⟩, hanswer, hrest⟩ := Option.bind_eq_some_iff.mp hp
    exact .query (h q s answer s₁ hanswer) (ih answer hrest)

namespace Surroundings

/-- The answer to a query, or nothing to who asks for a guard that is held. -/
def answer? (w : Surroundings) :
    (q : Engine.Query) → Option (Engine.Answer q × Surroundings)
  | .readCheckpoint key initial =>
    some (.ok (w.store.read key initial).1, { w with store := (w.store.read key initial).2 })
  | .writeCheckpoint key value => some (.ok (), { w with store := w.store.write key value })
  | .insertTransfer t =>
    some (.ok (w.store.insertTransfer t).1, { w with store := (w.store.insertTransfer t).2 })
  | .insertSnapshot s => some (.ok (), { w with store := w.store.insertSnapshot s })
  | .latestSnapshot => some (.ok w.store.latestSnapshot, w)
  | .whitelist chainId => some (.ok (w.store.whitelist chainId), w)
  | .headHeight node => some (.ok (w.chains.head node), w)
  | .block node number => some (.ok (w.chains.block node number), w)
  | .blockTime node number => some (.ok (w.chains.blockTime node number), w)
  | .transferLogs node contract first last =>
    some (.ok (w.chains.logs node contract first last), w)
  | .tokenDecimals node contract => some (.ok (w.chains.decimals node contract), w)
  | .oracleAnswer oracle => some (.ok (w.chains.oracleAnswer oracle), w)
  | .poolPrice pool => some (.ok (w.chains.poolPrice pool), w)
  | .acquire guard => if w.held guard then none else some ((), w.withGuard guard true)
  | .tryAcquire guard => some (!w.held guard, w.withGuard guard true)
  | .release guard => some ((), w.withGuard guard false)
  | .isCancelled => some (w.cancelled, w)
  | .subscribe _ | .nextHeader _ | .pause _ | .waitUntil _ => some (.cancelled, w)
  | .now => some ((0 : Nat), w)
  | .tell _ => some ((), w)

theorem answers_of_answer? {w w' : Surroundings} {q : Engine.Query} {answer : Engine.Answer q}
    (h : w.answer? q = some (answer, w')) : w.Answers q answer w' := by
  cases q with
  | acquire guard =>
    cases hheld : w.held guard with
    | true => simp [answer?, hheld] at h
    | false =>
      simp only [answer?, hheld, Bool.false_eq_true, if_false] at h
      cases h
      exact ⟨hheld, rfl⟩
  | subscribe | nextHeader | now | pause | waitUntil | tell | release =>
    cases h
    rfl
  | _ =>
    cases h
    exact ⟨rfl, rfl⟩

/-- The answer to a query when the calls that `fails` tells fail. -/
def respond (fails : Engine.Query → Option Fault) (q : Engine.Query) :
    StateT Surroundings Option (Engine.Answer q) := fun w =>
  match (fails q).bind (Engine.failure? q) with
  | some answer => some (answer, w)
  | none => w.answer? q

theorem responds_of_respond {fails : Engine.Query → Option Fault} (q : Engine.Query)
    (w : Surroundings) (answer : Engine.Answer q) (w' : Surroundings)
    (h : respond fails q w = some (answer, w')) : w.Responds q answer w' := by
  unfold respond at h
  split at h
  · next answer' hfails =>
    cases h
    obtain ⟨fault, -, hfailure⟩ := Option.bind_eq_some_iff.mp hfails
    exact .inr ⟨rfl, fault, hfailure⟩
  · exact .inl (answers_of_answer? h)

/-- A run as it is computed, and what is seen of the surroundings at its end. -/
theorem exists_runs_of_respond {fails : Engine.Query → Option Fault} {p : Program Engine α}
    (view : Surroundings → β)
    (h : (p.interpret (respond fails) w).map (Prod.map id view) = some (value, seen)) :
    ∃ w', p.Runs Responds w value w' ∧ view w' = seen := by
  obtain ⟨⟨value', w'⟩, hp, hseen⟩ := Option.map_eq_some_iff.mp h
  cases hseen
  exact ⟨w', Program.runs_of_interpret responds_of_respond hp, rfl⟩

end Surroundings

end ChainIngest
