import ChainIngest.Simulation.World
import ChainIngest.Proofs.Surroundings

/-! The world of a simulation answers as surroundings may in which any call can fail, so what holds
in all surroundings holds in simulations. Guards that change hands are left out: a world gives a
guard to the next one in turn when it is let go, and surroundings when it is taken. -/

namespace ChainIngest.Simulation

open Engine (failure?)

namespace World

/-- What the scripts tell. Calls to a chain or a contract that no script tells of fail. -/
def contents (w : World) : ChainContents where
  head node := (w.chains[node]?.map (·.head)).getD 0
  block node number := (w.chains[node]?.map (·.block number)).getD ⟨number, 0, []⟩
  blockTime node number := (w.chains[node]?.map fun c => (c.block number).timestamp).getD 0
  logs node contract first last :=
    (w.chains[node]?.map (·.logsBetween contract first last)).getD []
  decimals node contract :=
    (w.chains[node]?.map fun c => (c.decimals.lookup contract).getD 0).getD 0
  oracleAnswer oracle := (w.oracleAnswers.lookup oracle).getD 0
  poolPrice pool := (w.poolPrices.lookup pool).getD 0

/-- A world as surroundings. -/
def surroundings (w : World) : Surroundings where
  store := w.store
  chains := w.contents
  held guard := w.turns.any (·.1 == guard)
  cancelled := w.cancelled

variable (w : World) {α : Type}

/-! ### Calls -/

theorem chainAnswer_ok_or_error (node : Node) (call : Call)
    (answer : ScriptedChain → Except Fault α) :
    (∃ chain, w.chains[node]? = some chain ∧ w.chainAnswer node call answer = answer chain) ∨
      ∃ fault, w.chainAnswer node call answer = .error fault := by
  unfold chainAnswer
  cases w.chains[node]? with
  | none => exact .inr ⟨_, rfl⟩
  | some chain =>
    by_cases hfails : call.failsUnder chain.failing
    · exact .inr ⟨_, if_pos hfails⟩
    · exact .inl ⟨chain, rfl, if_neg hfails⟩

theorem storeAnswer_ok_or_error (call : StoreCall) (answer : Store → α × Store) :
    w.storeAnswer call answer =
        (.ok (answer w.store).1, { w with store := (answer w.store).2 }) ∨
      ∃ fault, w.storeAnswer call answer = (.error fault, w) := by
  unfold storeAnswer
  by_cases hfails : call.failsUnder w.storeFailing
  · exact .inr ⟨_, if_pos hfails⟩
  · exact .inl (if_neg hfails)

theorem scripted_ok_or_error [BEq α] (values : List (α × β)) (key : α) (missing : String) :
    (∃ value, values.lookup key = some value ∧ scripted values key missing = .ok value) ∨
      ∃ fault, scripted values key missing = .error fault := by
  unfold scripted
  cases values.lookup key with
  | none => exact .inr ⟨_, rfl⟩
  | some value => exact .inl ⟨value, rfl, rfl⟩

/-! ### Subscriptions -/

theorem map_getElem?_modify {chains : List ScriptedChain} {f : ScriptedChain → ScriptedChain}
    {g : ScriptedChain → α} (hg : ∀ c, g (f c) = g c) (node n : Node) :
    (chains.modify node f)[n]?.map g = chains[n]?.map g := by
  rw [List.getElem?_modify]
  cases chains[n]? with
  | none => rfl
  | some chain => by_cases h : node = n <;> simp [h, hg]

/-- Subscriptions are no part of what the chains tell. -/
theorem surroundings_updateChain (node : Node) (subscriptions : List (Option (List Delivery))) :
    (w.updateChain node fun chain => { chain with subscriptions }).surroundings =
      w.surroundings := by
  simp only [surroundings, contents, updateChain]
  congr 2
  · funext n
    congr 1
    apply map_getElem?_modify
    exact fun _ => rfl
  · funext n number
    congr 1
    apply map_getElem?_modify
    exact fun _ => rfl
  · funext n number
    congr 1
    apply map_getElem?_modify
    exact fun _ => rfl
  · funext n contract first last
    congr 1
    apply map_getElem?_modify
    exact fun _ => rfl
  · funext n contract
    congr 1
    apply map_getElem?_modify
    exact fun _ => rfl

theorem surroundings_openSubscription (node : Node) :
    (w.openSubscription node).2.surroundings = w.surroundings := by
  unfold openSubscription
  split
  · rfl
  · next subscriptions _ =>
    have hupdate := w.surroundings_updateChain node (subscriptions.drop 1)
    cases subscriptions with
    | nil => exact hupdate
    | cons deliveries rest =>
      cases deliveries with
      | none => exact hupdate
      | some deliveries => exact hupdate

theorem surroundings_deliver (subscription : Subscription) :
    (w.deliver subscription).2.surroundings = w.surroundings := by
  unfold deliver
  split <;> rfl

theorem surroundings_unlessCancelled {result : World → α × World}
    (h : ∀ w, (result w).2.surroundings = w.surroundings) :
    (w.unlessCancelled result).2.surroundings = w.surroundings := by
  unfold unlessCancelled
  split
  · rfl
  · exact h w

/-! ### Queries -/

theorem surroundings_waitUntil (deadline : Nat) :
    (w.answer (.waitUntil deadline)).2.surroundings = w.surroundings := by
  unfold answer
  dsimp only
  split
  · rfl
  · exact w.surroundings_unlessCancelled fun _ => rfl

/-- A guard that somebody has a turn at is not taken without waiting. -/
theorem answers_tryAcquire (guard : Guard) :
    w.surroundings.Answers (.tryAcquire guard) (w.answer (.tryAcquire guard)).1
      (w.answer (.tryAcquire guard)).2.surroundings := by
  by_cases hheld : w.turns.any (·.1 == guard)
  · have hsame : Function.update w.surroundings.held guard true = w.surroundings.held :=
      Function.update_eq_self_iff.mpr hheld.symm
    rw [answer, if_pos hheld]
    refine ⟨by simp [surroundings, hheld], ?_⟩
    rw [hsame]
  · rw [answer, if_neg hheld]
    refine ⟨by simp [surroundings, hheld], ?_⟩
    simp only [surroundings, Surroundings.mk.injEq, true_and, and_true]
    refine ⟨rfl, funext fun other => ?_⟩
    by_cases hother : other = guard
    · simp [hother]
    · have hne : (guard == other) = false := beq_false_of_ne (Ne.symm hother)
      simp [hother, hne]

/-- A query is answered as surroundings answer it, or fails and changes nothing. -/
theorem answers_or_fails (q : Engine.Query)
    (hq : ∀ guard, q ≠ .acquire guard ∧ q ≠ .release guard) :
    w.surroundings.Answers q (w.answer q).1 (w.answer q).2.surroundings ∨
      (w.answer q).2.surroundings = w.surroundings ∧
        ∃ fault, failure? q fault = some (w.answer q).1 := by
  cases q with
  | readCheckpoint key text =>
    rcases w.storeAnswer_ok_or_error (.get key) (·.read key text) with h | ⟨fault, h⟩
    · exact .inl ⟨congrArg (·.1) h, congrArg (·.2.surroundings) h⟩
    · exact .inr ⟨congrArg (·.2.surroundings) h, fault, by rw [answer, h]; rfl⟩
  | writeCheckpoint key value =>
    rcases w.storeAnswer_ok_or_error (.set key) fun s => ((), s.write key value) with h | ⟨fault, h⟩
    · exact .inl ⟨congrArg (·.1) h, congrArg (·.2.surroundings) h⟩
    · exact .inr ⟨congrArg (·.2.surroundings) h, fault, by rw [answer, h]; rfl⟩
  | insertTransfer t =>
    rcases w.storeAnswer_ok_or_error (.insert t.block) (·.insertTransfer t) with h | ⟨fault, h⟩
    · exact .inl ⟨congrArg (·.1) h, congrArg (·.2.surroundings) h⟩
    · exact .inr ⟨congrArg (·.2.surroundings) h, fault, by rw [answer, h]; rfl⟩
  | insertSnapshot snapshot =>
    rcases w.storeAnswer_ok_or_error .insertPrice fun s => ((), s.insertSnapshot snapshot) with
      h | ⟨fault, h⟩
    · exact .inl ⟨congrArg (·.1) h, congrArg (·.2.surroundings) h⟩
    · exact .inr ⟨congrArg (·.2.surroundings) h, fault, by rw [answer, h]; rfl⟩
  | latestSnapshot =>
    rcases w.storeAnswer_ok_or_error .latestPrice fun s => (s.latestSnapshot, s) with h | ⟨fault, h⟩
    · exact .inl ⟨congrArg (·.1) h, congrArg (·.2.surroundings) h⟩
    · exact .inr ⟨congrArg (·.2.surroundings) h, fault, by rw [answer, h]; rfl⟩
  | whitelist chainId =>
    rcases w.storeAnswer_ok_or_error .whitelist fun s => (s.whitelist chainId, s) with
      h | ⟨fault, h⟩
    · exact .inl ⟨congrArg (·.1) h, congrArg (·.2.surroundings) h⟩
    · exact .inr ⟨congrArg (·.2.surroundings) h, fault, by rw [answer, h]; rfl⟩
  | headHeight node =>
    rcases w.chainAnswer_ok_or_error node .head fun c => .ok c.head with
      ⟨chain, hchain, h⟩ | ⟨fault, h⟩
    · exact .inl ⟨h.trans (by simp [surroundings, contents, hchain]), rfl⟩
    · exact .inr ⟨rfl, fault, congrArg some h.symm⟩
  | block node number =>
    rcases w.chainAnswer_ok_or_error node (.block number) fun c => .ok (c.block number) with
      ⟨chain, hchain, h⟩ | ⟨fault, h⟩
    · exact .inl ⟨h.trans (by simp [surroundings, contents, hchain]), rfl⟩
    · exact .inr ⟨rfl, fault, congrArg some h.symm⟩
  | blockTime node number =>
    rcases w.chainAnswer_ok_or_error node (.timestamp number)
      fun c => .ok (c.block number).timestamp with ⟨chain, hchain, h⟩ | ⟨fault, h⟩
    · exact .inl ⟨h.trans (by simp [surroundings, contents, hchain]), rfl⟩
    · exact .inr ⟨rfl, fault, congrArg some h.symm⟩
  | transferLogs node contract first last =>
    rcases w.chainAnswer_ok_or_error node (.logs first last)
      fun c => .ok (c.logsBetween contract first last) with ⟨chain, hchain, h⟩ | ⟨fault, h⟩
    · exact .inl ⟨h.trans (by simp [surroundings, contents, hchain]), rfl⟩
    · exact .inr ⟨rfl, fault, congrArg some h.symm⟩
  | tokenDecimals node contract =>
    rcases w.chainAnswer_ok_or_error node .decimals
      (fun c => scripted c.decimals contract "no decimals") with ⟨chain, hchain, h⟩ | ⟨fault, h⟩
    · rcases scripted_ok_or_error chain.decimals contract "no decimals" with
        ⟨value, hvalue, hscript⟩ | ⟨fault, hscript⟩
      · refine .inl ⟨(h.trans hscript).trans ?_, rfl⟩
        simp [surroundings, contents, hchain, hvalue]
      · exact .inr ⟨rfl, fault, congrArg some (h.trans hscript).symm⟩
    · exact .inr ⟨rfl, fault, congrArg some h.symm⟩
  | oracleAnswer oracle =>
    rcases scripted_ok_or_error w.oracleAnswers oracle "unknown oracle" with
      ⟨value, hvalue, h⟩ | ⟨fault, h⟩
    · exact .inl ⟨h.trans (by simp [surroundings, contents, hvalue]), rfl⟩
    · exact .inr ⟨rfl, fault, congrArg some h.symm⟩
  | poolPrice pool =>
    rcases scripted_ok_or_error w.poolPrices pool "unknown pool" with
      ⟨value, hvalue, h⟩ | ⟨fault, h⟩
    · exact .inl ⟨h.trans (by simp [surroundings, contents, hvalue]), rfl⟩
    · exact .inr ⟨rfl, fault, congrArg some h.symm⟩
  | acquire guard => exact absurd rfl (hq guard).1
  | release guard => exact absurd rfl (hq guard).2
  | tryAcquire guard => exact .inl (w.answers_tryAcquire guard)
  | subscribe node =>
    exact .inl (w.surroundings_unlessCancelled (surroundings_openSubscription · node))
  | nextHeader subscription =>
    exact .inl (w.surroundings_unlessCancelled (surroundings_deliver · subscription))
  | isCancelled => exact .inl ⟨rfl, rfl⟩
  | now => exact .inl rfl
  | pause milliseconds => exact .inl (w.surroundings_unlessCancelled fun _ => rfl)
  | waitUntil deadline => exact .inl (w.surroundings_waitUntil deadline)
  | tell notice => exact .inl rfl

/-- What a world answers is one of the answers that surroundings may give. -/
theorem answers_of_poll {C : Conduct} (hC : ∀ q, C.mayFail q) {w w' : World} {q : Engine.Query}
    {answer : Engine.Answer q} (hq : ∀ guard, q ≠ .acquire guard ∧ q ≠ .release guard)
    (h : w.poll q ticket = some (answer, w')) :
    C.Answers w.surroundings q answer w'.surroundings := by
  unfold poll at h
  split at h
  · obtain ⟨rfl, rfl⟩ := Prod.mk.inj (Option.some.inj h)
    refine ⟨_, C.drift_refl _, (w.answers_or_fails q hq).imp_right ?_⟩
    intro hfails
    obtain ⟨heq, fault, hfault⟩ := hfails
    exact ⟨hC q, heq, fault, hfault⟩
  · cases h

end World

end ChainIngest.Simulation
