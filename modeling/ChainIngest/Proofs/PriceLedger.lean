import ChainIngest.Aggregator
import ChainIngest.Proofs.Reachability
import ChainIngest.Proofs.ExactlyOnce
import ChainIngest.Proofs.Parallel
import ChainIngest.Proofs.TokenPrice

/-! The ledger of prices. A snapshot is appended to it just before the call that takes it succeeds;
whatever else is asked of an aggregator, and whatever fails, leaves the ledger as it is. -/

namespace ChainIngest

namespace Surroundings

/-- The surroundings as one part. -/
def undivided : Parts Surroundings := ⟨Unit, fun _ => Surroundings, fun _ w => w⟩

/-- The footprint of what has the surroundings for itself and only looks at them. -/
def looking : Footprint undivided := ⟨fun _ => True, fun _ => False⟩

/-- The footprint of what has the surroundings for itself. -/
def alone : Footprint undivided := ⟨fun _ => True, fun _ => True⟩

variable {w : Surroundings} {F : Footprint undivided}

/-- A call that has one answer, in surroundings that are not shared. -/
theorem abides_query {q : Engine.Query} {next : Engine.Answer q → Program Engine α}
    {post : α → Surroundings → Prop} (hreads : F.reads ()) (value : Engine.Answer q)
    (after : Surroundings) (hguar : F.writes () ∨ after = w)
    (answers : ∀ answer w', w.Answers q answer w' ↔ answer = value ∧ w' = after)
    (ok : (next value).Abides (F.pact (I := Engine) Responds) post after)
    (fails : ∀ fault answer, Engine.failure? q fault = some answer →
      (next answer).Abides (F.pact (I := Engine) Responds) post w) :
    (Program.query q next).Abides (F.pact (I := Engine) Responds) post w := by
  intro w₁ hrely
  obtain rfl : w = w₁ := hrely () hreads
  refine ⟨fun _ => ⟨value, after, .inl ((answers _ _).mpr ⟨rfl, rfl⟩)⟩, fun answer w' h => ?_⟩
  rcases h with hanswer | ⟨rfl, fault, hfault⟩
  · obtain ⟨rfl, rfl⟩ := (answers answer w').mp hanswer
    refine ⟨fun x hx => ?_, ok⟩
    exact (hguar.resolve_left hx).symm
  · exact ⟨.refl _, fails fault answer hfault⟩

/-- The ledger of prices only grows. -/
theorem Responds.prices {q : Engine.Query} {answer : Engine.Answer q} {w' : Surroundings}
    (H : w.Responds q answer w') : w.store.prices <+: w'.store.prices := by
  rcases H with H | ⟨rfl, -⟩
  · cases q with
    | insertSnapshot snapshot => exact H.2 ▸ List.prefix_append _ _
    | readCheckpoint | writeCheckpoint | insertTransfer => exact H.2 ▸ List.prefix_rfl
    | latestSnapshot | whitelist | headHeight | block | blockTime | transferLogs | tokenDecimals
    | oracleAnswer | poolPrice | acquire | tryAcquire | isCancelled => exact H.2 ▸ List.prefix_rfl
    | subscribe | nextHeader | release | now | pause | waitUntil | tell =>
      obtain rfl : w' = _ := H
      exact List.prefix_rfl
  · exact List.prefix_rfl

end Surroundings

/-! ### Calls -/

/-- What is asked of an aggregator. -/
inductive PriceCall where
  | snapshot
  | live
  | latest
  deriving DecidableEq, Repr

namespace PriceCall

/-- What a call answers with if it succeeds. -/
abbrev Answer : PriceCall → Type
  | .snapshot | .live => Snapshot
  | .latest => Option Snapshot

/-- What a call with this result has appended to the ledger. -/
def appended : (call : PriceCall) → Except Fault call.Answer → List Snapshot
  | .snapshot, .ok s => [s]
  | _, _ => []

theorem length_appended (call : PriceCall) (result : Except Fault call.Answer) :
    (call.appended result).length ≤ 1 := by
  cases call <;> cases result <;> simp [appended]

end PriceCall

namespace Aggregator

open Surroundings (looking alone Responds abides_query)

variable {a : Aggregator} {w w' : Surroundings}

/-- What a call runs. -/
def called (a : Aggregator) : (call : PriceCall) → Process Engine (Except Fault call.Answer)
  | .snapshot => a.snapshot
  | .live => a.live
  | .latest => .run latest.run

/-- The prices by what the contracts tell. -/
def current (a : Aggregator) (c : ChainContents) : Snapshot :=
  let native := Price.ofOracleAnswer (c.oracleAnswer a.primaryOracle)
  { token := Price.orFallback a.fallback (Price.derive native (Price.ofPool (c.poolPrice a.pool)))
    native
    reference := Price.ofOracleAnswer (c.oracleAnswer a.referenceOracle) }

/-- Nothing is changed, and what is answered, if anything, is this value. -/
def Tells (w : Surroundings) (value : α) (result : Except Fault α) (w' : Surroundings) : Prop :=
  w' = w ∧ ∀ v, result = .ok v → v = value

theorem stable_unshared {F : Footprint Surroundings.undivided} (hreads : F.reads ())
    (P : Surroundings → Prop) : (F.pact (I := Engine) Responds).Stable P := by
  intro w w' hw hrely
  obtain rfl : w = w' := hrely () hreads
  exact hw

theorem native_abides : a.native.run.Abides (looking.pact (I := Engine) Responds)
    (Tells w (a.current w.chains).native) w := by
  refine abides_query trivial (.ok (w.chains.oracleAnswer a.primaryOracle)) w (.inr rfl)
    (fun _ _ => .rfl) ⟨rfl, ?answered⟩ ?fails
  case answered => rintro _ ⟨⟩; rfl
  case fails => rintro fault _ ⟨⟩; exact ⟨rfl, nofun⟩

theorem reference_abides : a.reference.run.Abides (looking.pact (I := Engine) Responds)
    (Tells w (a.current w.chains).reference) w := by
  refine abides_query trivial (.ok (w.chains.oracleAnswer a.referenceOracle)) w (.inr rfl)
    (fun _ _ => .rfl) ⟨rfl, ?answered⟩ ?fails
  case answered => rintro _ ⟨⟩; rfl
  case fails => rintro fault _ ⟨⟩; exact ⟨rfl, nofun⟩

theorem poolPrice_abides : (Engine.within .readingPool (Engine.poolPrice a.pool)).Abides
    (looking.pact (I := Engine) Responds)
    (fun price w' => w' = w ∧ price = w.chains.poolPrice a.pool) (fun _ w' => w' = w) w := by
  have hread : Program.Abides (looking.pact (I := Engine) Responds)
      (Tells w (w.chains.poolPrice a.pool))
      (Engine.within .readingPool (Engine.poolPrice a.pool)).run w := by
    refine abides_query trivial (.ok (w.chains.poolPrice a.pool)) w (.inr rfl) (fun _ _ => .rfl)
      ⟨rfl, ?answered⟩ ?fails
    case answered => rintro _ ⟨⟩; rfl
    case fails => rintro fault _ ⟨⟩; exact ⟨rfl, nofun⟩
  exact .of_program hread (fun price w' h => ⟨h.1, h.2 price rfl⟩) fun _ _ h => h.1

theorem tell_abides {F : Footprint Surroundings.undivided} (hreads : F.reads ())
    {fail : Fault → Surroundings → Prop} (notice : Notice) :
    Action.Abides (F.pact (I := Engine) Responds) (fun _ w' => w' = w) fail
      (liftM (Engine.tell notice)) w :=
  .lift (abides_query hreads () w (.inr rfl) (fun _ _ => (and_iff_right rfl).symm) rfl nofun)

theorem complete_abides :
    (a.complete (a.current w.chains).native (a.current w.chains).reference).run.Abides
      (looking.pact (I := Engine) Responds) (Tells w (a.current w.chains)) w := by
  have htoken : (a.token (a.current w.chains).native).Abides (looking.pact (I := Engine) Responds)
      (fun price w' => w' = w ∧ price = (a.current w.chains).token) (fun _ w' => w' = w) w := by
    refine .bind (poolPrice_abides.mono ?_ fun _ _ h => h)
    rintro price w' ⟨rfl, rfl⟩
    dsimp only
    split
    · refine .bind ((tell_abides trivial _).mono ?_ fun _ _ h => h)
      rintro _ w' rfl
      exact .pure ⟨rfl, rfl⟩
    · exact .pure ⟨rfl, rfl⟩
  refine Action.Abides.of_results (.bind (htoken.mono ?_ fun _ _ h => ⟨h, nofun⟩))
  rintro token w' ⟨rfl, rfl⟩
  refine .pure ⟨rfl, ?_⟩
  rintro _ ⟨⟩
  rfl

theorem live_fulfils : a.live.Fulfils Responds looking (Tells w (a.current w.chains)) w := by
  have hspares : looking.Spares looking := fun _ => False.elim
  refine .andThen ((Process.Fulfils.untilFailure_results .refl .refl hspares hspares
    (.run (fun _ => stable_unshared trivial _) native_abides)
    (.run (fun _ => stable_unshared trivial _) reference_abides)).mono .refl ?_)
  intro result w' h
  cases result with
  | error fault =>
    obtain rfl : w' = w := h.elim And.left And.left
    exact .done fun w'' hrely => ⟨(hrely () trivial).symm, nofun⟩
  | ok prices =>
    obtain ⟨native, reference⟩ := prices
    obtain ⟨⟨rfl, hnative⟩, -, hreference⟩ := h
    obtain rfl := hnative native rfl
    obtain rfl := hreference reference rfl
    exact .run (fun _ => stable_unshared trivial _) complete_abides

/-- What a call answers with, and what it leaves. -/
def Outcome (a : Aggregator) : (call : PriceCall) → Surroundings → Except Fault call.Answer →
    Surroundings → Prop
  | .snapshot, w, .ok s, w' =>
    s = a.current w.chains ∧ w' = { w with store := w.store.insertSnapshot s }
  | .live, w, .ok s, w' => s = a.current w.chains ∧ w' = w
  | .latest, w, .ok s, w' => s = w.store.latestSnapshot ∧ w' = w
  | _, w, .error _, w' => w' = w

theorem append_abides (s : Snapshot) : (append s).run.Abides (alone.pact (I := Engine) Responds)
    (fun
      | .ok s', w' => s' = s ∧ w' = { w with store := w.store.insertSnapshot s }
      | .error _, w' => w' = w) w := by
  refine abides_query trivial (.ok ()) { w with store := w.store.insertSnapshot s } (.inl trivial)
    (fun _ _ => .rfl) ?answered ?fails
  case answered =>
    exact abides_query trivial () _ (.inl trivial) (fun _ _ => (and_iff_right rfl).symm) ⟨rfl, rfl⟩
      nofun
  case fails => rintro fault _ ⟨⟩; exact rfl

/-- However its queries are answered, a call ends, and as it should. -/
theorem called_ends (call : PriceCall) : (a.called call).Ends Responds (a.Outcome call w) w := by
  have hlive : a.live.Fulfils Responds alone (Tells w (a.current w.chains)) w :=
    live_fulfils.mono ⟨fun _ => id, fun _ _ => trivial⟩ fun _ _ => id
  cases call with
  | snapshot =>
    refine Process.Fulfils.ends (.andThen (hlive.mono .refl ?_))
    rintro result w' ⟨rfl, hresult⟩
    cases result with
    | error fault =>
      exact .done fun w'' hrely => (hrely () trivial).symm
    | ok s =>
      obtain rfl := hresult s rfl
      refine .run (fun _ => stable_unshared trivial _) ((append_abides _).mono ?_)
      intro result w' h
      cases result with
      | error fault => exact h
      | ok s => exact h.1 ▸ ⟨rfl, h.2⟩
  | live =>
    refine hlive.ends.mono fun result w' h => ?_
    cases result with
    | error fault => exact h.1
    | ok s => exact ⟨h.2 s rfl, h.1⟩
  | latest =>
    have hlatest :
        latest.run.Abides (alone.pact (I := Engine) Responds) (a.Outcome .latest w) w := by
      refine abides_query trivial (.ok w.store.latestSnapshot) w (.inl trivial) (fun _ _ => .rfl)
        ⟨rfl, rfl⟩ ?_
      rintro fault _ ⟨⟩
      exact rfl
    exact (Process.Fulfils.run (fun _ => stable_unshared trivial _) hlatest).ends

theorem Outcome.prices {call : PriceCall} {result : Except Fault call.Answer}
    (H : a.Outcome call w result w') :
    w'.store.prices = w.store.prices ++ call.appended result := by
  cases call <;> cases result
  case snapshot.ok s => exact H.2 ▸ rfl
  case live.ok s => exact H.2 ▸ (List.append_nil _).symm
  case latest.ok s => exact H.2 ▸ (List.append_nil _).symm
  all_goals exact (H : w' = w) ▸ (List.append_nil _).symm

/-- While a call is under way, the ledger is as it was, or what the call is going to answer with has
been appended. -/
theorem called_underway {call : PriceCall} {p : Process Engine (Except Fault call.Answer)}
    (hreaches : (a.called call).Reaches Responds w p w') :
    w'.store.prices = w.store.prices ∨ ∃ s, w'.store.prices = w.store.prices ++ [s] ∧
      ∀ result w'', p.Reaches Responds w' (.done result) w'' → call.appended result = [s] := by
  obtain ⟨added, hadded⟩ := hreaches.keeps (J := (w.store.prices <+: ·.store.prices))
    (fun _ _ _ _ hprefix hanswer => hprefix.trans hanswer.prices) List.prefix_rfl
  have hends := ((called_ends call).of_reaches hreaches).and_kept
    (J := (w'.store.prices <+: ·.store.prices))
    (fun _ _ _ _ hprefix hanswer => hprefix.trans hanswer.prices) List.prefix_rfl
  have hbound : ∀ result w'', a.Outcome call w result w'' ∧ w'.store.prices <+: w''.store.prices →
      added <+: call.appended result := by
    rintro result w'' ⟨houtcome, hprefix⟩
    rwa [houtcome.prices, ← hadded, List.prefix_append_right_inj] at hprefix
  obtain ⟨result, w'', hend⟩ := hends.exists_post
  match added, hbound result w'' hend with
  | [], _ => exact .inl (by rw [← hadded, List.append_nil])
  | s :: rest, hfirst =>
    have hlength := hfirst.length_le.trans (call.length_appended result)
    obtain rfl : rest = [] := by simpa using hlength
    refine .inr ⟨s, hadded.symm, fun result' w₂ hreaches' => ?_⟩
    have hlast := hbound result' w₂ (hends.of_reaches hreaches').of_done
    exact (hlast.eq_of_length_le (call.length_appended result')).symm

/-! ### Sequences of calls -/

/-- A snapshot is made of these answers of the contracts: both oracles' as they are, and the token's
price derived from the first one unless there is nothing to derive it from. -/
structure Quotes (a : Aggregator) (c : ChainContents) (s : Snapshot) : Prop where
  native : s.native.value = (c.oracleAnswer a.primaryOracle).toInt * 10 ^ (-6 : ℤ)
  reference : s.reference.value = (c.oracleAnswer a.referenceOracle).toInt * 10 ^ (-6 : ℤ)
  token : s.token = if c.oracleAnswer a.primaryOracle = 0 ∨ c.poolPrice a.pool = 0 then a.fallback
    else Price.derive s.native (Price.ofPool (c.poolPrice a.pool))

theorem current_quotes (a : Aggregator) (c : ChainContents) : a.Quotes c (a.current c) where
  native := Price.value_ofOracleAnswer _
  reference := Price.value_ofOracleAnswer _
  token := Price.orFallback_derive ..

/-- A call that has ended, with the surroundings it has begun in and those it has left. -/
structure Finished where
  call : PriceCall
  before : Surroundings
  result : Except Fault call.Answer
  after : Surroundings

def Finished.appended (f : Finished) : List Snapshot := f.call.appended f.result

/-- A call that has succeeded has answered with current prices, or with the last ones of the
ledger. -/
def Finished.Right (a : Aggregator) : Finished → Prop
  | ⟨.snapshot, before, .ok s, _⟩ | ⟨.live, before, .ok s, _⟩ => a.Quotes before.chains s
  | ⟨.latest, before, .ok s, _⟩ => s = before.store.prices.getLast?
  | ⟨_, _, .error _, _⟩ => True

/-- Calls one after another. Any query of a call may fail, and between two calls anything may change
but the ledger of prices. -/
inductive Session (a : Aggregator) (w₀ : Surroundings) : List Finished → Surroundings → Prop
  | start : Session a w₀ [] w₀
  | change : Session a w₀ calls w₁ → w₂.store.prices = w₁.store.prices → Session a w₀ calls w₂
  | call {call : PriceCall} {result : Except Fault call.Answer} : Session a w₀ calls w₁ →
      (a.called call).Reaches Responds w₁ (.done result) w₂ →
      Session a w₀ (calls ++ [⟨call, w₁, result, w₂⟩]) w₂

theorem Outcome.right {call : PriceCall} {result : Except Fault call.Answer}
    (H : a.Outcome call w result w') : Finished.Right a ⟨call, w, result, w'⟩ := by
  cases call <;> cases result
  case snapshot.ok s => exact H.1 ▸ a.current_quotes w.chains
  case live.ok s => exact H.1 ▸ a.current_quotes w.chains
  case latest.ok s => exact H.1
  all_goals exact trivial

theorem Session.prices {calls : List Finished} (H : a.Session w₀ calls w) :
    w.store.prices = w₀.store.prices ++ calls.flatMap Finished.appended := by
  induction H with
  | start => exact (List.append_nil _).symm
  | change _ hsame ih => exact hsame.trans ih
  | @call _ w _ call result _ hreaches ih =>
    have houtcome := ((called_ends call).of_reaches hreaches).of_done
    rw [houtcome.prices, ih, List.flatMap_append, List.append_assoc, List.flatMap_singleton]
    rfl

/-- What is so of a call that has ended was so when it ended. -/
theorem Session.finished {calls earlier later : List Finished} {f : Finished}
    (H : a.Session w₀ calls w) (hcalls : calls = earlier ++ f :: later) :
    f.before.store.prices = w₀.store.prices ++ earlier.flatMap Finished.appended ∧
      f.after.store.prices = f.before.store.prices ++ f.appended ∧ f.Right a := by
  induction H generalizing later with
  | start => simp at hcalls
  | change _ _ ih => exact ih hcalls
  | @call calls w w' call result hsession hreaches ih =>
    rcases List.eq_nil_or_concat later with rfl | ⟨later, last, rfl⟩
    · obtain ⟨rfl, hlast⟩ := List.append_inj' hcalls rfl
      obtain rfl := List.singleton_inj.mp hlast
      have houtcome := ((called_ends call).of_reaches hreaches).of_done
      exact ⟨hsession.prices, houtcome.prices, houtcome.right⟩
    · rw [List.concat_eq_append, ← List.cons_append, ← List.append_assoc] at hcalls
      exact ih (List.append_inj' hcalls rfl).1

/-- Whatever calls are made, whatever fails and whatever the contracts tell meanwhile, the ledger
of prices has grown by the snapshots that have succeeded, in their order, and by nothing else. Every
call that has succeeded has answered with what it should. Any further call ends, and all that it
appends meanwhile is what it is going to answer with. -/
theorem ledger_holds_snapshots {calls : List Finished} (H : a.Session w₀ calls w) :
    w.store.prices = w₀.store.prices ++ calls.flatMap Finished.appended ∧
    (∀ earlier f later, calls = earlier ++ f :: later →
      f.before.store.prices = w₀.store.prices ++ earlier.flatMap Finished.appended ∧
      f.after.store.prices = f.before.store.prices ++ f.appended ∧ f.Right a) ∧
    ∀ call, (a.called call).Ends Responds (fun _ _ => True) w ∧
      ∀ p w', (a.called call).Reaches Responds w p w' →
        w'.store.prices = w.store.prices ∨ ∃ s, w'.store.prices = w.store.prices ++ [s] ∧
          ∀ result w'', p.Reaches Responds w' (.done result) w'' → call.appended result = [s] :=
  ⟨H.prices, fun _ _ _ hcalls => H.finished hcalls, fun call =>
    ⟨(called_ends call).mono fun _ _ _ => trivial, fun _ _ => called_underway⟩⟩

/-- A snapshot of which no query fails. -/
theorem snapshot_reaches (a : Aggregator) (w : Surroundings) :
    a.snapshot.Reaches Responds w (.done (.ok (a.current w.chains)))
      { w with store := w.store.insertSnapshot (a.current w.chains) } := by
  have hnative : a.native.run.Runs Responds w (.ok (a.current w.chains).native) w :=
    .query (.inl ⟨rfl, rfl⟩) .pure
  have hreference : a.reference.run.Runs Responds w (.ok (a.current w.chains).reference) w :=
    .query (.inl ⟨rfl, rfl⟩) .pure
  have hcomplete :
      (a.complete (a.current w.chains).native (a.current w.chains).reference).run.Runs Responds w
        (.ok (a.current w.chains)) w := by
    have hpool : (Engine.within .readingPool (Engine.poolPrice a.pool)).run.Runs Responds w
        (.ok (w.chains.poolPrice a.pool)) w := .query (.inl ⟨rfl, rfl⟩) .pure
    have htold (notice : Notice) : w.Responds (.tell notice) () w := .inl rfl
    have htoken : (a.token (a.current w.chains).native).run.Runs Responds w
        (.ok (a.current w.chains).token) w := by
      refine Program.Runs.bind hpool ?_
      dsimp only [ExceptT.bindCont]
      split
      · exact .query (htold _) .pure
      · exact .pure
    exact Program.Runs.bind htoken .pure
  have happend : (append (a.current w.chains)).run.Runs Responds w (.ok (a.current w.chains))
      { w with store := w.store.insertSnapshot (a.current w.chains) } := by
    have htold (w : Surroundings) (notice : Notice) : w.Responds (.tell notice) () w := .inl rfl
    exact .query (.inl ⟨rfl, rfl⟩) (.query (htold _ _) .pure)
  have horacles := ((Process.Reaches.of_runs hnative).untilFailure_left _).trans
    ((Process.Reaches.of_runs hreference).untilFailure_right _)
  have hlive : a.live.Reaches Responds w (.done (.ok (a.current w.chains))) w :=
    (horacles.tail (.inr (.inr (.inr (.inr ⟨_, _, rfl, rfl, rfl, rfl⟩))))).andThen_done
      (.of_runs hcomplete)
  exact hlive.andThen_done (.of_runs happend)

def sample : Aggregator := ⟨Bytes.zero 20, Bytes.zero 20, Bytes.zero 20, .ofInt 80⟩

/-- A snapshot of an empty pool, after which the last one is asked for. -/
theorem sample_session :
    let s := sample.current Surroundings.sample.chains
    let w : Surroundings := { Surroundings.sample with
      store := Surroundings.sample.store.insertSnapshot s }
    sample.Session .sample [⟨.snapshot, .sample, .ok s, w⟩, ⟨.latest, w, .ok (some s), w⟩] w ∧
      w.store.prices = [s] ∧ sample.Quotes Surroundings.sample.chains s := by
  intro s w
  have hsnapshot : (sample.called .snapshot).Reaches Responds .sample (.done (.ok s)) w :=
    snapshot_reaches sample .sample
  have hlast : latest.run.Runs Responds w (.ok (some s)) w := .query (.inl ⟨rfl, rfl⟩) .pure
  have hlatest : (sample.called .latest).Reaches Responds w (.done (.ok (some s))) w :=
    .of_runs hlast
  have hsession : sample.Session .sample
      [⟨.snapshot, .sample, .ok s, w⟩, ⟨.latest, w, .ok (some s), w⟩] w :=
    (Session.start.call hsnapshot).call hlatest
  obtain ⟨hprices, hfinished, -⟩ := ledger_holds_snapshots hsession
  exact ⟨hsession, hprices, (hfinished [] _ _ rfl).2.2⟩

end Aggregator

end ChainIngest
