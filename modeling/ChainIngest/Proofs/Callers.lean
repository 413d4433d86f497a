import ChainIngest.Scheduler
import ChainIngest.Proofs.Interference

/-! Who asks what. Calls that are alike but asked by different parts of an engine may fail in one
part and succeed in another, so queries are told apart here by who asks them. A process whose
queries are marked so is the process that it is without the marks (`Scheduler.startupBy_erase`). -/

namespace ChainIngest

/-- The queries of an interface, each with who asks it. -/
def Interface.By (I : Interface) (ι : Type) : Interface where
  Query := ι × I.Query
  Answer q := I.Answer q.2

variable {I : Interface} {ι α β σ : Type}

namespace Program

/-- A program of which all queries are asked by `i`. -/
def askedBy (i : ι) : Program I α → Program (I.By ι) α
  | .pure value => .pure value
  | .query q next => .query (i, q) fun answer => (next answer).askedBy i

/-- A program regardless of who asks its queries. -/
def erase : Program (I.By ι) α → Program I α
  | .pure value => .pure value
  | .query q next => .query q.2 fun answer => (next answer).erase

@[simp] theorem erase_askedBy (i : ι) (p : Program I α) : (p.askedBy i).erase = p := by
  induction p with
  | pure value => rfl
  | query q next ih => simp [askedBy, erase, ih]

end Program

/-- How queries are answered that are asked by `i`. -/
def Answering.of (A : Answering (I.By ι) σ) (i : ι) : Answering I σ :=
  fun s q answer s' => A s (i, q) answer s'

namespace Process

/-- A process of which all queries are asked by `i`. -/
def askedBy (i : ι) : {α : Type} → Process I α → Process (I.By ι) α
  | _, .run p => .run (p.askedBy i)
  | _, .andThen first next => .andThen (first.askedBy i) fun value => (next value).askedBy i
  | _, .both left right => .both (left.askedBy i) (right.askedBy i)
  | _, .untilFailure left right => .untilFailure (left.askedBy i) (right.askedBy i)
  | _, .loop state round => .loop state fun state => (round state).askedBy i

/-- A process regardless of who asks its queries. -/
def erase : {α : Type} → Process (I.By ι) α → Process I α
  | _, .run p => .run p.erase
  | _, .andThen first next => .andThen first.erase fun value => (next value).erase
  | _, .both left right => .both left.erase right.erase
  | _, .untilFailure left right => .untilFailure left.erase right.erase
  | _, .loop state round => .loop state fun state => (round state).erase

@[simp] theorem erase_askedBy (i : ι) (p : Process I α) : (p.askedBy i).erase = p := by
  induction p with
  | run p => simp [askedBy, erase]
  | andThen first next ihFirst ihNext => simp [askedBy, erase, ihFirst, ihNext]
  | both left right ihLeft ihRight => simp [askedBy, erase, ihLeft, ihRight]
  | untilFailure left right ihLeft ihRight => simp [askedBy, erase, ihLeft, ihRight]
  | loop state round ih => simp [askedBy, erase, ih]

theorem value?_askedBy (i : ι) (p : Process I α) : (p.askedBy i).value? = p.value? := by
  cases p with
  | run p =>
    cases p with
    | pure value => rfl
    | query q next => rfl
  | andThen first next => rfl
  | both left right => rfl
  | untilFailure left right => rfl
  | loop state round => rfl

/-- A process goes on as it does whoever asks its queries. -/
theorem step_askedBy_iff {A : Answering (I.By ι) σ} {i : ι} {p : Process I α}
    {q : Process (I.By ι) α} {s s' : σ} :
    (p.askedBy i).Step A s q s' ↔ ∃ p', p.Step (A.of i) s p' s' ∧ q = p'.askedBy i := by
  induction p with
  | run p =>
    cases p with
    | pure value => exact ⟨False.elim, fun ⟨_, h, _⟩ => h⟩
    | query query next =>
      constructor
      · rintro ⟨answer, hanswer, rfl⟩
        exact ⟨_, ⟨answer, hanswer, rfl⟩, rfl⟩
      · rintro ⟨_, ⟨answer, hanswer, rfl⟩, rfl⟩
        exact ⟨answer, hanswer, rfl⟩
  | andThen first next ihFirst _ =>
    constructor
    · rintro (⟨_, hmarked, rfl⟩ | ⟨value, hvalue, rfl, rfl⟩)
      · obtain ⟨first', hstep, rfl⟩ := ihFirst.mp hmarked
        exact ⟨_, .inl ⟨first', hstep, rfl⟩, rfl⟩
      · exact ⟨_, .inr ⟨value, value?_askedBy i first ▸ hvalue, rfl, rfl⟩, rfl⟩
    · rintro ⟨_, ⟨first', hstep, rfl⟩ | ⟨value, hvalue, rfl, rfl⟩, rfl⟩
      · exact .inl ⟨_, ihFirst.mpr ⟨first', hstep, rfl⟩, rfl⟩
      · exact .inr ⟨value, (value?_askedBy i first).trans hvalue, rfl, rfl⟩
  | both left right ihLeft ihRight =>
    constructor
    · rintro (⟨_, hmarked, rfl⟩ | ⟨_, hmarked, rfl⟩ | ⟨a, b, ha, hb, rfl, rfl⟩)
      · obtain ⟨left', hstep, rfl⟩ := ihLeft.mp hmarked
        exact ⟨_, .inl ⟨left', hstep, rfl⟩, rfl⟩
      · obtain ⟨right', hstep, rfl⟩ := ihRight.mp hmarked
        exact ⟨_, .inr (.inl ⟨right', hstep, rfl⟩), rfl⟩
      · rw [value?_askedBy] at ha hb
        exact ⟨_, .inr (.inr ⟨a, b, ha, hb, rfl, rfl⟩), rfl⟩
    · rintro ⟨_, ⟨left', hstep, rfl⟩ | ⟨right', hstep, rfl⟩ | ⟨a, b, ha, hb, rfl, rfl⟩, rfl⟩
      · exact .inl ⟨_, ihLeft.mpr ⟨left', hstep, rfl⟩, rfl⟩
      · exact .inr (.inl ⟨_, ihRight.mpr ⟨right', hstep, rfl⟩, rfl⟩)
      · rw [← value?_askedBy i] at ha hb
        exact .inr (.inr ⟨a, b, ha, hb, rfl, rfl⟩)
  | untilFailure left right ihLeft ihRight =>
    constructor
    · rintro (⟨_, hmarked, rfl⟩ | ⟨_, hmarked, rfl⟩ | ⟨e, he, rfl, rfl⟩ | ⟨e, he, rfl, rfl⟩ |
        ⟨a, b, ha, hb, rfl, rfl⟩)
      · obtain ⟨left', hstep, rfl⟩ := ihLeft.mp hmarked
        exact ⟨_, .inl ⟨left', hstep, rfl⟩, rfl⟩
      · obtain ⟨right', hstep, rfl⟩ := ihRight.mp hmarked
        exact ⟨_, .inr (.inl ⟨right', hstep, rfl⟩), rfl⟩
      · rw [value?_askedBy] at he
        exact ⟨_, .inr (.inr (.inl ⟨e, he, rfl, rfl⟩)), rfl⟩
      · rw [value?_askedBy] at he
        exact ⟨_, .inr (.inr (.inr (.inl ⟨e, he, rfl, rfl⟩))), rfl⟩
      · rw [value?_askedBy] at ha hb
        exact ⟨_, .inr (.inr (.inr (.inr ⟨a, b, ha, hb, rfl, rfl⟩))), rfl⟩
    · rintro ⟨_, ⟨left', hstep, rfl⟩ | ⟨right', hstep, rfl⟩ | ⟨e, he, rfl, rfl⟩ |
        ⟨e, he, rfl, rfl⟩ | ⟨a, b, ha, hb, rfl, rfl⟩, rfl⟩
      · exact .inl ⟨_, ihLeft.mpr ⟨left', hstep, rfl⟩, rfl⟩
      · exact .inr (.inl ⟨_, ihRight.mpr ⟨right', hstep, rfl⟩, rfl⟩)
      · rw [← value?_askedBy i] at he
        exact .inr (.inr (.inl ⟨e, he, rfl, rfl⟩))
      · rw [← value?_askedBy i] at he
        exact .inr (.inr (.inr (.inl ⟨e, he, rfl, rfl⟩)))
      · rw [← value?_askedBy i] at ha hb
        exact .inr (.inr (.inr (.inr ⟨a, b, ha, hb, rfl, rfl⟩)))
  | loop state round _ =>
    constructor
    · rintro ⟨rfl, rfl⟩
      refine ⟨_, ⟨rfl, rfl⟩, congrArg _ (funext fun result => ?_)⟩
      cases result with
      | inl state' => rfl
      | inr value => rfl
    · rintro ⟨_, ⟨rfl, rfl⟩, rfl⟩
      refine ⟨rfl, congrArg _ (funext fun result => ?_)⟩
      cases result with
      | inl state' => rfl
      | inr value => rfl

theorem erase_bind (p : Process (I.By ι) α) (k : α → Process (I.By ι) β) :
    (p >>= k).erase = p.erase >>= fun value => (k value).erase := rfl

theorem erase_map (p : Process (I.By ι) α) (f : α → β) : (p.map f).erase = p.erase.map f := rfl

theorem erase_all (ps : List (Process (I.By ι) α)) : (all ps).erase = all (ps.map erase) := by
  induction ps with
  | nil => rfl
  | cons p ps ih =>
    rw [List.map_cons, all, all, erase_map, ← ih]
    rfl

theorem erase_allInOrder (use : α → Program (I.By ι) Unit) (ps : List (Process (I.By ι) α)) :
    (allInOrder use ps).erase = allInOrder (fun value => (use value).erase) (ps.map erase) := by
  suffices h : ∀ before : Process (I.By ι) Unit,
      (ps.foldl (fun before p => (before.both p).andThen fun ab => .run (use ab.2)) before).erase =
        (ps.map erase).foldl (fun before p =>
          (before.both p).andThen fun ab => .run (use ab.2).erase) before.erase from h (done ())
  induction ps with
  | nil => exact fun _ => rfl
  | cons p ps ih => exact fun before => ih _

end Process

/-- The parts of an engine that ask queries during startup. -/
inductive Caller where
  | tracker (node : Node)
  | task (index : Nat)
  | prices
  | scheduler
  deriving DecidableEq, Repr

namespace Scheduler

open Engine

/-- Refreshing the heads: each tracker asks for itself. -/
def refreshHeadsBy (trackers : List HeadTracker) : Process (Engine.By Caller) Unit := do
  let results ← .all (trackers.map fun t => (Process.run t.refresh.run).askedBy (.tracker t.node))
  let announced := (trackers.zip results).forM fun (t, result) => announceHead t result
  (Process.run announced).askedBy .scheduler

/-- Catching up: each worker asks for its task. -/
def catchUpBy (scrapers : List Scraper) : Process (Engine.By Caller) Unit := do
  let enabled := scrapers.filter (·.task.enabled)
  (Process.run (tell (.catchingUp enabled.length))).askedBy .scheduler
  .allInOrder (·.askedBy .scheduler) (enabled.map fun s =>
    ((CatchUp.worker s).askedBy (.task s.index)).map (CatchUp.announce s))
  (Process.run (tell .catchUpFinished)).askedBy .scheduler

/-- The startup pass, with who asks each query. -/
def startupBy (S : Scheduler) : Process (Engine.By Caller) Unit := do
  refreshHeadsBy S.trackers
  match ← (snapshotPrices S.aggregator).askedBy .prices with
  | .ok () => pure ()
  | .error fault => (Process.run (tell (.startupPriceFailed fault))).askedBy .scheduler
  catchUpBy S.scrapers

theorem refreshHeadsBy_erase (trackers : List HeadTracker) :
    (refreshHeadsBy trackers).erase = refreshHeads trackers := by
  unfold refreshHeadsBy refreshHeads
  rw [Process.erase_bind, Process.erase_all, List.map_map]
  simp only [Process.erase_askedBy, Function.comp_def]

theorem catchUpBy_erase (scrapers : List Scraper) :
    (catchUpBy scrapers).erase = CatchUp.run scrapers := by
  unfold catchUpBy CatchUp.run
  simp only [Process.erase_bind, Process.erase_askedBy, Process.erase_allInOrder, List.map_map,
    Function.comp_def, Process.erase_map, Program.erase_askedBy]
  rfl

/-- The startup pass is the same regardless of who asks its queries. -/
theorem startupBy_erase (S : Scheduler) : S.startupBy.erase = S.startup := by
  unfold startupBy startup
  simp only [Process.erase_bind, refreshHeadsBy_erase, Process.erase_askedBy]
  congr
  funext _
  congr
  funext result
  cases result with
  | ok value =>
    cases value
    exact catchUpBy_erase S.scrapers
  | error fault => simp only [Process.erase_bind, Process.erase_askedBy, catchUpBy_erase]

end Scheduler

end ChainIngest
