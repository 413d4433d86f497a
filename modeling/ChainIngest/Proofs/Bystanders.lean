import ChainIngest.Proofs.Outages

/-! Parts of startup that are of no account to the others: prices are recorded, and what has become
of trackers and workers is told. They end whichever calls fail, and no tracker or worker depends on
what they do. -/

namespace ChainIngest

/-- What neither trackers nor workers depend on. -/
def Engine.Idle : Engine.Query → Prop
  | .tell _ | .oracleAnswer _ | .poolPrice _ | .insertSnapshot _ => True
  | _ => False

theorem Engine.Idle.keeps {q : Engine.Query} {answer : Engine.Answer q} {w w' : Surroundings}
    (H : Engine.Idle q) (h : w.Answers q answer w') :
    Surroundings.parts.Agree (fun _ => True) w w' := by
  cases q with
  | tell => exact (show w' = w from h) ▸ .refl _
  | oracleAnswer | poolPrice => exact h.2 ▸ .refl _
  | insertSnapshot snapshot =>
    obtain ⟨-, rfl⟩ := h
    exact Surroundings.agree_of_eq rfl rfl rfl
  | _ => exact absurd H id

/-- Nothing is read, and nothing is written but what is noted down of a caller. -/
def Footprint.ofCaller (i : Caller) : Footprint Watched.parts := ⟨fun _ => False, (· = .inr i)⟩

/-- The footprint of what has everything for itself. -/
def Footprint.whole : Footprint Watched.parts := ⟨fun _ => True, fun _ => True⟩

/-- Whatever has been done before, a process of a caller ends, and is of no account to others. -/
def Process.Idles (F : Outages) (i : Caller) (p : Process Engine α) : Prop :=
  ∀ st, p.Fulfils (F.Answers.of i) (.ofCaller i) (fun _ _ => True) st

namespace Process.Idles

variable {F : Outages} {i : Caller} {st st' : Watched}

theorem run {p : Program Engine α} (H : p.Asks Engine.Idle) :
    (Process.run p).Idles F i := by
  intro st
  refine .run (fun _ _ _ _ _ => trivial) (H.abides (K := fun _ => True) ?_ trivial)
  refine ⟨fun _ _ => trivial, ?_, ?_⟩
  · intro st q hq _ _
    have hfree : ∀ guard, q = .acquire guard → st.world.held guard = false := by
      rintro guard rfl
      exact absurd hq id
    obtain ⟨answer, w, hanswer⟩ := Surroundings.exists_answers q hfree
    exact F.exists_answers hanswer
  · intro st q answer st' hq _ hanswer
    refine ⟨(F.agree_of_answers hanswer fun w => hq.keeps).mono ?_, trivial⟩
    intro x hx
    cases x with
    | inl x => trivial
    | inr j => exact fun heq => hx (congrArg _ heq)

theorem andThen {first : Process Engine α} {next : α → Process Engine β} (H : first.Idles F i)
    (h : ∀ value, (next value).Idles F i) : (first.andThen next).Idles F i :=
  fun st => .andThen ((H st).mono .refl fun value st' _ => h value st')

theorem untilFailure {left : Process Engine (Except ε α)} {right : Process Engine (Except ε β)}
    (H : left.Idles F i) (H' : right.Idles F i) : (left.untilFailure right).Idles F i :=
  fun st => .untilFailure .refl .refl (fun _ _ => id) (fun _ _ => id) (H st) (H' st)

/-- A process that is of no account changes nothing but what is noted down of its caller. -/
theorem keeps {p : Process Engine α} (H : p.Idles F i) :
    (p.askedBy i).Fulfils F.Answers .whole
      (fun _ st' => Watched.parts.Agree (¬(Footprint.ofCaller i).writes ·) st st') st :=
  (H st).askedBy.watching.mono ⟨fun _ => id, fun _ _ => trivial⟩ fun _ _ h => h.2

end Process.Idles

open Process (Idles)

/-- What is of no account, after what is not: nothing has changed but by the latter, beside what is
noted down of the caller. -/
theorem Process.Fulfils.thenIdles {F : Outages} {i : Caller} {st : Watched}
    {first : Process (Engine.By Caller) α} {next : α → Process Engine β}
    {G : Footprint Watched.parts} {post : α → Watched → Prop}
    (H : first.Fulfils F.Answers G post st) (hnext : ∀ value, (next value).Idles F i)
    (hreads : ¬G.reads (.inr i)) :
    (first.andThen fun value => (next value).askedBy i).Fulfils F.Answers .whole
      (fun _ st' => (∃ value, post value st') ∧
        Watched.parts.Agree (¬(G.join (.ofCaller i)).writes ·) st st') st := by
  have hspares : (Footprint.ofCaller i).Spares G := by
    rintro x rfl
    exact hreads
  have hafter := H.andThenAside (fun value st' _ => (hnext value st').askedBy) hspares
    .join_left .join_right
  exact hafter.watching.mono ⟨fun _ => id, fun _ _ => trivial⟩ fun _ _ h => h

theorem Program.Asks.forM {Q : Engine.Query → Prop} {f : ι → Program Engine PUnit} (xs : List ι)
    (h : ∀ x, (f x).Asks Q) : (xs.forM f).Asks Q := by
  induction xs with
  | nil => trivial
  | cons x xs ih => exact .bind (h x) fun _ => ih

namespace Action

variable {Q : Engine.Query → Prop}

theorem asks_bind {a : Action α} {k : α → Action β} (H : a.run.Asks Q)
    (h : ∀ value, (k value).run.Asks Q) : (a >>= k).run.Asks Q := by
  refine Program.Asks.bind H fun result => ?_
  cases result with
  | error fault => trivial
  | ok value => exact h value

theorem asks_within {a : Action α} {context : FaultContext} (H : a.run.Asks Q) :
    (Engine.within context a).run.Asks Q := by
  refine Program.Asks.bind H fun result => ?_
  cases result with
  | error fault => trivial
  | ok value => trivial

end Action

/-! ### Prices -/

namespace Aggregator

variable {a : Aggregator}

theorem oracleAnswer_asks (oracle : Address) :
    (Engine.oracleAnswer oracle).run.Asks Engine.Idle :=
  ⟨trivial, fun _ => trivial⟩

theorem native_asks : a.native.run.Asks Engine.Idle :=
  Action.asks_bind (Action.asks_within (oracleAnswer_asks _)) fun _ => trivial

theorem reference_asks : a.reference.run.Asks Engine.Idle :=
  Action.asks_bind (Action.asks_within (oracleAnswer_asks _)) fun _ => trivial

theorem token_asks (native : Decimal) : (a.token native).run.Asks Engine.Idle := by
  have hpool : (Engine.poolPrice a.pool).run.Asks Engine.Idle := ⟨trivial, fun _ => trivial⟩
  refine Action.asks_bind (Action.asks_within hpool) fun sqrtPrice => ?_
  dsimp only
  split
  · exact Action.asks_bind ⟨trivial, fun _ => trivial⟩ fun _ => trivial
  · trivial

theorem complete_asks (native reference : Decimal) :
    (a.complete native reference).run.Asks Engine.Idle :=
  Action.asks_bind (token_asks native) fun _ => trivial

theorem append_asks (s : Snapshot) : (append s).run.Asks Engine.Idle := by
  have hinsert : (Engine.insertSnapshot s).run.Asks Engine.Idle := ⟨trivial, fun _ => trivial⟩
  exact Action.asks_bind hinsert fun _ =>
    Action.asks_bind ⟨trivial, fun _ => trivial⟩ fun _ => trivial

variable {F : Outages} {i : Caller}

theorem live_idles : a.live.Idles F i := by
  refine .andThen (.untilFailure (.run native_asks) (.run reference_asks)) fun result => ?_
  cases result with
  | error fault => exact .run trivial
  | ok prices => exact .run (complete_asks ..)

theorem snapshot_idles : a.snapshot.Idles F i := by
  refine live_idles.andThen fun result => ?_
  cases result with
  | error fault => exact .run trivial
  | ok s => exact .run (append_asks s)

theorem snapshotPrices_idles : (Scheduler.snapshotPrices a).Idles F i :=
  snapshot_idles.andThen fun _ => .run trivial

end Aggregator

/-! ### Announcements -/

theorem Scheduler.announceHead_asks (t : HeadTracker) (result : Except Fault UInt64) :
    (announceHead t result).Asks Engine.Idle := by
  cases result with
  | ok height => exact ⟨trivial, fun _ => trivial⟩
  | error fault => exact ⟨trivial, fun _ => trivial⟩

theorem CatchUp.announce_asks (s : Scraper) (result : CatchUp.Result) :
    (CatchUp.announce s result).Asks Engine.Idle := by
  cases result with
  | ok report => exact ⟨trivial, fun _ => trivial⟩
  | error fault => exact ⟨trivial, fun _ => trivial⟩

theorem Process.Idles.tell (F : Outages) (i : Caller) (notice : Notice) :
    (Process.run (Engine.tell notice)).Idles F i :=
  .run ⟨trivial, fun _ => trivial⟩

end ChainIngest
