import ChainIngest.HeadTracker
import ChainIngest.Proofs.CatchUps
import ChainIngest.Proofs.HeadUpdates

/-! What a tracker does about one header. What its node is going to deliver is a feed of attempts to
subscribe, each of which is refused or becomes a stream that closes after some headers and errors.
Whatever fails meanwhile, a header is handled in full: its height is recorded, and if that succeeds
then each enabled scraper is ticked once. -/

namespace ChainIngest

/-- The events of a complete run of a program, with what it answers. -/
inductive Program.Dialogue {ι α : Type} : Program Engine α → List (Event ι) → α → Prop
  | pure : Dialogue (.pure value) [] value
  | query {q : Engine.Query} {next : Engine.Answer q → Program Engine α}
      {answer : Engine.Answer q} : Dialogue (next answer) events value →
      Dialogue (.query q next) (⟨i, q, answer, w, w'⟩ :: events) value

/-- The dialogue of two programs is that of the first one and then that of the second one. -/
theorem Program.Dialogue.of_bind {ι α β : Type} {p : Program Engine α} {k : α → Program Engine β}
    {events : List (Event ι)} {value : β} (H : (p >>= k).Dialogue events value) :
    ∃ first rest between, events = first ++ rest ∧ p.Dialogue first between ∧
      (k between).Dialogue rest value := by
  induction p generalizing events with
  | pure between => exact ⟨[], events, between, rfl, .pure, H⟩
  | query q next ih =>
    cases H with
    | query H' =>
      obtain ⟨first, rest, between, rfl, hfirst, hrest⟩ := ih _ H'
      exact ⟨_ :: first, rest, between, rfl, .query hfirst, hrest⟩

/-- In a dialogue of a program there is nothing but what the program asks. -/
theorem Program.Dialogue.asks {ι α : Type} {p : Program Engine α} {events : List (Event ι)}
    {value : α} {Q : Engine.Query → Prop} (H : p.Dialogue events value) (h : p.Asks Q) :
    ∀ e ∈ events, Q e.query := by
  induction H with
  | pure => exact List.forall_mem_nil _
  | query _ ih =>
    intro e he
    rcases List.mem_cons.mp he with rfl | he
    · exact h.1
    · exact ih (h.2 _) e he

/-! ### Feeds -/

/-- What an attempt to subscribe comes to. A stream closes after its items. -/
inductive Attempt where
  | refused (fault : Fault)
  | stream (items : List (Except Fault UInt64))

def Attempt.items : Attempt → List (Except Fault UInt64)
  | .refused _ => []
  | .stream items => items

/-- The item of a stream that a subscription delivers. -/
def HeaderEvent.item? : HeaderEvent → Option (Except Fault UInt64)
  | .height h => some (.ok h)
  | .error fault => some (.error fault)
  | .closed => none

/-- What a node is going to deliver: the rest of the stream that is open, and what further attempts
to subscribe come to. -/
structure Feed where
  subscription : Subscription
  current : List (Except Fault UInt64)
  attempts : List Attempt

namespace Feed

/-- All headers and errors of a feed, in the order of delivery. -/
def items (f : Feed) : List (Except Fault UInt64) :=
  f.current ++ f.attempts.flatMap Attempt.items

/-- How an attempt to subscribe ends. One that cannot come to anything any more is cancelled. -/
def Opens (f : Feed) (mayCancel : Feed → Prop) : Awaited (Except Fault Subscription) → Feed → Prop
  | .cancelled, f' => (mayCancel f ∨ f.attempts = []) ∧ f' = f
  | .arrived (.error fault), f' =>
    f.attempts = .refused fault :: f'.attempts ∧ f'.current = f.current
  | .arrived (.ok subscription), f' =>
    f.attempts = .stream f'.current :: f'.attempts ∧ f'.subscription = subscription

/-- How a wait for the next header ends. -/
def Yields (f : Feed) (mayCancel : Feed → Prop) : Awaited HeaderEvent → Feed → Prop
  | .cancelled, f' => mayCancel f ∧ f' = f
  | .arrived event, f' =>
    match event.item? with
    | some item => f = { f' with current := item :: f'.current }
    | none => f.current = [] ∧ f' = f

/-- What becomes of a node's feed when a query is answered. Waits may be cancelled. -/
def Delivers (f : Feed) (node : Node) (mayCancel : Feed → Prop) :
    (q : Engine.Query) → Engine.Answer q → Feed → Prop
  | .subscribe n, answer, f' => if n = node then f.Opens mayCancel answer f' else f' = f
  | .nextHeader subscription, answer, f' =>
    if subscription = f.subscription then f.Yields mayCancel answer f' else f' = f
  | .pause _, .cancelled, f' => mayCancel f ∧ f' = f
  | _, _, f' => f' = f

/-- How much is to come at most before a feed is at its end. -/
def size (f : Feed) : Nat := f.items.length + 3 * f.attempts.length

variable {f f' : Feed} {node : Node} {mayCancel : Feed → Prop}

/-- Some answer to an attempt to subscribe is always due. -/
theorem exists_opens (f : Feed) (mayCancel : Feed → Prop) :
    ∃ answer f', f.Opens mayCancel answer f' := by
  cases hattempts : f.attempts with
  | nil => exact ⟨.cancelled, f, .inr hattempts, rfl⟩
  | cons attempt rest =>
    cases attempt with
    | refused fault => exact ⟨.arrived (.error fault), { f with attempts := rest }, hattempts, rfl⟩
    | stream items => exact ⟨.arrived (.ok 0), ⟨0, items, rest⟩, hattempts, rfl⟩

/-- So is some answer to a wait for the next header. -/
theorem exists_yields (f : Feed) (mayCancel : Feed → Prop) :
    ∃ answer f', f.Yields mayCancel answer f' := by
  obtain ⟨subscription, current, attempts⟩ := f
  match current with
  | [] => exact ⟨.arrived .closed, _, rfl, rfl⟩
  | .ok height :: rest => exact ⟨.arrived (.height height), ⟨subscription, rest, attempts⟩, rfl⟩
  | .error fault :: rest => exact ⟨.arrived (.error fault), ⟨subscription, rest, attempts⟩, rfl⟩

/-- An attempt to subscribe that has come to something is gone, and no item with it. -/
theorem Opens.arrived {result : Except Fault Subscription}
    (H : f.Opens mayCancel (.arrived result) f') (h : f.current = []) :
    f'.items = f.items ∧ f'.size + 3 = f.size := by
  have hparts : f'.items = f.items ∧ f.attempts.length = f'.attempts.length + 1 := by
    cases result with
    | error fault =>
      obtain ⟨hattempts, hcurrent⟩ := H
      simp [items, hattempts, hcurrent, Attempt.items]
    | ok =>
      obtain ⟨hattempts, -⟩ := H
      simp [items, hattempts, h, Attempt.items]
  refine ⟨hparts.1, ?_⟩
  unfold size
  rw [hparts.1, hparts.2]
  rfl

/-- An item that is delivered is the next one. -/
theorem Yields.delivered {event : HeaderEvent} {item : Except Fault UInt64}
    (H : f.Yields mayCancel (.arrived event) f') (h : event.item? = some item) :
    f.items = item :: f'.items ∧ f'.subscription = f.subscription ∧ f'.size + 1 = f.size := by
  have hfeed : f = { f' with current := item :: f'.current } := by
    simpa only [Yields, h] using H
  subst hfeed
  refine ⟨rfl, rfl, ?_⟩
  show f'.items.length + 3 * f'.attempts.length + 1 =
    f'.items.length + 1 + 3 * f'.attempts.length
  omega

/-- What is neither an attempt to subscribe nor a wait. -/
def Aside : Engine.Query → Prop
  | .subscribe _ | .nextHeader _ | .pause _ => False
  | _ => True

theorem Delivers.eq {q : Engine.Query} {answer : Engine.Answer q}
    (H : f.Delivers node mayCancel q answer f') (hq : Aside q) : f' = f := by
  cases q with
  | subscribe | nextHeader | pause => exact hq.elim
  | _ => exact H

end Feed

/-! ### What a tracker may count on -/

/-- Surroundings, a feed that is being followed, and what has been asked so far. -/
structure Heard where
  world : Surroundings
  feed : Feed
  events : List (Event Unit)

/-- Which calls may fail while a feed is followed, and when a wait may be cancelled. -/
structure Broadcast where
  mayFail : Engine.Query → Prop
  mayCancel : Feed → Prop

/-- How queries are answered, the feed apart. A call that fails has no effect. -/
def Broadcast.Answers (B : Broadcast) (w : Surroundings) (q : Engine.Query)
    (answer : Engine.Answer q) (w' : Surroundings) : Prop :=
  w.Answers q answer w' ∨ B.mayFail q ∧ w' = w ∧ ∃ fault, Engine.failure? q fault = some answer

theorem Broadcast.Answers.responds {B : Broadcast} {w w' : Surroundings} {q : Engine.Query}
    {answer : Engine.Answer q} (H : B.Answers w q answer w') : w.Responds q answer w' :=
  H.imp_right And.right

/-- The stored head of a tracker can be read and written. -/
structure Broadcast.StoresHead (B : Broadcast) (t : HeadTracker) : Prop where
  reads : ∀ text, ¬B.mayFail (.readCheckpoint (CheckpointKey.head t.chain) text)
  writes : ∀ text, ¬B.mayFail (.writeCheckpoint (CheckpointKey.head t.chain) text)

namespace HeadTracker

/-- The stored head and the guard of the tracker are as they were. -/
structure Undisturbed (t : HeadTracker) (w w' : Surroundings) : Prop where
  stored : t.stored? w' = t.stored? w
  guard : w'.held t.guard = w.held t.guard

variable {t : HeadTracker} {B : Broadcast} {w w' w'' : Surroundings} {st st' : Heard} {f f' : Feed}

theorem Undisturbed.refl : t.Undisturbed w w := ⟨rfl, rfl⟩

theorem Undisturbed.trans (H : t.Undisturbed w w') (H' : t.Undisturbed w' w'') :
    t.Undisturbed w w'' :=
  ⟨H'.stored.trans H.stored, H'.guard.trans H.guard⟩

/-- Scrapers have guards of their own, and do not write the head. -/
theorem Undisturbed.of_agree {s : Scraper} (h : Surroundings.parts.Agree (¬s.Touches ·) w w') :
    t.Undisturbed w w' where
  stored := (Surroundings.height?_head_congr (h (.head t.chain) id)).symm
  guard := (h (.guard t.guard) nofun).symm

/-- The pact of a tracker that follows its node's feed: others may do anything but move the stored
head and take the tracker's guard. -/
def listening (t : HeadTracker) (B : Broadcast) : Pact Engine Heard where
  answers st q answer st' := B.Answers st.world q answer st'.world ∧
    st.feed.Delivers t.node B.mayCancel q answer st'.feed ∧
    st'.events = st.events ++ [⟨(), q, answer, st.world, st'.world⟩]
  rely st st' := t.Undisturbed st.world st'.world ∧ st'.feed = st.feed ∧ st'.events = st.events
  guar _ _ _ _ := True
  live := True
  rely_refl _ := ⟨.refl, rfl, rfl⟩
  rely_trans := fun ⟨hkept, hfeed, hevents⟩ ⟨hkept', hfeed', hevents'⟩ =>
    ⟨hkept.trans hkept', hfeed'.trans hfeed, hevents'.trans hevents⟩

/-- No wait is left without an end. -/
theorem exists_delivers (f : Feed) {q : Engine.Query} {answer : Engine.Answer q}
    (h : w.Answers q answer w') :
    ∃ answer f', w.Answers q answer w' ∧ f.Delivers t.node B.mayCancel q answer f' := by
  cases q with
  | subscribe n =>
    by_cases hn : n = t.node
    · obtain ⟨answer, f', hopens⟩ := f.exists_opens B.mayCancel
      refine ⟨answer, f', h, ?_⟩
      rwa [Feed.Delivers, if_pos hn]
    · refine ⟨answer, f, h, ?_⟩
      rw [Feed.Delivers, if_neg hn]
  | nextHeader s =>
    by_cases hs : s = f.subscription
    · obtain ⟨answer, f', hyields⟩ := f.exists_yields B.mayCancel
      refine ⟨answer, f', h, ?_⟩
      rwa [Feed.Delivers, if_pos hs]
    · refine ⟨answer, f, h, ?_⟩
      rw [Feed.Delivers, if_neg hs]
  | pause => exact ⟨.arrived (), f, h, rfl⟩
  | _ => exact ⟨answer, f, h, rfl⟩

theorem listening_over : (t.listening B).Over Heard.world where
  responds h := h.1.responds
  answered {_ _ _ w'} _ h := by
    obtain ⟨answer, f', hanswer, hdelivers⟩ := exists_delivers (t := t) (B := B) _ h
    exact ⟨answer, ⟨w', f', _ ++ [⟨(), _, answer, _, w'⟩]⟩, .inl hanswer, hdelivers, rfl⟩

/-- What is known between two queries that do not wait: the stored head, whether the guard is held,
and the feed. -/
structure Knows (t : HeadTracker) (stored : Option UInt64) (isHeld : Bool) (f : Feed)
    (st : Heard) : Prop where
  stored : t.stored? st.world = stored
  guard : st.world.held t.guard = isHeld
  feed : st.feed = f

namespace Knows

variable {stored : Option UInt64} {isHeld : Bool}

theorem undisturbed (H : t.Knows stored isHeld f st) (h : t.Undisturbed st.world st'.world)
    (hfeed : st'.feed = st.feed) : t.Knows stored isHeld f st' :=
  ⟨h.stored.trans H.stored, h.guard.trans H.guard, hfeed.trans H.feed⟩

theorem withGuard (H : t.Knows stored isHeld f st)
    (h : st'.world = st.world.withGuard t.guard isTaken) (hfeed : st'.feed = st.feed) :
    t.Knows stored isTaken f st' := by
  refine ⟨?_, ?_, hfeed.trans H.feed⟩
  · rw [h]
    exact H.stored
  · rw [h]
    exact Function.update_self ..

theorem stable : (t.listening B).Stable (t.Knows stored isHeld f) :=
  fun H hrely => H.undisturbed hrely.1 hrely.2.1

/-- What leaves the head and the guard alone, and does not wait. -/
theorem allows {Q : Engine.Query → Prop} (haside : ∀ {q}, Q q → Feed.Aside q)
    (hfree : ∀ {guard}, ¬Q (.acquire guard))
    (hkept : ∀ {w q answer w'}, Q q → w.Answers q answer w' → t.Undisturbed w w') :
    (t.listening B).Allows Q (t.Knows stored isHeld f) where
  stable := stable
  answered {st q} hq _ hlive := by
    obtain ⟨answer, w', hanswer⟩ :=
      st.world.exists_answers q fun guard heq => absurd (heq ▸ hq) hfree
    exact listening_over.answered hlive hanswer
  keeps {st q answer st'} hq H hanswer := by
    refine ⟨trivial, H.undisturbed ?_ (hanswer.2.1.eq (haside hq))⟩
    rcases hanswer.1 with hanswer | ⟨-, hsame, -⟩
    · exact hkept hq hanswer
    · exact hsame ▸ .refl

end Knows

/-! ### One header -/

/-- What has been asked since, in the order of asking. -/
theorem exists_dialogue {p : Program Engine α}
    (H : p.Runs (t.listening B).among st value st') :
    ∃ more, st'.events = st.events ++ more ∧ p.Dialogue more value ∧
      more.getLast?.elim st.world Event.after = st'.world := by
  induction H with
  | pure => exact ⟨[], (List.append_nil _).symm, .pure, rfl⟩
  | @query _ _ _ s₁ _ _ _ hanswer _ ih =>
    obtain ⟨s, hrely, -, -, hnoted⟩ := hanswer
    obtain ⟨more, hmore, hdialogue, hlast⟩ := ih
    refine ⟨⟨(), _, _, s.world, s₁.world⟩ :: more, ?_, .query hdialogue, ?_⟩
    · rw [hmore, hnoted, hrely.2.2, List.append_assoc]
      rfl
    · rw [List.getLast?_cons, ← hlast]
      cases more.getLast? with
      | none => rfl
      | some e => rfl

/-- What has come of recording a height. -/
def Recorded (t : HeadTracker) (B : Broadcast) (stored : Option UInt64) (height : UInt64)
    (isHeld : Bool) (f : Feed) : Except Fault UInt64 → Heard → Prop
  | .ok top, st => (∃ before, stored = some before ∧ top = max before height) ∧
    t.Knows (some top) isHeld f st
  | .error _, st => (B.StoresHead t → stored = none) ∧ t.Knows stored isHeld f st

variable {stored : Option UInt64} {height : UInt64} {isHeld : Bool}

theorem Recorded.stable (result : Except Fault UInt64) :
    (t.listening B).Stable (t.Recorded B stored height isHeld f result) := by
  intro st st' H hrely
  cases result with
  | error fault => exact ⟨H.1, Knows.stable H.2 hrely⟩
  | ok top => exact ⟨H.1, Knows.stable H.2 hrely⟩

theorem Recorded.release {result : Except Fault UInt64}
    (H : t.Recorded B stored height true f result st)
    (hreleased : (t.listening B).answers st (.release t.guard) () st') :
    t.Recorded B stored height false f result st' := by
  have hworld : st'.world = st.world.withGuard t.guard false := by
    rcases hreleased.1 with h | ⟨-, -, fault, hfault⟩
    · exact h
    · cases hfault
  have hfeed : st'.feed = st.feed := hreleased.2.1.eq trivial
  cases result with
  | error fault => exact ⟨H.1, H.2.withGuard hworld hfeed⟩
  | ok top => exact ⟨H.1, H.2.withGuard hworld hfeed⟩

theorem Knows.consults : (t.listening B).Allows t.Consults (t.Knows stored isHeld f) := by
  refine Knows.allows ?aside ?free ?undisturbed
  case aside =>
    rintro q (rfl | ⟨notice, rfl⟩)
    · trivial
    · trivial
  case free => exact fun hq => hq.elim nofun nofun
  case undisturbed =>
    rintro w q answer w' (rfl | ⟨notice, rfl⟩) hanswer
    · exact ⟨(Spares.read (i := ()) (.inl hanswer)).stored?, congrArg (·.held t.guard) hanswer.2⟩
    · exact (show w' = w from hanswer) ▸ .refl

theorem Knows.recordsUnder : t.RecordsUnder height (t.listening B) Heard.world
    (t.Knows stored true f) (fun before st => stored = some before ∧ t.Knows stored true f st)
    (fun top => t.Recorded B stored height true f (.ok top))
    fun fault => t.Recorded B stored height true f (.error fault) where
  pactOver := listening_over
  reads := Knows.consults.mono fun _ => .inl
  unread hK hanswer hunread hK₂ := by
    refine ⟨fun hstores => ?_, hK₂⟩
    rcases hunread with hfailed | hnone
    · rcases hanswer.1 with h | ⟨hfails, -⟩
      · exact absurd hfailed h.not_failed
      · exact absurd hfails (hstores.reads _)
    · exact hK.stored.symm.trans hnone
  read hK hholds := ⟨hK.stored.symm.trans (stored?_of_holds hholds), hK⟩
  tells := (Knows.consults.mono fun _ => .inr).and_fixed
  stays hle h := ⟨⟨_, h.1, (Height.max_eq_left hle).symm⟩, h.1 ▸ h.2⟩
  guar _ _ _ := trivial
  written hlt h hanswer hworld := by
    refine ⟨⟨_, h.1, (Height.max_eq_right (UInt64.le_of_lt hlt)).symm⟩, stored?_of_write hworld,
      ?_, (hanswer.2.1.eq trivial).trans h.2.feed⟩
    rw [hworld]
    exact h.2.guard
  unwritten _ h hanswer hsame := by
    refine ⟨fun hstores => ?_, h.2.undisturbed (hsame ▸ .refl) (hanswer.2.1.eq trivial)⟩
    rcases hanswer.1 with ⟨hok, -⟩ | ⟨hfails, -⟩
    · cases hok
    · exact absurd hfails (hstores.writes _)

theorem record_abides (H : t.Knows stored false f st) :
    (t.record height).run.Abides (t.listening B) (t.Recorded B stored height false f) st := by
  refine Program.Abides.guarded (t.Recorded B stored height true f) Knows.stable H ?answered ?body
    Recorded.stable ?answeredMid fun _ _ _ H₁ hreleased => ⟨trivial, H₁.release hreleased⟩
  case answered =>
    intro s₁ H₁ hlive
    have hacquired : s₁.world.Answers (.acquire t.guard) () (s₁.world.withGuard t.guard true) :=
      ⟨H₁.guard, rfl⟩
    obtain ⟨_, s', hanswer⟩ := listening_over.answered hlive hacquired
    exact ⟨s', hanswer⟩
  case answeredMid =>
    intro _ s₁ _ hlive
    have hreleased : s₁.world.Answers (.release t.guard) () (s₁.world.withGuard t.guard false) :=
      rfl
    obtain ⟨_, s', hanswer⟩ := listening_over.answered hlive hreleased
    exact ⟨s', hanswer⟩
  case body =>
    intro s₁ s₂ H₁ hacquired
    refine ⟨trivial, Action.Abides.of_results (Knows.recordsUnder.recordHeld_abides
      (H₁.withGuard ?_ (hacquired.2.1.eq trivial)))⟩
    rcases hacquired.1 with ⟨-, h⟩ | ⟨-, -, fault, hfault⟩
    · exact h
    · cases hfault

/-- What has been done about a header. -/
structure Handled where
  height : UInt64
  recorded : Except Fault UInt64
  ticks : List (Scraper × Option (Except Fault TickOutcome))
  /-- The surroundings when all is done. -/
  after : Surroundings

/-- Some scrapers are ticked one after another, each once, and what comes of it is told. -/
inductive Ticking :
    List (Scraper × Option (Except Fault TickOutcome)) → List (Event Unit) → Prop
  | nil : Ticking [] []
  | notice : e.query = .tell notice → Ticking ticks events → Ticking ticks (e :: events)
  | tick : s.tryTick.Dialogue attempt result → Ticking ticks events →
    Ticking ((s, result) :: ticks) (attempt ++ events)

/-- A height is recorded, and then scrapers are ticked. -/
def Handles (t : HeadTracker) (d : Handled) (events : List (Event Unit)) : Prop :=
  ∃ recording ticking, events = recording ++ ticking ∧
    (t.record d.height).run.Dialogue recording d.recorded ∧ Ticking d.ticks ticking ∧
    events.getLast?.map Event.after = some d.after

/-- The scrapers that are due after a height has been recorded. -/
def due (t : HeadTracker) (recorded : Except Fault UInt64) : List Scraper :=
  if recorded.isOk then t.scrapers.filter (·.task.enabled) else []

/-- What is asked when scrapers are ticked. -/
def Serves (q : Engine.Query) : Prop :=
  (∃ notice, q = .tell notice) ∨
    ∃ s : Scraper, s.AsksHeld q ∨ q = .tryAcquire s.guard ∨ q = .release s.guard

theorem Knows.serves : (t.listening B).Allows Serves (t.Knows stored isHeld f) := by
  have haside {s : Scraper} {q : Engine.Query} (hq : s.Works q) : Feed.Aside q := by
    cases q with
    | subscribe | nextHeader | pause => exact hq
    | _ => trivial
  refine Knows.allows ?aside ?free ?undisturbed
  case aside =>
    rintro q (⟨notice, rfl⟩ | ⟨s, hq | rfl | rfl⟩)
    · trivial
    · exact haside hq.works
    · trivial
    · trivial
  case free =>
    rintro guard (⟨notice, hq⟩ | ⟨s, hq | hq | hq⟩)
    · cases hq
    · exact Scraper.AsksHeld.not_acquire hq
    · cases hq
    · cases hq
  case undisturbed =>
    rintro w q answer w' (⟨notice, rfl⟩ | ⟨s, hq | rfl | rfl⟩) hanswer
    · exact (show w' = w from hanswer) ▸ .refl
    · exact .of_agree (hq.works.keeps hanswer)
    · refine .of_agree (s := s) ?_
      rw [show w' = w.withGuard s.guard true from hanswer.2]
      exact Surroundings.agree_withGuard.mono fun x hx => by rintro rfl; exact hx (Eq.refl _)
    · have hworks : s.Works (.release s.guard) := Eq.refl _
      exact .of_agree (hworks.keeps hanswer)

theorem tryTick_asks (s : Scraper) : s.tryTick.Asks Serves := by
  have hasks : s.tickHeld.run.Asks s.AsksHeld :=
    Program.Alike.asks Scraper.tickHeld_alike fun _ => .inr (.inl trivial)
  refine Program.Asks.bind ⟨.inr ⟨s, .inr (.inl rfl)⟩, fun _ => trivial⟩ fun taken => ?_
  cases taken with
  | false => trivial
  | true =>
    refine Program.Asks.bind (Program.Asks.mono hasks fun _ hq => .inr ⟨s, .inl hq⟩) fun _ => ?_
    exact ⟨.inr ⟨s, .inr (.inr rfl)⟩, fun _ => trivial⟩

theorem tickForHeader_eq (height : UInt64) (s : Scraper) :
    ∃ report, tickForHeader height s = s.tryTick >>= report ∧
      ∀ result, (report result).Asks fun q => ∃ notice, q = Engine.Query.tell notice := by
  refine ⟨_, rfl, fun result => ?_⟩
  match result with
  | none => exact ⟨⟨_, rfl⟩, fun _ => trivial⟩
  | some (.error fault) => exact ⟨⟨_, rfl⟩, fun _ => trivial⟩
  | some (.ok outcome) =>
    show Program.Asks _ (if 0 < outcome.emitted then _ else _)
    split
    · exact ⟨⟨_, rfl⟩, fun _ => trivial⟩
    · trivial

theorem tickForHeader_asks (height : UInt64) (s : Scraper) :
    (tickForHeader height s).Asks Serves := by
  obtain ⟨report, heq, hreports⟩ := tickForHeader_eq height s
  rw [heq]
  exact (tryTick_asks s).bind fun result => (hreports result).mono fun _ => .inl

/-- Notices beside ticks are of no account. -/
theorem Ticking.prepend {notices : List (Event Unit)}
    (h : ∀ e ∈ notices, ∃ notice, e.query = .tell notice) (H : Ticking ticks events) :
    Ticking ticks (notices ++ events) := by
  induction notices with
  | nil => exact H
  | cons e rest ih =>
    obtain ⟨notice, he⟩ := h e List.mem_cons_self
    exact .notice he (ih fun e' he' => h e' (List.mem_cons_of_mem e he'))

/-- However the ticks end, each scraper has one. -/
theorem exists_ticking {scrapers : List Scraper}
    (H : (scrapers.forM (tickForHeader height)).Dialogue events ()) :
    ∃ ticks, Ticking ticks events ∧ ticks.map Prod.fst = scrapers := by
  induction scrapers generalizing events with
  | nil =>
    cases H
    exact ⟨[], .nil, rfl⟩
  | cons s rest ih =>
    obtain ⟨first, others, _, rfl, hfirst, hothers⟩ := Program.Dialogue.of_bind H
    obtain ⟨ticks, hticks, hscrapers⟩ := ih hothers
    obtain ⟨report, heq, hreports⟩ := tickForHeader_eq height s
    rw [heq] at hfirst
    obtain ⟨attempt, notices, result, rfl, hattempt, hnotices⟩ := hfirst.of_bind
    refine ⟨(s, result) :: ticks, ?_, congrArg (s :: ·) hscrapers⟩
    rw [List.append_assoc]
    exact .tick hattempt (hticks.prepend (hnotices.asks (hreports result)))

/-- After the height has been recorded the scrapers that are due are ticked, and no other ones. -/
theorem onHeader_eq (t : HeadTracker) (height : UInt64) :
    ∃ heed, t.onHeader height = (t.record height).run >>= heed ∧
      ∀ recorded, (heed recorded).Asks Serves ∧
        ∀ events, (heed recorded).Dialogue events () →
          ∃ ticks, Ticking ticks events ∧ ticks.map Prod.fst = t.due recorded := by
  refine ⟨_, rfl, fun recorded => ?_⟩
  cases recorded with
  | error fault =>
    have hasks : (Engine.tell (.headNotRecorded height t.chain fault)).Asks
        fun q => ∃ notice, q = Engine.Query.tell notice := ⟨⟨_, rfl⟩, fun _ => trivial⟩
    refine ⟨hasks.mono fun _ => .inl, fun events H => ⟨[], ?_, rfl⟩⟩
    rw [← List.append_nil events]
    exact .prepend (H.asks hasks) .nil
  | ok top =>
    refine ⟨?_, fun events H => exists_ticking H⟩
    show ((t.scrapers.filter (·.task.enabled)).forM (tickForHeader height)).Asks Serves
    induction t.scrapers.filter (·.task.enabled) with
    | nil => trivial
    | cons s rest ih => exact (tickForHeader_asks height s).bind fun _ => ih

/-- What comes of a header, if `stored` is the stored head before it. -/
structure Handling (t : HeadTracker) (B : Broadcast) (stored : Option UInt64) (f : Feed)
    (events : List (Event Unit)) (d : Handled) (handling : List (Event Unit)) (st : Heard) :
    Prop where
  events : st.events = events ++ handling
  handles : t.Handles d handling
  due : d.ticks.map Prod.fst = t.due d.recorded
  after : d.after = st.world
  free : st.world.held t.guard = false
  feed : st.feed = f
  stores : B.StoresHead t → ∀ before, stored = some before →
    d.recorded = .ok (max before d.height) ∧ t.stored? st.world = some (max before d.height)

theorem onHeader_abides (H : t.Knows stored false f st) :
    (t.onHeader height).Abides (t.listening B) (fun _ st' => ∃ d handling, d.height = height ∧
      t.Handling B stored f st.events d handling st') st := by
  obtain ⟨heed, heq, hheed⟩ := t.onHeader_eq height
  rw [heq]
  apply Program.Abides.bind
  refine ((record_abides H).and_of_runs fun _ _ => exists_dialogue).mono ?_
  rintro recorded st₁ ⟨hrecorded, recording, hevents₁, hrecording, hlast₁⟩
  obtain ⟨hasks, hticking⟩ := hheed recorded
  -- Whether or not the height has been recorded, the ticks leave the head as they find it.
  have hticks : ∀ stored₁, t.Knows stored₁ false f st₁ →
      (B.StoresHead t → ∀ before, stored = some before →
        recorded = .ok (max before height) ∧ stored₁ = some (max before height)) →
      (heed recorded).Abides (t.listening B) (fun _ st' => ∃ d handling, d.height = height ∧
        t.Handling B stored f st.events d handling st') st₁ := by
    intro stored₁ H₁ hstores
    refine ((hasks.abides Knows.serves H₁).and_of_runs fun _ _ => exists_dialogue).mono ?_
    rintro _ st₂ ⟨H₂, rest, hevents₂, hrest, hlast₂⟩
    obtain ⟨ticks, hticks, hdue⟩ := hticking rest hrest
    refine ⟨⟨height, recorded, ticks, st₂.world⟩, recording ++ rest, rfl, ?_, ?_, hdue, rfl,
      H₂.guard, H₂.feed, ?_⟩
    · rw [hevents₂, hevents₁, List.append_assoc]
    · refine ⟨recording, rest, rfl, hrecording, hticks, ?_⟩
      obtain ⟨e, hlast⟩ : ∃ e, recording.getLast? = some e := by
        cases hrecording
        exact ⟨_, List.getLast?_cons⟩
      rw [List.getLast?_append, hlast]
      rw [hlast] at hlast₁
      cases hrest? : rest.getLast? with
      | none => rw [hrest?] at hlast₂; exact congrArg some (hlast₁.trans hlast₂)
      | some e' => rw [hrest?] at hlast₂; exact congrArg some hlast₂
    · intro hstore before hbefore
      obtain ⟨hok, htop⟩ := hstores hstore before hbefore
      exact ⟨hok, H₂.stored.trans htop⟩
  cases recorded with
  | error fault =>
    refine hticks stored hrecorded.2 fun hstore before hbefore => ?_
    cases (hrecorded.1 hstore).symm.trans hbefore
  | ok top =>
    obtain ⟨⟨before, hbefore, htop⟩, H₁⟩ := hrecorded
    refine hticks (some top) H₁ fun _ before' hbefore' => ?_
    obtain rfl := Option.some.inj (hbefore.symm.trans hbefore')
    exact ⟨congrArg _ htop, congrArg _ htop⟩

end HeadTracker

end ChainIngest
