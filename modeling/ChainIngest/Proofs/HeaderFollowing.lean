import ChainIngest.Proofs.HeaderHandling

/-! Following headers: none that is delivered is lost. A tracker takes the feed of its node in its
order, and handles each header in full before it waits for the next one. Errors, closings and
refusals do not end this, and only a wait can be cancelled. -/

namespace ChainIngest

namespace HeadTracker

variable {t : HeadTracker} {B : Broadcast} {w : Surroundings} {st st' : Heard}

/-- The item that is delivered by the answer to a query. -/
def item? : (q : Engine.Query) → Engine.Answer q → Option (Except Fault UInt64)
  | .nextHeader _, .arrived event => event.item?
  | _, _ => none

/-- What is asked between headers. -/
def Waiting (t : HeadTracker) : Engine.Query → Prop
  | .subscribe node => node = t.node
  | .nextHeader _ | .tell _ => True
  | .pause milliseconds => milliseconds = t.resubscribeDelay
  | _ => False

/-- What a tracker has asked that has taken some items and handled some headers: it has waited, and
each header that has come it has handled before it has gone on to wait. -/
inductive Journal (t : HeadTracker) :
    List (Except Fault UInt64) → List Handled → List (Event Unit) → Prop
  | start : Journal t [] [] []
  | waits : Journal t taken handled events → t.Waiting e.query → item? e.query e.answer = none →
    Journal t taken handled (events ++ [e])
  | error : Journal t taken handled events → t.Waiting e.query →
    item? e.query e.answer = some (.error fault) →
    Journal t (taken ++ [.error fault]) handled (events ++ [e])
  | header : Journal t taken handled events → t.Waiting e.query →
    item? e.query e.answer = some (.ok d.height) → t.Handles d handling →
    Journal t (taken ++ [.ok d.height]) (handled ++ [d]) (events ++ [e] ++ handling)

/-- Each height is handled once, in the order in which they have come. -/
theorem Journal.heights (H : t.Journal taken handled events) :
    handled.map Handled.height = taken.filterMap Except.toOption := by
  induction H with
  | start => rfl
  | waits _ _ _ ih => exact ih
  | error _ _ _ ih =>
    rw [ih, List.filterMap_append]
    exact (List.append_nil _).symm
  | header _ _ _ _ ih =>
    rw [List.map_append, ih, List.filterMap_append]
    rfl

/-- The highest of a stored head and the heights that have been handled since. -/
def highest (initial : UInt64) (handled : List Handled) : UInt64 :=
  (handled.map Handled.height).foldl max initial

theorem highest_append (initial : UInt64) (handled : List Handled) (d : Handled) :
    highest initial (handled ++ [d]) = max (highest initial handled) d.height := by
  simp [highest]

/-- How far a tracker has come that has begun at `w` with some items to come. -/
structure Follows (t : HeadTracker) (B : Broadcast) (w : Surroundings)
    (items taken : List (Except Fault UInt64)) (handled : List Handled) (st : Heard) : Prop where
  journal : t.Journal taken handled st.events
  delivered : items = taken ++ st.feed.items
  free : st.world.held t.guard = false
  due : ∀ d ∈ handled, d.ticks.map Prod.fst = t.due d.recorded
  stored : B.StoresHead t → ∀ initial, t.stored? w = some initial →
    t.stored? st.world = some (highest initial handled)
  stores : B.StoresHead t → ∀ initial, t.stored? w = some initial →
    ∀ earlier d, earlier ++ [d] <+: handled → d.recorded = .ok (highest initial (earlier ++ [d])) ∧
      t.stored? d.after = some (highest initial (earlier ++ [d]))

variable {items taken : List (Except Fault UInt64)} {handled : List Handled}

/-- What has come of a query that is asked while waiting. -/
structure Waited (t : HeadTracker) (B : Broadcast) (st : Heard) (q : Engine.Query)
    (answer : Engine.Answer q) (st' : Heard) : Prop where
  waiting : t.Waiting q
  undisturbed : t.Undisturbed st.world st'.world
  delivers : st.feed.Delivers t.node B.mayCancel q answer st'.feed
  noted : ∃ before, st'.events = st.events ++ [⟨(), q, answer, before, st'.world⟩]

theorem waiting_abides {q : Engine.Query} (hq : t.Waiting q) :
    (Engine.ask q).Abides (t.listening B) (t.Waited B st q) st := by
  refine .ask (K := fun st₁ => (t.listening B).rely st st₁) ?stable ?start ?answered ?noted
  case stable => exact fun h hrely => (t.listening B).rely_trans h hrely
  case start => exact (t.listening B).rely_refl st
  case answered =>
    intro st₁ _ hlive
    obtain ⟨answer, w', hanswer⟩ := st₁.world.exists_answers q fun guard heq => by
      subst heq
      exact hq.elim
    exact listening_over.answered hlive hanswer
  case noted =>
    rintro st₁ answer st₂ ⟨hkept, hfeed, hevents⟩ ⟨hanswer, hdelivers, hnoted⟩
    have hworld : st₂.world = st₁.world := by
      cases q with
      | subscribe | nextHeader | pause | tell => exact hanswer.responds.elim id And.left
      | _ => exact hq.elim
    refine ⟨trivial, hq, hworld ▸ hkept, hfeed ▸ hdelivers, st₁.world, ?_⟩
    rw [hnoted, hevents]

namespace Follows

/-- A wait that delivers nothing. -/
theorem waits {q : Engine.Query} {answer : Engine.Answer q}
    (H : t.Follows B w items taken handled st) (h : t.Waited B st q answer st')
    (hitem : item? q answer = none) (hitems : st'.feed.items = st.feed.items) :
    t.Follows B w items taken handled st' where
  journal := by
    obtain ⟨before, hnoted⟩ := h.noted
    exact hnoted ▸ .waits H.journal h.waiting hitem
  delivered := hitems ▸ H.delivered
  free := h.undisturbed.guard.trans H.free
  due := H.due
  stored hstores initial hinitial := h.undisturbed.stored.trans (H.stored hstores initial hinitial)
  stores := H.stores

/-- A wait that delivers an error. -/
theorem error {q : Engine.Query} {answer : Engine.Answer q}
    (H : t.Follows B w items taken handled st) (h : t.Waited B st q answer st')
    (hitem : item? q answer = some (.error fault))
    (hitems : st.feed.items = .error fault :: st'.feed.items) :
    t.Follows B w items (taken ++ [.error fault]) handled st' where
  journal := by
    obtain ⟨before, hnoted⟩ := h.noted
    exact hnoted ▸ .error H.journal h.waiting hitem
  delivered := by rw [H.delivered, hitems, List.append_assoc]; rfl
  free := h.undisturbed.guard.trans H.free
  due := H.due
  stored hstores initial hinitial := h.undisturbed.stored.trans (H.stored hstores initial hinitial)
  stores := H.stores

/-- A wait that delivers a header, which is then handled. -/
theorem header {q : Engine.Query} {answer : Engine.Answer q} {d : Handled}
    (H : t.Follows B w items taken handled st) (h : t.Waited B st q answer st')
    (hitem : item? q answer = some (.ok d.height))
    (hitems : st.feed.items = .ok d.height :: st'.feed.items)
    (hhandling : t.Handling B (t.stored? st'.world) st'.feed st'.events d handling st'') :
    t.Follows B w items (taken ++ [.ok d.height]) (handled ++ [d]) st'' := by
  have htop (hstores : B.StoresHead t) (initial : UInt64) (hinitial : t.stored? w = some initial) :
      d.recorded = .ok (highest initial (handled ++ [d])) ∧
        t.stored? st''.world = some (highest initial (handled ++ [d])) := by
    rw [highest_append]
    refine hhandling.stores hstores _ ?_
    exact h.undisturbed.stored.trans (H.stored hstores initial hinitial)
  refine ⟨?journal, ?delivered, hhandling.free, ?due,
    fun hstores initial hinitial => (htop hstores initial hinitial).2, ?stores⟩
  case journal =>
    obtain ⟨before, hnoted⟩ := h.noted
    rw [hhandling.events, hnoted]
    exact .header H.journal h.waiting hitem hhandling.handles
  case delivered =>
    rw [H.delivered, hitems, hhandling.feed, List.append_assoc]
    rfl
  case due =>
    intro d' hd'
    rcases List.mem_append.mp hd' with hd' | hd'
    · exact H.due d' hd'
    · exact List.mem_singleton.mp hd' ▸ hhandling.due
  case stores =>
    intro hstores initial hinitial earlier d' hprefix
    rcases List.prefix_concat_iff.mp hprefix with heq | hprefix
    · obtain ⟨rfl, hd⟩ := List.append_inj' heq rfl
      obtain rfl := List.singleton_inj.mp hd
      rw [hhandling.after]
      exact htop hstores initial hinitial
    · exact H.stores hstores initial hinitial earlier d' hprefix

end Follows

theorem tell_abides (H : t.Follows B w items taken handled st) :
    (Engine.tell notice).Abides (t.listening B)
      (fun _ st' => t.Follows B w items taken handled st' ∧ st'.feed = st.feed) st := by
  refine (waiting_abides (q := .tell notice) trivial).mono ?_
  intro _ st' h
  have hfeed : st'.feed = st.feed := h.delivers
  exact ⟨H.waits h rfl (hfeed ▸ rfl), hfeed⟩

/-- The part of a feed that is under way in a phase. -/
def Phase.Fits : Phase → Feed → Prop
  | .listening subscription, f => f.subscription = subscription
  | .connecting, f | .pausing, f => f.current = []

/-- How many rounds can follow at most before something is delivered. -/
def Phase.weight : Phase → Nat
  | .connecting => 0
  | .pausing => 1
  | .listening _ => 2

/-- How a round ends that begins with `size` to come: less is to come, or it is cancelled. -/
def RoundEnds (t : HeadTracker) (B : Broadcast) (w : Surroundings)
    (items : List (Except Fault UInt64)) (size : Nat) : Phase ⊕ Unit → Heard → Prop
  | .inl phase, st => (∃ taken handled, t.Follows B w items taken handled st) ∧
    phase.Fits st.feed ∧ st.feed.size + phase.weight < size
  | .inr (), st => (∃ taken handled, t.Follows B w items taken handled st) ∧
    (B.mayCancel st.feed ∨ st.feed.current = [] ∧ st.feed.attempts = [])

theorem connecting_ends (H : t.Follows B w items taken handled st) (hfits : st.feed.current = []) :
    (t.followRound .connecting).Abides (t.listening B) (t.RoundEnds B w items st.feed.size) st := by
  apply Program.Abides.bind
  refine (waiting_abides (q := .subscribe t.node) rfl).mono ?_
  intro answer st₁ h
  have hopens : st.feed.Opens B.mayCancel answer st₁.feed := by
    simpa only [Feed.Delivers, if_true] using h.delivers
  cases answer with
  | cancelled =>
    obtain ⟨hcancel, hfeed⟩ := hopens
    refine ⟨⟨taken, handled, H.waits h rfl (hfeed ▸ rfl)⟩, ?_⟩
    rw [hfeed]
    exact hcancel.imp_right fun hnone => ⟨hfits, hnone⟩
  | arrived result =>
    obtain ⟨hitems, hsize⟩ := hopens.arrived hfits
    have H₁ : t.Follows B w items taken handled st₁ := H.waits h rfl hitems
    cases result with
    | ok subscription =>
      refine ⟨⟨taken, handled, H₁⟩, hopens.2, ?_⟩
      show st₁.feed.size + 2 < st.feed.size
      omega
    | error fault =>
      apply Program.Abides.bind
      refine (tell_abides H₁).mono ?_
      rintro _ st₂ ⟨H₂, hfeed⟩
      refine ⟨⟨taken, handled, H₂⟩, ?_, ?_⟩
      · rw [hfeed]
        exact hopens.2.trans hfits
      · rw [hfeed]
        show st₁.feed.size + 1 < st.feed.size
        omega

theorem listening_ends {subscription : Subscription} (H : t.Follows B w items taken handled st)
    (hfits : st.feed.subscription = subscription) :
    (t.followRound (.listening subscription)).Abides (t.listening B)
      (t.RoundEnds B w items (st.feed.size + 2)) st := by
  apply Program.Abides.bind
  refine (waiting_abides (q := .nextHeader subscription) trivial).mono ?_
  intro answer st₁ h
  have hyields : st.feed.Yields B.mayCancel answer st₁.feed := by
    simpa only [Feed.Delivers, hfits, if_true] using h.delivers
  cases answer with
  | cancelled =>
    obtain ⟨hcancel, hfeed⟩ := hyields
    exact ⟨⟨taken, handled, H.waits h rfl (hfeed ▸ rfl)⟩, .inl (hfeed ▸ hcancel)⟩
  | arrived event =>
    cases event with
    | closed =>
      obtain ⟨hcurrent, hfeed⟩ := hyields
      apply Program.Abides.bind
      refine (tell_abides (H.waits h rfl (hfeed ▸ rfl))).mono ?_
      rintro _ st₂ ⟨H₂, hfeed₂⟩
      refine ⟨⟨taken, handled, H₂⟩, ?_, ?_⟩
      · rw [hfeed₂, hfeed]
        exact hcurrent
      · rw [hfeed₂, hfeed]
        exact Nat.lt_succ_self _
    | error fault =>
      obtain ⟨hitems, hsubscription, hsize⟩ := hyields.delivered rfl
      apply Program.Abides.bind
      refine (tell_abides (H.error h rfl hitems)).mono ?_
      rintro _ st₂ ⟨H₂, hfeed₂⟩
      refine ⟨⟨_, _, H₂⟩, ?_, ?_⟩
      · rw [hfeed₂]
        exact hsubscription.trans hfits
      · rw [hfeed₂, ← hsize]
        exact Nat.lt_succ_self _
    | height height =>
      obtain ⟨hitems, hsubscription, hsize⟩ := hyields.delivered rfl
      have hknows : t.Knows (t.stored? st₁.world) false st₁.feed st₁ :=
        ⟨rfl, h.undisturbed.guard.trans H.free, rfl⟩
      apply Program.Abides.bind
      refine (onHeader_abides hknows).mono ?_
      rintro _ st₂ ⟨d, handling, rfl, hhandling⟩
      refine ⟨⟨_, _, H.header h rfl hitems hhandling⟩, ?_, ?_⟩
      · rw [hhandling.feed]
        exact hsubscription.trans hfits
      · rw [hhandling.feed, ← hsize]
        exact Nat.lt_succ_self _

theorem pausing_ends (H : t.Follows B w items taken handled st) (hfits : st.feed.current = []) :
    (t.followRound .pausing).Abides (t.listening B) (t.RoundEnds B w items (st.feed.size + 1))
      st := by
  apply Program.Abides.bind
  refine (waiting_abides (q := .pause t.resubscribeDelay) rfl).mono ?_
  intro answer st₁ h
  cases answer with
  | cancelled =>
    obtain ⟨hcancel, hfeed⟩ := h.delivers
    exact ⟨⟨taken, handled, H.waits h rfl (hfeed ▸ rfl)⟩, .inl (hfeed ▸ hcancel)⟩
  | arrived =>
    have hfeed : st₁.feed = st.feed := h.delivers
    refine ⟨⟨taken, handled, H.waits h rfl (hfeed ▸ rfl)⟩, ?_, ?_⟩
    · rw [hfeed]
      exact hfits
    · rw [hfeed]
      exact Nat.lt_succ_self _

/-- Every round brings a tracker further, whatever happens in it. -/
theorem followRound_ends {phase : Phase} (H : t.Follows B w items taken handled st)
    (hfits : phase.Fits st.feed) :
    (t.followRound phase).Abides (t.listening B)
      (t.RoundEnds B w items (st.feed.size + phase.weight)) st := by
  cases phase with
  | connecting => exact connecting_ends H hfits
  | listening subscription => exact listening_ends H hfits
  | pausing => exact pausing_ends H hfits

theorem rounds_end (H : t.Follows B w items taken handled st) (hfits : st.feed.current = []) :
    (Process.repeatProgram .connecting t.followRound).Ends (t.listening B).among (fun _ st' =>
      (∃ taken handled, t.Follows B w items taken handled st') ∧
        (B.mayCancel st'.feed ∨ st'.feed.current = [] ∧ st'.feed.attempts = [])) st := by
  refine .loop (fun phase st => (∃ taken handled, t.Follows B w items taken handled st) ∧
    phase.Fits st.feed) (fun phase st => st.feed.size + phase.weight) ?_
    ⟨⟨taken, handled, H⟩, hfits⟩
  rintro phase st ⟨⟨taken, handled, H⟩, hfits⟩
  refine .run (((followRound_ends H hfits).ensures trivial).mono ?_)
  intro result st' h
  cases result with
  | inl phase' => exact ⟨⟨h.1, h.2.1⟩, h.2.2⟩
  | inr => exact h

/-- Following headers ends only once it may be cancelled or nothing is left to come. By then,
whatever others have done and whichever calls have failed:

* the items that have come are those of the feed, in the order of delivery and none left out;
* the headers that have come have been handled, each once and in that order;
* the enabled scrapers have been ticked once each for every header that has been recorded, and for
  no other one;
* if the stored head can be read and written then each header has been recorded, and the stored head
  has been the highest of all up to that header. -/
theorem follow_loses_nothing {subscription : Subscription} {attempts : List Attempt}
    (hfree : w.held t.guard = false) :
    t.follow.Ends (t.listening B).among (fun _ st => ∃ taken handled,
      t.Journal taken handled st.events ∧
      attempts.flatMap Attempt.items = taken ++ st.feed.items ∧
      (B.mayCancel st.feed ∨ st.feed.current = [] ∧ st.feed.attempts = []) ∧
      handled.map Handled.height = taken.filterMap Except.toOption ∧
      (∀ d ∈ handled, d.ticks.map Prod.fst = t.due d.recorded) ∧
      (B.StoresHead t → ∀ initial, t.stored? w = some initial →
        ∀ earlier d, earlier ++ [d] <+: handled →
          d.recorded = .ok (highest initial (earlier ++ [d])) ∧
          t.stored? d.after = some (highest initial (earlier ++ [d]))))
      ⟨w, ⟨subscription, [], attempts⟩, []⟩ := by
  have hstart : t.Follows B w (attempts.flatMap Attempt.items) [] []
      ⟨w, ⟨subscription, [], attempts⟩, []⟩ := by
    refine ⟨.start, rfl, hfree, List.forall_mem_nil _, fun _ _ hinitial => hinitial, ?_⟩
    exact fun _ _ _ earlier d hprefix => absurd hprefix (by simp)
  refine .andThen (.run (((tell_abides hstart).ensures trivial).mono ?_))
  rintro _ st₁ ⟨H₁, hfeed₁⟩
  refine .andThen ((rounds_end H₁ (hfeed₁ ▸ rfl)).mono ?_)
  rintro _ st₂ ⟨⟨taken, handled, H₂⟩, hcancelled⟩
  refine .run (((tell_abides H₂).ensures trivial).mono ?_)
  rintro _ st₃ ⟨H₃, hfeed₃⟩
  exact ⟨taken, handled, H₃.journal, H₃.delivered, hfeed₃ ▸ hcancelled, H₃.journal.heights,
    H₃.due, H₃.stores⟩

def sampleFollower : HeadTracker :=
  { sample with mode := .subscribe, scrapers := [.sampleToken] }

/-- No logs may be had, so ticks may fail. -/
def sampleBroadcast : Broadcast where
  mayFail q := ∃ node contract first last, q = .transferLogs node contract first last
  mayCancel _ := False

def sampleAttempts : List Attempt :=
  [.refused unreachable, .stream [.ok 40, .error unreachable, .ok 35], .stream [.ok 50]]

/-- The stored head is at 30 to begin with; 40 and 50 are above it, and 35 comes too late. -/
theorem sampleFollower_follows :
    sampleFollower.follow.Ends (sampleFollower.listening sampleBroadcast).among
      (fun _ st => ∃ handled,
        sampleFollower.Journal [.ok 40, .error unreachable, .ok 35, .ok 50] handled st.events ∧
        handled.map Handled.height = [40, 35, 50] ∧
        (∀ d ∈ handled, d.ticks.map Prod.fst = sampleFollower.due d.recorded) ∧
        handled.map (·.recorded) = [.ok 40, .ok 40, .ok 50] ∧
        handled.map (sampleFollower.stored? ·.after) = [some 40, some 40, some 50])
      ⟨.sample, ⟨0, [], sampleAttempts⟩, []⟩ := by
  have hinitial : sampleFollower.stored? .sample = some 30 :=
    stored?_of_holds (Checkpoints.holds_put ..)
  have hstore : sampleBroadcast.StoresHead sampleFollower := ⟨nofun, nofun⟩
  refine (follow_loses_nothing rfl).mono ?_
  rintro _ st ⟨taken, handled, hjournal, hitems, hends, hheights, hdue, hstores⟩
  obtain ⟨hcurrent, hattempts⟩ := hends.resolve_left id
  obtain rfl : [.ok 40, .error unreachable, .ok 35, .ok 50] = taken := by
    simpa [Feed.items, hcurrent, hattempts, sampleAttempts, Attempt.items] using hitems
  have hall : handled.map Handled.height = [40, 35, 50] := hheights
  refine ⟨handled, hjournal, hall, hdue, ?_⟩
  obtain ⟨d₁, rest₁, rfl, h₁, hrest₁⟩ := List.map_eq_cons_iff.mp hall
  obtain ⟨d₂, rest₂, rfl, h₂, hrest₂⟩ := List.map_eq_cons_iff.mp hrest₁
  obtain ⟨d₃, rest₃, rfl, h₃, hrest₃⟩ := List.map_eq_cons_iff.mp hrest₂
  obtain rfl := List.map_eq_nil_iff.mp hrest₃
  obtain ⟨hok₁, htop₁⟩ := hstores hstore 30 hinitial [] d₁ ⟨[d₂, d₃], rfl⟩
  obtain ⟨hok₂, htop₂⟩ := hstores hstore 30 hinitial [d₁] d₂ ⟨[d₃], rfl⟩
  obtain ⟨hok₃, htop₃⟩ := hstores hstore 30 hinitial [d₁, d₂] d₃ ⟨[], rfl⟩
  simp only [highest, List.nil_append, List.cons_append, List.map_cons, List.map_nil, h₁, h₂, h₃]
    at hok₁ hok₂ hok₃ htop₁ htop₂ htop₃
  simp only [List.map_cons, List.map_nil, hok₁, hok₂, hok₃, htop₁, htop₂, htop₃]
  exact ⟨rfl, rfl⟩

end HeadTracker

end ChainIngest
