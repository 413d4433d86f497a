import ChainIngest.Proofs.Evaluation
import ChainIngest.Proofs.LateTransfers

/-! Calls that tick one scraper at the same time, and the history of what they ask. The guard puts
the calls that it admits in an order: each finds the last block as the one before it has left it. -/

namespace ChainIngest

/-- A query of one of several callers, with its answer, and the surroundings before and after. -/
structure Event (ι : Type) where
  caller : ι
  query : Engine.Query
  answer : Engine.Answer query
  before : Surroundings
  after : Surroundings

/-- The ways to call for a tick. -/
inductive TickCall where
  /-- Waits for a tick under way. -/
  | tick
  /-- Gives up if there is one under way. -/
  | tryTick
  deriving DecidableEq, Repr

/-- Several programs, each as far as it has come. -/
abbrev Pool (ι : Type) := ι → Program Engine (Option (Except Fault TickOutcome))

/-- Programs that run at the same time, a query at a time and in any order. Any call may fail,
without effect; `others` is what is done meanwhile by those who are not in the pool. -/
inductive Pool.Run {ι : Type} [DecidableEq ι] (others : Surroundings → Surroundings → Prop)
    (start : Pool ι) (w₀ : Surroundings) : List (Event ι) → Pool ι → Surroundings → Prop
  | refl : Run others start w₀ [] start w₀
  | others : Run others start w₀ events pool w → others w w' → Run others start w₀ events pool w'
  | query {q : Engine.Query} {next : Engine.Answer q → Program Engine _}
      {answer : Engine.Answer q} :
      Run others start w₀ events pool w → pool i = .query q next → w.Responds q answer w' →
      Run others start w₀ (events ++ [⟨i, q, answer, w, w'⟩]) (Function.update pool i (next answer))
        w'

namespace Scraper

variable {ι : Type} {s : Scraper}

/-- What a call runs. Only a call that gives up answers with nothing. -/
def called (s : Scraper) : TickCall → Program Engine (Option (Except Fault TickOutcome))
  | .tick => some <$> s.tick.run
  | .tryTick => s.tryTick

/-- The text that reading the last block gives. -/
def reading (s : Scraper) (w : Surroundings) : String :=
  (w.store.checkpoints.getOrCreate s.task.lastBlockKey (Number.showUInt64 s.task.startBlock)).1

/-- The caller takes the guard. -/
def admits (s : Scraper) : Event ι → Bool
  | ⟨_, .acquire guard, _, _, _⟩ => guard = s.guard
  | ⟨_, .tryAcquire guard, taken, _, _⟩ => guard = s.guard && taken
  | _ => false

/-- The caller gives the guard back. -/
def departs (s : Scraper) : Event ι → Bool
  | ⟨_, .release guard, _, _, _⟩ => guard = s.guard
  | _ => false

/-- The text that the last block is read as. -/
def lastBlockText? (s : Scraper) : (q : Engine.Query) → Engine.Answer q → Option String
  | .readCheckpoint key _, .ok text => if key = s.task.lastBlockKey then some text else none
  | _, _ => none

/-- The text that a caller has read the last block as. -/
def readText? (s : Scraper) (e : Event ι) : Option String := s.lastBlockText? e.query e.answer

def HasRead (s : Scraper) (events : List (Event ι)) (i : ι) : Prop :=
  ∃ e ∈ events, e.caller = i ∧ (s.readText? e).isSome

/-- The callers that have taken the guard, in the order in which they have taken it. -/
def admitted (s : Scraper) (events : List (Event ι)) : List ι :=
  (events.filter s.admits).map Event.caller

/-- The callers that have given the guard back, in the order in which they have done so. -/
def departed (s : Scraper) (events : List (Event ι)) : List ι :=
  (events.filter s.departs).map Event.caller

/-- The surroundings as the last caller has left them that has given the guard back. -/
def left (s : Scraper) (w₀ : Surroundings) (events : List (Event ι)) : Surroundings :=
  ((events.filter s.departs).getLast?.map Event.after).getD w₀

/-- A caller has taken the guard and not given it back. -/
def Inside (s : Scraper) (events : List (Event ι)) (i : ι) : Prop :=
  i ∈ s.admitted events ∧ i ∉ s.departed events

/-- A height is the largest that the calls which have succeeded have answered with, or the one there
was before if none has. -/
structure Settled (pool : Pool ι) (before height? : Option UInt64) : Prop where
  largest : ∀ i o, pool i = .pure (some (.ok o)) → ∃ h, height? = some h ∧ o.lastScanned ≤ h
  attained : (∃ i o, pool i = .pure (some (.ok o)) ∧ height? = some o.lastScanned) ∨
    (∀ i o, pool i ≠ .pure (some (.ok o))) ∧ height? = before

/-! ### One call -/

theorem height?_eq_reading (w : Surroundings) : w.height? s.task.lastBlockKey s.task.startBlock =
    (Number.readUInt64 (Text.trim (s.reading w))).toOption := rfl

theorem height?_withGuard (w : Surroundings) (guard : Guard) (isHeld : Bool) :
    (w.withGuard guard isHeld).height? key initial = w.height? key initial := rfl

theorem reading_congr {w w' : Surroundings}
    (h : w'.store.checkpoints.get? s.task.lastBlockKey =
      w.store.checkpoints.get? s.task.lastBlockKey) : s.reading w' = s.reading w :=
  Checkpoints.getOrCreate_congr h

/-- Reading a checkpoint leaves what reading the last block gives: one that is created by reading
holds the default that it would have been read as. -/
theorem reading_afterRead (h : (key, initial) ∈ s.task.readings) (w : Surroundings) :
    s.reading (w.afterRead key initial) = s.reading w := by
  unfold reading Surroundings.afterRead Surroundings.withCheckpoints
  by_cases hkey : key = s.task.lastBlockKey
  · subst hkey
    obtain rfl := ScanTask.readings_inj h ScanTask.lastBlock_mem rfl
    have hget := Checkpoints.get?_getOrCreate_self w.store.checkpoints s.task.lastBlockKey
      (Number.showUInt64 s.task.startBlock)
    rw [Checkpoints.getOrCreate_of_some hget]
  · exact reading_congr (Checkpoints.get?_getOrCreate_of_ne (Ne.symm hkey))

/-- What a caller does between taking the guard and giving it back: it leaves all guards alone, and
reads the last block as `text`. -/
def Within (s : Scraper) (text : String) : (q : Engine.Query) → Engine.Answer q → Prop
  | .readCheckpoint key _, .ok text' => key = s.task.lastBlockKey → text' = text
  | .acquire _, _ | .tryAcquire _, _ | .release _, _ => False
  | _, _ => True

/-- While a tick is under way that has found the last block as `text`, others leave it so. -/
def serialPact (s : Scraper) (text : String) : Pact Engine Surroundings where
  answers := Surroundings.Responds
  rely w w' := w'.store.checkpoints.get? s.task.lastBlockKey =
    w.store.checkpoints.get? s.task.lastBlockKey
  guar w q answer w' := s.Within text q answer ∧ w'.held = w.held
  live := False
  rely_refl _ := rfl
  rely_trans h h' := h'.trans h

/-- What a tick leaves that has found the last block as `text`. -/
def Returns (s : Scraper) (text : String) : Except Fault TickOutcome → Surroundings → Prop
  | .ok o, w => w.height? s.task.lastBlockKey s.task.startBlock = some o.lastScanned ∧
    ∃ c, (Number.readUInt64 (Text.trim text)).toOption = some c ∧ c ≤ o.lastScanned
  | .error _, w => s.reading w = text

variable {text : String} {w : Surroundings}

theorem serialPact_over : (s.serialPact text).Over fun w => w where
  responds h := h
  answered h _ := h.elim

theorem serialPact_plansUnder :
    s.PlansUnder (s.serialPact text) (fun w => w) (s.reading · = text) fun _ => True where
  pactOver := serialPact_over
  reads :=
    { stable := fun h hrely => (reading_congr hrely).trans h
      answered := fun _ _ hlive => hlive.elim
      keeps := by
        intro w q answer w' hq h hanswer
        obtain ⟨key, initial, hmem, rfl⟩ := hq
        rcases hanswer with ⟨rfl, rfl⟩ | ⟨rfl, fault, hfault⟩
        · refine ⟨⟨?_, rfl⟩, (reading_afterRead hmem w).trans h⟩
          intro hkey
          subst hkey
          obtain rfl := ScanTask.readings_inj hmem ScanTask.lastBlock_mem rfl
          exact h
        · obtain rfl := Option.some.inj hfault
          exact ⟨⟨trivial, rfl⟩, h⟩ }
  fails _ _ _ _ := trivial
  illegible _ _ _ _ := trivial
  empty _ _ := trivial

/-- A scan asks for no guard and for no checkpoint. -/
theorem Scans.within {q : Engine.Query} {answer : Engine.Answer q} (H : s.Scans q) :
    s.Within text q answer := by
  cases q with
  | insertTransfer | tell | whitelist | block | blockTime | transferLogs => exact trivial
  | _ => exact absurd H id

theorem serialPact_scans : (s.serialPact text).Allows s.Scans (s.reading · = text) where
  stable h hrely := (reading_congr hrely).trans h
  answered _ _ hlive := hlive.elim
  keeps := by
    intro w q answer w' hq h hanswer
    rcases hq.effect hanswer with rfl | ⟨t, rfl⟩
    · exact ⟨⟨hq.within, rfl⟩, h⟩
    · exact ⟨⟨hq.within, rfl⟩, h⟩

theorem serialPact_stable (result : Except Fault TickOutcome) :
    (s.serialPact text).Stable (s.Returns text result) := by
  intro w w' h hrely
  cases result with
  | error fault => exact (reading_congr hrely).trans h
  | ok o => exact ⟨(Checkpoints.height?_congr hrely).trans h.1, h.2⟩

/-- A tick that holds the guard leaves the last block where it says, at or after where it has found
it; if it fails then it leaves the last block as it was. -/
theorem tickHeld_returns (hw : s.reading w = text) :
    s.tickHeld.run.Abides (s.serialPact text) (s.Returns text) w := by
  apply Action.Abides.of_results
  rw [tickHeld_eq]
  apply Action.Abides.bind
  refine (serialPact_plansUnder.readPlan_abides hw).mono ?_ fun _ _ h => h.1
  intro p w₁ hplan
  obtain ⟨hw₁, hp, -⟩ := hplan
  -- The text has not changed since the plan was read, so the plan has the number that it tells.
  have hread : (Number.readUInt64 (Text.trim text)).toOption = some p.lastScanned := by
    obtain ⟨w₂, hw₂, hlast⟩ := hp.lastScanned
    rwa [height?_eq_reading, hw₂] at hlast
  apply Action.Abides.bind
  refine (scanWindow_keeps serialPact_scans _ _ _ _ hw₁).mono ?_ fun _ _ h => h
  intro o w₂ hscanned
  obtain ⟨-, hw₂⟩ := hscanned
  refine (advance_abides serialPact_over (fun h hrely => (reading_congr hrely).trans h) hw₂
    (D := fun w => w.height? s.task.lastBlockKey s.task.startBlock = some (p.next o))
    ?_ ?_ ?_ ?_ ?_).mono ?_ fun _ _ h => h
  · intro hstays w hw
    rw [height?_eq_reading, hw, hread, hstays]
  · intro w answer w' _ hanswer
    rcases hanswer with ⟨-, rfl⟩ | ⟨rfl, -⟩
    · exact ⟨trivial, rfl⟩
    · exact ⟨trivial, rfl⟩
  · intro w answer w' _ _ hworld
    rw [hworld]
    exact (Checkpoints.holds_put ..).height?
  · exact fun w w' fault hw hanswer => hanswer.of_failed_write ▸ hw
  · refine ⟨fun h hrely => (Checkpoints.height?_congr hrely).trans h,
      fun _ _ hlive => hlive.elim, ?_⟩
    intro w q answer w' hq h hanswer
    obtain ⟨notice, rfl⟩ := hq
    obtain rfl := hanswer.of_tell
    exact ⟨⟨trivial, rfl⟩, h⟩
  · intro o' w' h
    obtain ⟨rfl, h⟩ := h
    exact ⟨h, p.lastScanned, hread, Height.le_max_right ..⟩

/-- A program has no success before it has read the last block. -/
def ReadsFirst (s : Scraper) : Program Engine (Except Fault α) → Prop
  | .pure (.ok _) => False
  | .pure (.error _) => True
  | .query q next => ∀ answer, (s.lastBlockText? q answer).isSome ∨ s.ReadsFirst (next answer)

namespace ReadsFirst

theorem bind {a : Action α} {k : α → Action β} (H : s.ReadsFirst a.run) :
    s.ReadsFirst (a >>= k).run := by
  suffices h : ∀ p : Program Engine (Except Fault α), s.ReadsFirst p →
      s.ReadsFirst (p >>= ExceptT.bindCont k) from h a.run H
  intro p H
  induction p with
  | pure result =>
    cases result with
    | ok value => exact H.elim
    | error fault => exact trivial
  | query q next ih => exact fun answer => (H answer).imp_right (ih answer)

theorem bind_of_next {a : Action α} {k : α → Action β} (H : ∀ value, s.ReadsFirst (k value).run) :
    s.ReadsFirst (a >>= k).run := by
  suffices h : ∀ p : Program Engine (Except Fault α), s.ReadsFirst (p >>= ExceptT.bindCont k) from
    h a.run
  intro p
  induction p with
  | pure result =>
    cases result with
    | ok value => exact H value
    | error fault => exact trivial
  | query q next ih => exact fun answer => .inr (ih answer)

theorem readHeight : s.ReadsFirst (Engine.readHeight s.task.lastBlockKey initial).run := by
  intro answer
  cases answer with
  | ok text =>
    refine .inl ?_
    rw [lastBlockText?, if_pos rfl]
    rfl
  | error fault => exact .inr trivial

theorem tickHeld : s.ReadsFirst s.tickHeld.run := by
  unfold Scraper.tickHeld
  refine bind_of_next fun range => ?_
  split
  · exact trivial
  · exact bind_of_next fun overlap => bind readHeight

end ReadsFirst

/-! ### All calls -/

theorem admitted_append (events : List (Event ι)) (e : Event ι) :
    s.admitted (events ++ [e]) = s.admitted events ++ if s.admits e then [e.caller] else [] := by
  cases h : s.admits e <;> simp [admitted, List.filter_append, h]

theorem departed_append (events : List (Event ι)) (e : Event ι) :
    s.departed (events ++ [e]) = s.departed events ++ if s.departs e then [e.caller] else [] := by
  cases h : s.departs e <;> simp [departed, List.filter_append, h]

theorem mem_departed_append {events : List (Event ι)} {e : Event ι} {i : ι}
    (h : i ∈ s.departed (events ++ [e])) : i ∈ s.departed events ∨ i = e.caller := by
  rw [departed_append, List.mem_append] at h
  refine h.imp_right fun h => ?_
  split at h
  · exact List.mem_singleton.mp h
  · exact absurd h List.not_mem_nil

theorem left_append (w₀ : Surroundings) (events : List (Event ι)) (e : Event ι) :
    s.left w₀ (events ++ [e]) = if s.departs e then e.after else s.left w₀ events := by
  cases h : s.departs e <;> simp [left, List.filter_append, h]

/-- An event that neither takes the guard nor gives it back changes no order. -/
theorem append_of_aside (events : List (Event ι)) {e : Event ι} (hadmits : s.admits e = false)
    (hdeparts : s.departs e = false) (w₀ : Surroundings) :
    s.admitted (events ++ [e]) = s.admitted events ∧
      s.departed (events ++ [e]) = s.departed events ∧
      s.left w₀ (events ++ [e]) = s.left w₀ events := by
  rw [admitted_append, departed_append, left_append, hadmits, hdeparts]
  simp

theorem HasRead.append {events : List (Event ι)} {i : ι} (H : s.HasRead events i) (e : Event ι) :
    s.HasRead (events ++ [e]) i := by
  obtain ⟨e', he', h⟩ := H
  exact ⟨e', List.mem_append_left _ he', h⟩

/-- What is left to do after a tick that holds the guard. -/
def leave (s : Scraper) (result : Except Fault TickOutcome) :
    Program Engine (Option (Except Fault TickOutcome)) :=
  .query (.release s.guard) fun _ => .pure (some result)

theorem called_tick :
    s.called .tick = .query (.acquire s.guard) fun _ => s.tickHeld.run >>= s.leave := by
  refine congrArg (Program.query _) (funext fun _ => ?_)
  exact Program.bind_assoc s.tickHeld.run _ _

theorem called_tryTick : s.called .tryTick = .query (.tryAcquire s.guard) fun taken =>
    if taken then s.tickHeld.run >>= s.leave else .pure none := by
  unfold called tryTick
  refine congrArg (Program.query _) (funext fun taken => ?_)
  cases taken with
  | true => rfl
  | false => rfl

/-- Who holds the guard: nobody, with the last block as the last caller has left it, or the caller
that has been admitted last, which has found it so. -/
inductive Order (s : Scraper) (w₀ : Surroundings) (events : List (Event ι)) (pool : Pool ι)
    (w : Surroundings) : Prop
  | free : s.admitted events = s.departed events → w.held s.guard = false →
      s.reading w = s.reading (s.left w₀ events) → Order s w₀ events pool w
  | ticking (i : ι) (body : Program Engine (Except Fault TickOutcome)) :
      s.admitted events = s.departed events ++ [i] → i ∉ s.departed events →
      w.held s.guard = true → pool i = body >>= s.leave →
      body.Abides (s.serialPact (s.reading (s.left w₀ events)))
        (s.Returns (s.reading (s.left w₀ events))) w →
      s.HasRead events i ∨ s.ReadsFirst body → Order s w₀ events pool w

/-- What holds at any time of calls that tick one scraper. -/
structure Serial (s : Scraper) (calls : ι → TickCall) (w₀ : Surroundings) (events : List (Event ι))
    (pool : Pool ι) (w : Surroundings) : Prop where
  order : s.Order w₀ events pool w
  waiting : ∀ i, i ∉ s.admitted events → pool i = s.called (calls i) ∨ pool i = .pure none
  gone : ∀ i, i ∈ s.departed events → ∃ result, pool i = .pure (some result)
  refused : ∀ e ∈ events, e.caller ∉ s.admitted events →
    e.query = .tryAcquire s.guard ∧ e.after.store = e.before.store
  settled : Settled pool (w₀.height? s.task.lastBlockKey s.task.startBlock)
    ((s.left w₀ events).height? s.task.lastBlockKey s.task.startBlock)
  reads : ∀ before e after text, events = before ++ e :: after → s.readText? e = some text →
    s.admitted before = s.departed before ++ [e.caller] ∧ text = s.reading (s.left w₀ before)
  hasRead : ∀ i o, pool i = .pure (some (.ok o)) → s.HasRead events i

namespace Settled

variable {pool : Pool ι} {before height? : Option UInt64} {i : ι}
  {p : Program Engine (Option (Except Fault TickOutcome))}

/-- The call that has scanned furthest tells what is settled. -/
theorem height?_eq {o : TickOutcome} (H : Settled pool before height?)
    (h : pool i = .pure (some (.ok o)))
    (hlast : ∀ j o', pool j = .pure (some (.ok o')) → o'.lastScanned ≤ o.lastScanned) :
    height? = some o.lastScanned := by
  obtain ⟨height, rfl, hle⟩ := H.largest i o h
  rcases H.attained with ⟨j, o', hj, hattained⟩ | ⟨hnone, -⟩
  · obtain rfl := Option.some.inj hattained
    exact congrArg some (UInt64.le_antisymm (hlast j o' hj) hle)
  · exact absurd h (hnone i o)

variable [DecidableEq ι]

/-- A call that goes on, or ends without success, settles nothing. -/
theorem update (H : Settled pool before height?) (hold : ∀ o, pool i ≠ .pure (some (.ok o)))
    (hnew : ∀ o, p ≠ .pure (some (.ok o))) : Settled (Function.update pool i p) before height? := by
  have hok : ∀ j o, Function.update pool i p j = .pure (some (.ok o)) ↔
      pool j = .pure (some (.ok o)) := by
    intro j o
    by_cases hj : j = i
    · subst hj
      rw [Function.update_self]
      exact iff_of_false (hnew o) (hold o)
    · rw [Function.update_of_ne hj]
  constructor
  · exact fun j o h => H.largest j o ((hok j o).mp h)
  · rcases H.attained with ⟨j, o, h, hheight⟩ | ⟨hnone, hheight⟩
    · exact .inl ⟨j, o, (hok j o).mpr h, hheight⟩
    · exact .inr ⟨fun j o h => hnone j o ((hok j o).mp h), hheight⟩

theorem update_ok {o : TickOutcome} (H : Settled pool before (some c)) (h : c ≤ o.lastScanned) :
    Settled (Function.update pool i (.pure (some (.ok o)))) before (some o.lastScanned) := by
  constructor
  · intro j o' hj
    refine ⟨_, rfl, ?_⟩
    by_cases hji : j = i
    · subst hji
      rw [Function.update_self] at hj
      cases hj
      exact UInt64.le_refl _
    · rw [Function.update_of_ne hji] at hj
      obtain ⟨c', hc', hle⟩ := H.largest j o' hj
      obtain rfl := Option.some.inj hc'
      exact UInt64.le_trans hle h
  · exact .inl ⟨i, o, Function.update_self .., rfl⟩

end Settled

/-- What is read in a longer history is read in the shorter one, or is read last. -/
theorem reads_append {events : List (Event ι)} {e : Event ι} {w₀ : Surroundings}
    (H : ∀ before e after text, events = before ++ e :: after → s.readText? e = some text →
      s.admitted before = s.departed before ++ [e.caller] ∧ text = s.reading (s.left w₀ before))
    (he : ∀ text, s.readText? e = some text →
      s.admitted events = s.departed events ++ [e.caller] ∧ text = s.reading (s.left w₀ events)) :
    ∀ before e' after text, events ++ [e] = before ++ e' :: after → s.readText? e' = some text →
      s.admitted before = s.departed before ++ [e'.caller] ∧
        text = s.reading (s.left w₀ before) := by
  intro before e' after text hsplit hread
  rcases List.eq_nil_or_concat after with rfl | ⟨after', x, rfl⟩
  · obtain ⟨rfl, hlast⟩ := List.append_inj' hsplit rfl
    obtain rfl := List.head_eq_of_cons_eq hlast
    exact he text hread
  · rw [List.concat_eq_append, ← List.cons_append, ← List.append_assoc] at hsplit
    obtain ⟨hinit, -⟩ := List.append_inj' hsplit rfl
    exact H before e' after' text hinit hread

theorem called_ne_pure (call : TickCall) (value : Option (Except Fault TickOutcome)) :
    s.called call ≠ .pure value := by
  cases call with
  | tick => rw [called_tick]; exact nofun
  | tryTick => rw [called_tryTick]; exact nofun

theorem bind_leave_ne_pure (body : Program Engine (Except Fault TickOutcome))
    (value : Option (Except Fault TickOutcome)) : body >>= s.leave ≠ .pure value := by
  cases body with
  | pure result => exact nofun
  | query q next => exact nofun

/-- What a tick asks while it holds the guard is neither taking nor giving back the guard, and its
readings of the last block give one text. -/
theorem Within.event {q : Engine.Query} {answer : Engine.Answer q}
    (H : s.Within text q answer) (i : ι) (w w' : Surroundings) :
    s.admits ⟨i, q, answer, w, w'⟩ = false ∧ s.departs ⟨i, q, answer, w, w'⟩ = false ∧
      ∀ text', s.readText? ⟨i, q, answer, w, w'⟩ = some text' → text' = text := by
  cases q with
  | acquire | tryAcquire | release => exact absurd H id
  | readCheckpoint key initial =>
    refine ⟨rfl, rfl, fun text' h => ?_⟩
    cases answer with
    | error fault => cases h
    | ok found =>
      by_cases hkey : key = s.task.lastBlockKey
      · rw [readText?, lastBlockText?, if_pos hkey] at h
        obtain rfl := Option.some.inj h
        exact H hkey
      · rw [readText?, lastBlockText?, if_neg hkey] at h
        cases h
  | _ => exact ⟨rfl, rfl, nofun⟩

namespace Serial

variable {calls : ι → TickCall} {w₀ w w' : Surroundings} {events : List (Event ι)}
  {pool : Pool ι} {i : ι}

theorem at_start (hfree : w₀.held s.guard = false) :
    s.Serial calls w₀ [] (fun i => s.called (calls i)) w₀ where
  order := .free rfl hfree rfl
  waiting _ _ := .inl rfl
  gone _ h := absurd h List.not_mem_nil
  refused _ h := absurd h List.not_mem_nil
  settled := ⟨fun i _ h => absurd h (called_ne_pure (calls i) _),
    .inr ⟨fun i _ => called_ne_pure (calls i) _, rfl⟩⟩
  reads before e after text h := by simp at h
  hasRead i _ h := absurd h (called_ne_pure (calls i) _)

/-- What others do changes no order, as long as they leave the last block and the guard alone. -/
theorem others (H : s.Serial calls w₀ events pool w)
    (htext : w'.store.checkpoints.get? s.task.lastBlockKey =
      w.store.checkpoints.get? s.task.lastBlockKey)
    (hheld : w'.held s.guard = w.held s.guard) : s.Serial calls w₀ events pool w' := by
  refine { H with order := ?_ }
  rcases H.order with ⟨hall, hfree, hreading⟩ | ⟨i, body, hlast, hi, htaken, hbody, habides, hread⟩
  · exact .free hall (hheld.trans hfree) ((reading_congr htext).trans hreading)
  · exact .ticking i body hlast hi (hheld.trans htaken) hbody
      (habides.shift serialPact_stable htext) hread

theorem not_mem_departed (H : s.Serial calls w₀ events pool w) (hi : i ∉ s.admitted events) :
    i ∉ s.departed events := by
  rcases H.order with ⟨hall, -, -⟩ | ⟨j, body, hlast, -, -, -, -, -⟩
  · exact hall ▸ hi
  · intro h
    rw [hlast] at hi
    exact hi (List.mem_append_left _ h)

variable [DecidableEq ι]

/-- One event of one caller: what is left to show is who holds the guard afterwards, and what has
become of this caller and of this event. -/
theorem append {e : Event ι} {p : Program Engine (Option (Except Fault TickOutcome))}
    (H : s.Serial calls w₀ events pool w) (hcaller : e.caller = i)
    (order : s.Order w₀ (events ++ [e]) (Function.update pool i p) w')
    (waiting : i ∉ s.admitted (events ++ [e]) →
      p = .pure none ∧ e.query = .tryAcquire s.guard ∧ e.after.store = e.before.store)
    (gone : i ∈ s.departed (events ++ [e]) → ∃ result, p = .pure (some result))
    (settled : Settled (Function.update pool i p)
      (w₀.height? s.task.lastBlockKey s.task.startBlock)
      ((s.left w₀ (events ++ [e])).height? s.task.lastBlockKey s.task.startBlock))
    (reads : ∀ text, s.readText? e = some text →
      s.admitted events = s.departed events ++ [e.caller] ∧ text = s.reading (s.left w₀ events))
    (hasRead : ∀ o, p = .pure (some (.ok o)) → s.HasRead (events ++ [e]) i) :
    s.Serial calls w₀ (events ++ [e]) (Function.update pool i p) w' := by
  have hadmitted : ∀ j ∈ s.admitted events, j ∈ s.admitted (events ++ [e]) := by
    intro j hj
    rw [admitted_append]
    exact List.mem_append_left _ hj
  constructor
  case order => exact order
  case waiting =>
    intro j hj
    by_cases hji : j = i
    · subst hji
      exact .inr ((Function.update_self ..).trans (waiting hj).1)
    · rw [Function.update_of_ne hji]
      exact H.waiting j fun h => hj (hadmitted j h)
  case gone =>
    intro j hj
    by_cases hji : j = i
    · subst hji
      rw [Function.update_self]
      exact gone hj
    · rw [Function.update_of_ne hji]
      exact H.gone j ((mem_departed_append hj).resolve_right (hcaller ▸ hji))
  case refused =>
    intro e' he' hnot
    rcases List.mem_append.mp he' with he' | he'
    · exact H.refused e' he' fun h => hnot (hadmitted _ h)
    · obtain rfl := List.mem_singleton.mp he'
      exact (waiting (hcaller ▸ hnot)).2
  case settled => exact settled
  case reads => exact reads_append H.reads reads
  case hasRead =>
    intro j o hj
    by_cases hji : j = i
    · subst hji
      rw [Function.update_self] at hj
      exact hasRead o hj
    · rw [Function.update_of_ne hji] at hj
      exact (H.hasRead j o hj).append e

/-- A waiting call takes the guard, which nobody holds, and finds the last block as it was left. -/
theorem enter {e : Event ι} (H : s.Serial calls w₀ events pool w) (hi : i ∉ s.admitted events)
    (hpool : pool i = s.called (calls i)) (hfree : w.held s.guard = false)
    (hcaller : e.caller = i) (hadmits : s.admits e = true) (hdeparts : s.departs e = false)
    (hread : s.readText? e = none) :
    s.Serial calls w₀ (events ++ [e]) (Function.update pool i (s.tickHeld.run >>= s.leave))
      (w.withGuard s.guard true) := by
  have hadmitted : s.admitted (events ++ [e]) = s.admitted events ++ [i] := by
    rw [admitted_append, hadmits, if_pos rfl, hcaller]
  have hdeparted : s.departed (events ++ [e]) = s.departed events := by
    rw [departed_append, hdeparts, if_neg Bool.false_ne_true, List.append_nil]
  have hleft : s.left w₀ (events ++ [e]) = s.left w₀ events := by
    rw [left_append, hdeparts, if_neg Bool.false_ne_true]
  have hgone : i ∉ s.departed (events ++ [e]) := hdeparted ▸ H.not_mem_departed hi
  obtain ⟨hall, hreading⟩ : s.admitted events = s.departed events ∧
      s.reading w = s.reading (s.left w₀ events) := by
    rcases H.order with ⟨hall, -, hreading⟩ | ⟨j, body, -, -, htaken, -, -, -⟩
    · exact ⟨hall, hreading⟩
    · exact absurd (hfree.symm.trans htaken) Bool.false_ne_true
  apply H.append hcaller
  case order =>
    refine .ticking i s.tickHeld.run ?_ hgone (Function.update_self ..) (Function.update_self ..)
      ?_ (.inr ReadsFirst.tickHeld)
    · rw [hadmitted, hdeparted, hall]
    · rw [hleft]
      exact tickHeld_returns hreading
  case waiting => exact fun h => absurd (by rw [hadmitted]; simp) h
  case gone => exact fun h => absurd h hgone
  case settled =>
    rw [hleft]
    refine H.settled.update ?_ ?_
    · exact fun o => hpool ▸ called_ne_pure (calls i) _
    · exact fun o => bind_leave_ne_pure _ _
  case reads => exact fun text h => nomatch hread.symm.trans h
  case hasRead => exact fun o h => absurd h (bind_leave_ne_pure _ _)

/-- A call that does not wait gives up, since the guard is held. -/
theorem refuse {e : Event ι} (H : s.Serial calls w₀ events pool w) (hi : i ∉ s.admitted events)
    (hpool : pool i = s.called (calls i)) (hheld : w.held s.guard = true)
    (hcaller : e.caller = i) (hadmits : s.admits e = false) (hdeparts : s.departs e = false)
    (hread : s.readText? e = none)
    (hquery : e.query = .tryAcquire s.guard ∧ e.after.store = e.before.store) :
    s.Serial calls w₀ (events ++ [e]) (Function.update pool i (.pure none))
      (w.withGuard s.guard true) := by
  obtain ⟨hadmitted, hdeparted, hleft⟩ := append_of_aside events hadmits hdeparts w₀
  apply H.append hcaller
  case order =>
    rcases H.order with ⟨-, hfree, -⟩ | ⟨j, body, hlast, hj, -, hbody, habides, hread'⟩
    · exact absurd (hfree.symm.trans hheld) Bool.false_ne_true
    -- It is another call that holds the guard, and that goes on.
    · have hne : j ≠ i := fun h => hi (by rw [hlast, h]; simp)
      refine .ticking j body ?_ ?_ (Function.update_self ..) ?_ ?_
        (hread'.imp_left fun h => h.append e)
      · rw [hadmitted, hdeparted, hlast]
      · rwa [hdeparted]
      · rw [Function.update_of_ne hne, hbody]
      · rw [hleft]
        exact habides.shift serialPact_stable rfl
  case waiting => exact fun _ => ⟨rfl, hquery⟩
  case gone => exact fun h => absurd (hdeparted ▸ h) (H.not_mem_departed hi)
  case settled =>
    rw [hleft]
    refine H.settled.update ?_ nofun
    exact fun o => hpool ▸ called_ne_pure (calls i) _
  case reads => exact fun text h => nomatch hread.symm.trans h
  case hasRead => exact fun o h => nomatch h

/-- The call that holds the guard goes on with its tick. -/
theorem goOn {q : Engine.Query} {next : Engine.Answer q → Program Engine (Except Fault TickOutcome)}
    {answer : Engine.Answer q} (H : s.Serial calls w₀ events pool w)
    (hlast : s.admitted events = s.departed events ++ [i]) (hi : i ∉ s.departed events)
    (hheld : w.held s.guard = true) (hpool : pool i = .query q next >>= s.leave)
    (hguar : s.Within (s.reading (s.left w₀ events)) q answer ∧ w'.held = w.held)
    (habides : (next answer).Abides (s.serialPact (s.reading (s.left w₀ events)))
      (s.Returns (s.reading (s.left w₀ events))) w')
    (hfirst : s.HasRead events i ∨ s.ReadsFirst (.query q next)) :
    s.Serial calls w₀ (events ++ [⟨i, q, answer, w, w'⟩])
      (Function.update pool i (next answer >>= s.leave)) w' := by
  obtain ⟨hwithin, hsame⟩ := hguar
  obtain ⟨hadmits, hdeparts, hread⟩ := hwithin.event i w w'
  obtain ⟨hadmitted, hdeparted, hleft⟩ := append_of_aside events hadmits hdeparts w₀
  apply H.append (e := ⟨i, q, answer, w, w'⟩) rfl
  case order =>
    refine .ticking i (next answer) ?_ ?_ ?_ (Function.update_self ..) ?_ ?_
    · rw [hadmitted, hdeparted, hlast]
    · rwa [hdeparted]
    · rw [hsame, hheld]
    · rwa [hleft]
    · rcases hfirst with hdone | hfirst
      · exact .inl (hdone.append _)
      · exact (hfirst answer).imp_left fun h =>
          ⟨⟨i, q, answer, w, w'⟩, by simp, rfl, h⟩
  case waiting => exact fun h => absurd (by rw [hadmitted, hlast]; simp) h
  case gone => exact fun h => absurd (hdeparted ▸ h) hi
  case settled =>
    rw [hleft]
    refine H.settled.update ?_ ?_
    · exact fun o => hpool ▸ bind_leave_ne_pure _ _
    · exact fun o => bind_leave_ne_pure _ _
  case reads => exact fun text h => ⟨hlast, hread text h⟩
  case hasRead => exact fun o h => absurd h (bind_leave_ne_pure _ _)

/-- The call that holds the guard gives it back, and settles the last block if it succeeds. -/
theorem depart {result : Except Fault TickOutcome} (H : s.Serial calls w₀ events pool w)
    (hlast : s.admitted events = s.departed events ++ [i])
    (hpool : pool i = s.leave result)
    (hreturns : s.Returns (s.reading (s.left w₀ events)) result w)
    (hfirst : s.HasRead events i ∨ s.ReadsFirst (.pure result)) :
    s.Serial calls w₀
      (events ++ [⟨i, .release s.guard, (), w, w.withGuard s.guard false⟩])
      (Function.update pool i (.pure (some result))) (w.withGuard s.guard false) := by
  have hdeparts : s.departs ⟨i, .release s.guard, (), w, w.withGuard s.guard false⟩ = true := by
    simp [departs]
  have hadmitted : s.admitted
      (events ++ [⟨i, .release s.guard, (), w, w.withGuard s.guard false⟩]) =
        s.admitted events := by
    rw [admitted_append]
    exact List.append_nil _
  have hleft : s.left w₀
      (events ++ [⟨i, .release s.guard, (), w, w.withGuard s.guard false⟩]) =
        w.withGuard s.guard false := by
    rw [left_append, hdeparts, if_pos rfl]
  apply H.append (e := ⟨i, .release s.guard, (), w, w.withGuard s.guard false⟩) rfl
  case order =>
    refine .free ?_ (Function.update_self ..) ?_
    · rw [hadmitted, hlast, departed_append, hdeparts, if_pos rfl]
    · rw [hleft]
  case waiting => exact fun h => absurd (by rw [hadmitted, hlast]; simp) h
  case gone => exact fun _ => ⟨result, rfl⟩
  case settled =>
    rw [hleft]
    cases result with
    | ok o =>
      obtain ⟨hheight, c, hc, hle⟩ := hreturns
      have hsettled := H.settled
      rw [height?_eq_reading (s.left w₀ events), hc] at hsettled
      rw [height?_withGuard, hheight]
      exact hsettled.update_ok hle
    | error fault =>
      have hreading : s.reading w = s.reading (s.left w₀ events) := hreturns
      rw [height?_withGuard, height?_eq_reading w, hreading, ← height?_eq_reading]
      refine H.settled.update ?_ nofun
      exact fun o => by rw [hpool]; exact nofun
  case reads => exact fun text h => nomatch h
  case hasRead =>
    intro o h
    cases h
    exact (hfirst.resolve_right id).append _

theorem query {q : Engine.Query}
    {next : Engine.Answer q → Program Engine (Option (Except Fault TickOutcome))}
    {answer : Engine.Answer q} (H : s.Serial calls w₀ events pool w)
    (hpool : pool i = .query q next) (hanswer : w.Responds q answer w') :
    s.Serial calls w₀ (events ++ [⟨i, q, answer, w, w'⟩]) (Function.update pool i (next answer))
      w' := by
  by_cases hmem : i ∈ s.admitted events
  · -- A call that was admitted and has a query left holds the guard.
    have hi : i ∉ s.departed events := by
      intro hi
      obtain ⟨result, hpure⟩ := H.gone i hi
      rw [hpool] at hpure
      cases hpure
    rcases H.order with ⟨hall, -, -⟩ | ⟨j, body, hlast, -, hheld, hbody, habides, hread⟩
    · exact absurd (hall ▸ hmem) hi
    · have hij : i = j := by
        rw [hlast, List.mem_append, List.mem_singleton] at hmem
        exact hmem.resolve_left hi
      subst hij
      cases body with
      | pure result =>
        have hleave : s.leave result = .query q next := hbody.symm.trans hpool
        unfold leave at hleave
        cases hleave
        rcases hanswer with rfl | ⟨-, fault, hfault⟩
        · exact H.depart hlast hbody habides hread
        · cases hfault
      | query q' next' =>
        have hnext := hbody.symm.trans hpool
        cases hnext
        obtain ⟨hguar, habides'⟩ := (habides w rfl).2 answer w' hanswer
        exact H.goOn hlast hi hheld hbody hguar habides' hread
  -- A call that was not admitted asks for the guard now, or has given up before.
  · rcases H.waiting i hmem with hwaits | hgaveUp
    · cases hcall : calls i with
      | tick =>
        have hacquire := hpool.symm.trans hwaits
        rw [hcall, called_tick] at hacquire
        cases hacquire
        rcases hanswer with ⟨hfree, rfl⟩ | ⟨-, fault, hfault⟩
        · exact H.enter hmem hwaits hfree rfl (by simp [admits]) rfl rfl
        · cases hfault
      | tryTick =>
        have hacquire := hpool.symm.trans hwaits
        rw [hcall, called_tryTick] at hacquire
        cases hacquire
        rcases hanswer with ⟨rfl, rfl⟩ | ⟨-, fault, hfault⟩
        · cases hheld : w.held s.guard with
          | false => exact H.enter hmem hwaits hheld rfl (by simp [admits]) rfl rfl
          | true => exact H.refuse hmem hwaits hheld rfl (by simp [admits]) rfl rfl ⟨rfl, rfl⟩
        · cases hfault
    · rw [hpool] at hgaveUp
      cases hgaveUp

theorem of_run {others : Surroundings → Surroundings → Prop}
    (hothers : ∀ w w', others w w' →
      w'.store.checkpoints.get? s.task.lastBlockKey =
        w.store.checkpoints.get? s.task.lastBlockKey ∧ w'.held s.guard = w.held s.guard)
    (hfree : w₀.held s.guard = false)
    (hrun : Pool.Run others (fun i => s.called (calls i)) w₀ events pool w) :
    s.Serial calls w₀ events pool w := by
  induction hrun with
  | refl => exact at_start hfree
  | others _ hothers' ih =>
    obtain ⟨htext, hheld⟩ := hothers _ _ hothers'
    exact ih.others htext hheld
  | query _ hpool hanswer ih => exact ih.query hpool hanswer

omit [DecidableEq ι] in
theorem inside_iff (H : s.Serial calls w₀ events pool w) (hinside : s.Inside events i) :
    s.admitted events = s.departed events ++ [i] ∧ ∀ result, pool i ≠ .pure result := by
  obtain ⟨hmem, hi⟩ := hinside
  rcases H.order with ⟨hall, -, -⟩ | ⟨j, body, hlast, -, -, hbody, -, -⟩
  · exact absurd (hall ▸ hmem) hi
  · rw [hlast, List.mem_append, List.mem_singleton] at hmem
    obtain rfl := hmem.resolve_left hi
    exact ⟨hlast, fun result => hbody ▸ bind_leave_ne_pure body result⟩

end Serial

/-- However calls that tick one scraper run at the same time, and whichever of their queries fail:

* at most one of them is between taking the guard and giving it back, and it has not returned;
* each reads the last block as the call before it has left it, in the order in which they are
  admitted, and none succeeds without having read it;
* when none of them is inside, the last block is the largest that a call has succeeded with, or what
  it was before if none has;
* a call that gives up has asked for nothing but the guard, and has changed nothing in the store. -/
theorem concurrent_ticks_serial [DecidableEq ι] {calls : ι → TickCall} {w₀ w : Surroundings}
    {events : List (Event ι)} {pool : Pool ι} {others : Surroundings → Surroundings → Prop}
    (hothers : ∀ w w', others w w' →
      w'.store.checkpoints.get? s.task.lastBlockKey =
        w.store.checkpoints.get? s.task.lastBlockKey ∧ w'.held s.guard = w.held s.guard)
    (hfree : w₀.held s.guard = false)
    (hrun : Pool.Run others (fun i => s.called (calls i)) w₀ events pool w) :
    (∀ i, s.Inside events i →
      (∀ j, s.Inside events j → j = i) ∧ ∀ result, pool i ≠ .pure result) ∧
    (∀ before e after text, events = before ++ e :: after → s.readText? e = some text →
      s.admitted before = s.departed before ++ [e.caller] ∧
        text = s.reading (s.left w₀ before)) ∧
    (∀ i o, pool i = .pure (some (.ok o)) → s.HasRead events i) ∧
    ((∀ i, ¬s.Inside events i) →
      Settled pool (w₀.height? s.task.lastBlockKey s.task.startBlock)
        (w.height? s.task.lastBlockKey s.task.startBlock)) ∧
    ∀ i, pool i = .pure none → ∀ e ∈ events, e.caller = i →
      e.query = .tryAcquire s.guard ∧ e.after.store = e.before.store := by
  have H := Serial.of_run hothers hfree hrun
  refine ⟨fun i hi => ⟨fun j hj => ?_, (H.inside_iff hi).2⟩, H.reads, H.hasRead, fun hnone => ?_,
    ?_⟩
  · have heq := (H.inside_iff hj).1.symm.trans (H.inside_iff hi).1
    exact List.head_eq_of_cons_eq (List.append_cancel_left heq)
  · rcases H.order with ⟨-, -, hreading⟩ | ⟨i, body, hlast, hi, -, -, -, -⟩
    · rw [height?_eq_reading w, hreading, ← height?_eq_reading]
      exact H.settled
    · exact absurd ⟨by rw [hlast]; simp, hi⟩ (hnone i)
  · intro i hpool e he hcaller
    refine H.refused e he fun hmem => ?_
    rw [hcaller] at hmem
    by_cases hi : i ∈ s.departed events
    · obtain ⟨result, hpure⟩ := H.gone i hi
      rw [hpool] at hpure
      cases hpure
    · exact (H.inside_iff ⟨hmem, hi⟩).2 none hpool

end Scraper

/-! ### Three calls -/

/-- Calls in turns: whoever has the turn has its next query answered. Nothing fails. -/
def Pool.interpret {ι : Type} [DecidableEq ι] :
    List ι → List (Event ι) × Pool ι × Surroundings →
      Option (List (Event ι) × Pool ι × Surroundings)
  | [], state => some state
  | i :: turns, (events, pool, w) =>
    match pool i with
    | .pure _ => interpret turns (events, pool, w)
    | .query q next => (w.answer? q).bind fun (answer, w') =>
      interpret turns (events ++ [⟨i, q, answer, w, w'⟩], Function.update pool i (next answer), w')

theorem Pool.Run.of_interpret {ι : Type} [DecidableEq ι]
    {others : Surroundings → Surroundings → Prop} {start pool pool' : Pool ι}
    {w₀ w w' : Surroundings} {events events' : List (Event ι)} {turns : List ι}
    (H : Run others start w₀ events pool w)
    (h : Pool.interpret turns (events, pool, w) = some (events', pool', w')) :
    Run others start w₀ events' pool' w' := by
  induction turns generalizing events pool w with
  | nil =>
    cases h
    exact H
  | cons i turns ih =>
    rw [Pool.interpret] at h
    split at h
    · exact ih H h
    · next q next hpool =>
      obtain ⟨⟨answer, w₁⟩, hanswer, hrest⟩ := Option.bind_eq_some_iff.mp h
      exact ih (H.query hpool (.inl (Surroundings.answers_of_answer? hanswer))) hrest

/-- Two calls that wait, and one that does not. -/
def TickCall.sample (i : Fin 3) : TickCall := if i = 2 then .tryTick else .tick

/-- The last call comes while the first is scanning, and the second when that is done. -/
def Pool.sampleTurns : List (Fin 3) :=
  List.replicate 10 0 ++ [2] ++ List.replicate 13 0 ++ List.replicate 23 1

/-- What is seen of a run of three calls. -/
structure Pool.Seen where
  answers : List (Option (Option (Except Fault TickOutcome)))
  admitted : List (Fin 3)
  departed : List (Fin 3)
  /-- What the last block has been read as. -/
  texts : List String
  deriving DecidableEq

def Pool.see (s : Scraper) (events : List (Event (Fin 3))) (pool : Pool (Fin 3)) : Seen where
  answers := [0, 1, 2].map fun i => (Process.run (pool i)).value?
  admitted := s.admitted events
  departed := s.departed events
  texts := events.filterMap s.readText?

theorem Pool.sample_seen :
    (Pool.interpret sampleTurns
      ([], fun i => Scraper.sampleNative.called (.sample i), Surroundings.sample)).map
        (fun (events, pool, _) => see .sampleNative events pool) =
      some {
        answers := [some (some (.ok ⟨⟨8, 15⟩, 7, 15, 30⟩)), some (some (.ok ⟨⟨13, 20⟩, 5, 20, 30⟩)),
          some none]
        admitted := [0, 1]
        departed := [0, 1]
        texts := ["10", "15"] } := by
  decide +kernel

/-- While one call is ticking, one gives up. Another one waits, and finds the last block where the
first has left it, not where it was at the start; and where that one leaves it, it stays. -/
theorem Scraper.sampleNative_ticks_serial : ∃ events pool w,
    Pool.Run Eq (fun i => Scraper.sampleNative.called (.sample i)) .sample events pool w ∧
      pool 0 = .pure (some (.ok ⟨⟨8, 15⟩, 7, 15, 30⟩)) ∧
      pool 1 = .pure (some (.ok ⟨⟨13, 20⟩, 5, 20, 30⟩)) ∧ pool 2 = .pure none ∧
      Scraper.sampleNative.admitted events = [0, 1] ∧
      events.filterMap Scraper.sampleNative.readText? = ["10", "15"] ∧
      w.height? Scraper.sampleNative.task.lastBlockKey 10 = some 20 ∧
      ∀ e ∈ events, e.caller = 2 → e.after.store = e.before.store := by
  obtain ⟨⟨events, pool, w⟩, hrun, hseen⟩ := Option.map_eq_some_iff.mp Pool.sample_seen
  replace hrun : Pool.Run Eq _ _ events pool w := .of_interpret .refl hrun
  simp only [Pool.see, List.map_cons, List.map_nil, Pool.Seen.mk.injEq, List.cons.injEq, and_true]
    at hseen
  obtain ⟨⟨hfirst, hsecond, hthird⟩, hadmitted, hdeparted, htexts⟩ := hseen
  have hpure {i : Fin 3} {value} (h : (Process.run (pool i)).value? = some value) :
      pool i = .pure value := Process.run.inj (Process.value?_eq_some h)
  obtain ⟨-, -, -, hsettled, hnone⟩ :=
    Scraper.concurrent_ticks_serial (fun w w' h => by simp [h]) rfl hrun
  have hall : ∀ i, ¬Scraper.sampleNative.Inside events i := fun i hi =>
    hi.2 (hdeparted ▸ hadmitted ▸ hi.1)
  refine ⟨events, pool, w, hrun, hpure hfirst, hpure hsecond, hpure hthird, hadmitted, htexts, ?_,
    fun e he hcaller => (hnone 2 (hpure hthird) e he hcaller).2⟩
  refine (hsettled hall).height?_eq (hpure hsecond) fun j o hj => ?_
  match j with
  | 0 =>
    cases (hpure hfirst).symm.trans hj
    decide
  | 1 =>
    cases (hpure hsecond).symm.trans hj
    exact UInt64.le_refl _
  | 2 => cases (hpure hthird).symm.trans hj

end ChainIngest
