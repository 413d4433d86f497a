import ChainIngest.Cadence
import ChainIngest.Proofs.Reachability

/-! The pace of a cadence. A run starts at its deadline, or when the run before it has ended if that
is later (`Cadence.Kept`); what follows from that for the times of all runs is
`Cadence.runs_keep_pace`. -/

namespace ChainIngest.Cadence

open Engine

/-- The parts of a cadence that ask queries. -/
inductive Part where
  | cadence
  | job
  deriving DecidableEq, Repr

/-- One round, with who asks each query. -/
def roundBy (name : Job) (period : Nat) (job : Process Engine (Except Fault Unit))
    (deadline : Nat) : Process (Engine.By Part) (Nat ⊕ Unit) := do
  match ← (Process.run (ask (.waitUntil deadline))).askedBy .cadence with
  | .cancelled => return .inr ()
  | .arrived now =>
    match ← job.askedBy .job with
    | .ok () => return .inl (nextDeadline period deadline now)
    | .error fault =>
      (Process.run (tell (.jobFailed name fault))).askedBy .cadence
      return .inl (nextDeadline period deadline now)

/-- A cadence, with who asks each query. -/
def runBy (name : Job) (seconds : UInt64) (job : Process Engine (Except Fault Unit)) :
    Process (Engine.By Part) Unit := do
  let start ← (Process.run now).askedBy .cadence
  .loop (start + period seconds) (roundBy name (period seconds) job)
  (Process.run (tell (.cadenceStopped name))).askedBy .cadence

theorem roundBy_erase (name : Job) (period : Nat) (job : Process Engine (Except Fault Unit))
    (deadline : Nat) :
    (roundBy name period job deadline).erase = round name period job deadline := by
  unfold roundBy round
  simp only [Process.erase_bind, Process.erase_askedBy]
  congr
  funext awaited
  cases awaited with
  | cancelled => rfl
  | arrived now =>
    simp only [Process.erase_bind, Process.erase_askedBy]
    congr
    funext result
    cases result with
    | ok value => rfl
    | error fault => rfl

/-- A cadence is the same regardless of who asks its queries. -/
theorem runBy_erase (name : Job) (seconds : UInt64) (job : Process Engine (Except Fault Unit)) :
    (runBy name seconds job).erase = run name seconds job := by
  unfold runBy run
  simp only [Process.erase_bind, Process.erase_askedBy, Process.erase, roundBy_erase]

/-! ### Time -/

/-- How time goes by for a cadence and its job. -/
structure Timekeeping (σ : Type) where
  /-- The time, in milliseconds. -/
  clock : σ → Nat
  /-- When the cadence is cancelled, if it is. -/
  cancellation : Option Nat
  /-- How the queries of the job are answered. -/
  job : Answering Engine σ
  forward : job w q answer w' → clock w ≤ clock w'
  goesOn : clock w ≤ t → ∃ w', clock w' = t

/-- A run of the job. -/
structure JobRun (σ : Type) where
  /-- The deadline that has been waited for. -/
  due : Nat
  /-- When the waiting has begun. -/
  asked : σ
  start : σ
  finish : Option σ

/-- A state, and the runs of the job up to then, the latest one first. A run is noted to have ended
when the cadence begins to wait again. -/
structure Diary (σ : Type) where
  world : σ
  runs : List (JobRun σ)

/-- The runs up to now, of which none is in progress. -/
def Diary.settled {σ : Type} (d : Diary σ) : List (JobRun σ) :=
  match d.runs with
  | [] => []
  | r :: earlier => { r with finish := some d.world } :: earlier

namespace Timekeeping

variable {σ : Type}

/-- A wait is over at the deadline, or at once if that has passed, and no later than a cancellation
after its beginning. -/
def Arrives (T : Timekeeping σ) (w : σ) (due : Nat) (w' : σ) : Prop :=
  T.clock w' = max due (T.clock w) ∧
    ∀ c, T.cancellation = some c → T.clock w' ≤ max c (T.clock w)

/-- A wait is over at the cancellation, or at once if that has been, and no later than a deadline
after its beginning. -/
def Cancels (T : Timekeeping σ) (w : σ) (due : Nat) (w' : σ) : Prop :=
  ∃ c, T.cancellation = some c ∧ T.clock w' = max c (T.clock w) ∧
    T.clock w' ≤ max due (T.clock w)

/-- How a cadence's own queries are answered. Only waiting takes time. If both the deadline and the
cancellation have come, either may be told. -/
def Own (T : Timekeeping σ) : Diary σ → (q : Query) → Answer q → Diary σ → Prop
  | d, .waitUntil due, .arrived now, d' => T.Arrives d.world due d'.world ∧
    now = T.clock d'.world ∧ d'.runs = ⟨due, d.world, d'.world, none⟩ :: d.settled
  | d, .waitUntil due, .cancelled, d' => T.Cancels d.world due d'.world ∧ d'.runs = d.settled
  | d, .now, now, d' => now = T.clock d.world ∧ d' = d
  | d, _, _, d' => d' = d

/-- How the queries of a cadence and its job are answered, and what is noted. -/
def notes (T : Timekeeping σ) : Answering (Engine.By Part) (Diary σ) := fun d q answer d' =>
  match q.1 with
  | .cadence => T.Own d q.2 answer d'
  | .job => T.job d.world q.2 answer d'.world ∧ d'.runs = d.runs

end Timekeeping

/-! ### The order of runs -/

section

variable {σ : Type}

/-- If the run has ended, the job has run from its start to its end. -/
def JobRun.Truthful (T : Timekeeping σ) (job : Process Engine (Except Fault Unit))
    (r : JobRun σ) : Prop :=
  ∀ w, r.finish = some w → ∃ result, job.Reaches T.job r.start (.done result) w

/-- The job has run from the start of the run to its end. -/
def JobRun.Complete (T : Timekeeping σ) (job : Process Engine (Except Fault Unit))
    (r : JobRun σ) : Prop :=
  ∃ w result, r.finish = some w ∧ job.Reaches T.job r.start (.done result) w

/-- Runs as a cadence makes them that has begun in `w₀`, the latest one first: each after the wait
for its deadline, and each wait after the end of the run before. -/
inductive Kept (T : Timekeeping σ) (job : Process Engine (Except Fault Unit)) (w₀ : σ)
    (period : Nat) : List (JobRun σ) → Prop
  | nil : Kept T job w₀ period []
  | first : r.asked = w₀ → r.due = T.clock w₀ + period → T.Arrives r.asked r.due r.start →
    r.Truthful T job → Kept T job w₀ period [r]
  | next : Kept T job w₀ period (previous :: earlier) → previous.finish = some r.asked →
    r.due = nextDeadline period previous.due (T.clock previous.start) →
    T.Arrives r.asked r.due r.start → r.Truthful T job →
    Kept T job w₀ period (r :: previous :: earlier)

/-- The deadline after some runs. -/
def deadlineAfter (T : Timekeeping σ) (w₀ : σ) (period : Nat) : List (JobRun σ) → Nat
  | [] => T.clock w₀ + period
  | r :: _ => nextDeadline period r.due (T.clock r.start)

/-- No run is in progress: the job has run from the start of the latest one to now. -/
def Idle (T : Timekeeping σ) (job : Process Engine (Except Fault Unit)) (w₀ : σ) (d : Diary σ) :
    Prop :=
  match d.runs with
  | [] => d.world = w₀
  | r :: _ => ∃ result, job.Reaches T.job r.start (.done result) d.world

variable {T : Timekeeping σ} {job : Process Engine (Except Fault Unit)} {w₀ : σ} {P : Nat}
  {r previous : JobRun σ} {earlier runs : List (JobRun σ)} {d d' : Diary σ}

namespace Kept

theorem head (H : Kept T job w₀ P (r :: earlier)) :
    T.Arrives r.asked r.due r.start ∧ r.Truthful T job := by
  cases H with
  | first _ _ harrives htrue => exact ⟨harrives, htrue⟩
  | next _ _ _ harrives htrue => exact ⟨harrives, htrue⟩

/-- The latest run has another end. -/
theorem withFinish (H : Kept T job w₀ P (r :: earlier)) {finish : Option σ}
    (h : JobRun.Truthful T job { r with finish }) :
    Kept T job w₀ P ({ r with finish } :: earlier) := by
  cases H with
  | first hasked hdue harrives => exact .first hasked hdue harrives h
  | next hearlier hasked hdue harrives => exact .next hearlier hasked hdue harrives h

theorem of_suffix (H : Kept T job w₀ P runs) (h : earlier <:+ runs) :
    Kept T job w₀ P earlier := by
  induction H with
  | nil => exact List.suffix_nil.mp h ▸ .nil
  | first hasked hdue harrives htrue =>
    rcases List.suffix_cons_iff.mp h with rfl | h
    · exact .first hasked hdue harrives htrue
    · exact List.suffix_nil.mp h ▸ .nil
  | next hearlier hasked hdue harrives htrue ih =>
    rcases List.suffix_cons_iff.mp h with rfl | h
    · exact .next hearlier hasked hdue harrives htrue
    · exact ih h

/-- When a cadence begins to wait, its runs have all ended. -/
theorem settled (H : Kept T job w₀ P d.runs) (h : Idle T job w₀ d) :
    Kept T job w₀ P d.settled := by
  obtain ⟨world, runs⟩ := d
  cases runs with
  | nil => exact .nil
  | cons r earlier =>
    exact H.withFinish fun w hw => Option.some.inj hw ▸ h

/-- One more run, which has just begun. -/
theorem arrives (H : Kept T job w₀ P d.runs) (h : Idle T job w₀ d) {w : σ}
    (harrives : T.Arrives d.world (deadlineAfter T w₀ P d.runs) w) :
    Kept T job w₀ P
      (⟨deadlineAfter T w₀ P d.runs, d.world, w, none⟩ :: d.settled) := by
  have hsettled := H.settled h
  obtain ⟨world, runs⟩ := d
  cases runs with
  | nil => exact .first h rfl harrives nofun
  | cons r earlier => exact .next hsettled rfl rfl harrives nofun

end Kept

/-- A job runs from its start to its end, and no run is noted meanwhile. -/
theorem job_always (d : Diary σ) : (job.askedBy Part.job).Always T.notes (·.runs = d.runs)
    (fun result d' => d'.runs = d.runs ∧ job.Reaches T.job d.world (.done result) d'.world) d := by
  refine .askedBy fun p' d' hreaches => ?_
  have hworld : job.Reaches T.job d.world p' d'.world :=
    hreaches.image Diary.world fun _ _ _ _ h => h.1
  have hruns : d'.runs = d.runs := Process.Reaches.keeps
    (J := (·.runs = d.runs)) (fun _ _ _ _ hsame h => h.2.trans hsame) hreaches rfl
  refine ⟨hruns, fun result hresult => ⟨hruns, ?_⟩⟩
  obtain rfl := Process.value?_eq_some hresult
  exact hworld

/-- A round makes one more run, unless it ends with the cancellation. -/
theorem roundBy_always (name : Job) (hkept : Kept T job w₀ P d.runs)
    (hidle : Idle T job w₀ d) :
    (roundBy name P job (deadlineAfter T w₀ P d.runs)).Always T.notes
      (fun d' => Kept T job w₀ P d'.runs) (fun
        | .inl deadline, d' => Kept T job w₀ P d'.runs ∧ Idle T job w₀ d' ∧
          deadline = deadlineAfter T w₀ P d'.runs
        | .inr (), d' => Kept T job w₀ P d'.runs ∧ d'.runs = d.settled ∧
          T.Cancels d.world (deadlineAfter T w₀ P d.runs) d'.world) d := by
  refine .andThen (.query hkept fun awaited d₁ hnoted => ?_)
  cases awaited with
  | cancelled =>
    obtain ⟨hcancels, hruns⟩ := hnoted
    have hkept' := hkept.settled hidle
    rw [← hruns] at hkept'
    exact .done hkept' (.done hkept' ⟨hkept', hruns, hcancels⟩)
  | arrived now =>
    obtain ⟨harrives, rfl, hruns⟩ := hnoted
    have hkept' := hkept.arrives hidle harrives
    rw [← hruns] at hkept'
    refine .done hkept' (.andThen ((job_always d₁).mono (fun d₂ h => h ▸ hkept') ?_))
    rintro result d₂ - ⟨hsame, hran⟩
    have hidle' : Idle T job w₀ d₂ := by
      rw [Idle, hsame, hruns]
      exact ⟨result, hran⟩
    have hnext : nextDeadline P (deadlineAfter T w₀ P d.runs) (T.clock d₁.world) =
        deadlineAfter T w₀ P d₂.runs := by
      rw [hsame, hruns]
      rfl
    have hkept₂ : Kept T job w₀ P d₂.runs := hsame ▸ hkept'
    cases result with
    | ok value => exact .done hkept₂ ⟨hkept₂, hidle', hnext⟩
    | error fault =>
      refine .andThen (.query hkept₂ fun _ d₃ hnoted => ?_)
      obtain rfl : d₃ = d₂ := hnoted
      exact .done hkept₂ (.done hkept₂ ⟨hkept₂, hidle', hnext⟩)

/-- When a cadence has ended, it has been cancelled while it waited, and all its runs have ended. -/
structure Stopped (T : Timekeeping σ) (job : Process Engine (Except Fault Unit)) (d : Diary σ) :
    Prop where
  cancelled : ∃ c, T.cancellation = some c ∧ c ≤ T.clock d.world
  complete : ∀ r ∈ d.runs, r.Complete T job

/-- Runs that are followed by a wait have all ended. -/
theorem Kept.complete (H : Kept T job w₀ P (r :: earlier)) (hr : previous ∈ earlier) :
    previous.Complete T job := by
  generalize hruns : r :: earlier = runs at H
  induction H generalizing r earlier with
  | nil => cases hruns
  | first =>
    cases hruns
    cases hr
  | next hearlier hasked hdue harrives htrue ih =>
    cases hruns
    rcases List.mem_cons.mp hr with rfl | hr
    · obtain ⟨result, hran⟩ := hearlier.head.2 _ hasked
      exact ⟨_, result, hasked, hran⟩
    · exact ih hr rfl

theorem Kept.complete_settled (H : Kept T job w₀ P d.runs) (h : Idle T job w₀ d) :
    ∀ r ∈ d.settled, r.Complete T job := by
  obtain ⟨world, runs⟩ := d
  cases runs with
  | nil => exact nofun
  | cons r earlier =>
    obtain ⟨result, hran⟩ := h
    intro r' hr'
    rcases List.mem_cons.mp hr' with rfl | hr'
    · exact ⟨world, result, rfl, hran⟩
    · exact H.complete hr'

/-- A cadence always has its runs in order, and has completed them when it has stopped. -/
theorem runBy_always (T : Timekeeping σ) (name : Job) (seconds : UInt64)
    (job : Process Engine (Except Fault Unit)) (w₀ : σ) :
    (runBy name seconds job).Always T.notes (fun d => Kept T job w₀ (period seconds) d.runs)
      (fun _ d => Stopped T job d) ⟨w₀, []⟩ := by
  refine .andThen (.query .nil fun t₀ d hnoted => ?_)
  obtain ⟨rfl, rfl⟩ : t₀ = T.clock w₀ ∧ d = ⟨w₀, []⟩ := hnoted
  refine .done .nil (.andThen (.loop (fun deadline d => Kept T job w₀ (period seconds) d.runs ∧
    Idle T job w₀ d ∧ deadline = deadlineAfter T w₀ (period seconds) d.runs) (fun _ _ h => h.1) ?_
    ⟨.nil, rfl, rfl⟩))
  rintro _ d ⟨hkept, hidle, rfl⟩
  refine (roundBy_always name hkept hidle).mono (fun _ h => h) ?_
  rintro (deadline | ⟨⟩) d' - h
  · exact h
  · obtain ⟨hkept', hruns, c, hc, hclock, -⟩ := h
    refine .query hkept' fun _ d'' hnoted => ?_
    obtain rfl : d'' = d' := hnoted
    refine .done hkept' ⟨⟨c, hc, hclock ▸ Nat.le_max_left ..⟩, ?_⟩
    exact hruns ▸ hkept.complete_settled hidle

/-! ### The times of runs -/

theorem clock_mono {p p' : Process Engine (Except Fault Unit)} {w w' : σ}
    (H : p.Reaches T.job w p' w') : T.clock w ≤ T.clock w' :=
  H.keeps (J := (T.clock w ≤ T.clock ·))
    (fun _ _ _ _ hle h => Nat.le_trans hle (T.forward h)) (Nat.le_refl _)

namespace Kept

/-- A run starts at its deadline, or when the wait for it has begun if that is later. -/
theorem clock_start (H : Kept T job w₀ P (r :: earlier)) :
    T.clock r.start = max r.due (T.clock r.asked) := H.head.1.1

theorem clock_first (H : Kept T job w₀ P [r]) : T.clock r.start = T.clock w₀ + P := by
  have hstart := H.clock_start
  cases H with
  | first hasked hdue =>
    rw [hstart, hdue, hasked]
    exact Nat.max_eq_left (Nat.le_add_right ..)

/-- The next deadline is no earlier than a period after the start of a run, up to the tolerance. -/
theorem clock_due (H : Kept T job w₀ P (r :: previous :: earlier)) :
    T.clock previous.start + P ≤ r.due + tolerance := by
  cases H with
  | next hearlier hasked hdue =>
    have hlast := hearlier.clock_start
    rw [nextDeadline] at hdue
    split at hdue <;> omega

/-- The next run starts after the end of the one before. -/
theorem clock_next (H : Kept T job w₀ P (r :: previous :: earlier)) :
    T.clock previous.start ≤ T.clock r.asked ∧ T.clock r.asked ≤ T.clock r.start := by
  have hstart := H.clock_start
  cases H with
  | next hearlier hasked hdue =>
    obtain ⟨result, hran⟩ := hearlier.head.2 _ hasked
    exact ⟨clock_mono hran, by omega⟩

/-- If the end of a run is late for the next deadline, the next run starts at once, and the deadline
after it is a period later. -/
theorem clock_late (H : Kept T job w₀ P (r :: earlier)) (h : r.due + tolerance < T.clock r.asked) :
    T.clock r.start = T.clock r.asked ∧
      nextDeadline P r.due (T.clock r.start) = T.clock r.start + P := by
  have hstart := H.clock_start
  refine ⟨by omega, ?_⟩
  rw [nextDeadline, if_pos (by omega)]

/-- If every run so far has lasted at most a period, none has come late. -/
theorem clock_steady (H : Kept T job w₀ P (r :: earlier))
    (h : ∀ e ∈ earlier, ∀ w, e.finish = some w → T.clock w ≤ T.clock e.start + P) :
    r.due = T.clock w₀ + (earlier.length + 1) * P ∧ T.clock r.start = r.due := by
  induction earlier generalizing r with
  | nil =>
    have hstart := H.clock_first
    cases H with
    | first _ hdue => exact ⟨by simpa using hdue, by omega⟩
  | cons previous earlier ih =>
    have hstart := H.clock_start
    cases H with
    | next hearlier hasked hdue =>
      obtain ⟨hlast, hon⟩ := ih hearlier fun e he => h e (List.mem_cons_of_mem _ he)
      have hshort := h previous List.mem_cons_self _ hasked
      rw [hon, nextDeadline, if_neg (by omega)] at hdue
      refine ⟨?_, by omega⟩
      rw [hdue, hlast, Nat.add_assoc, ← Nat.succ_mul, List.length_cons]

end Kept

/-! ### Further runs -/

/-- A wait is over at some time. -/
theorem exists_wait (T : Timekeeping σ) (d : Diary σ) (due : Nat) :
    ∃ answer d', T.notes d (.cadence, .waitUntil due) answer d' := by
  have harrives (h : ∀ c, T.cancellation = some c →
      max due (T.clock d.world) ≤ max c (T.clock d.world)) :
      ∃ answer d', T.notes d (.cadence, .waitUntil due) answer d' := by
    obtain ⟨w, hw⟩ := T.goesOn (Nat.le_max_right due (T.clock d.world))
    have hwait : T.Arrives d.world due w := ⟨hw, fun c hc => hw ▸ h c hc⟩
    exact ⟨.arrived (T.clock w), ⟨w, ⟨due, d.world, w, none⟩ :: d.settled⟩, hwait, rfl, rfl⟩
  cases hc : T.cancellation with
  | none => exact harrives fun c h => nomatch hc.symm.trans h
  | some c =>
    by_cases hle : max due (T.clock d.world) ≤ max c (T.clock d.world)
    · exact harrives fun c' hc' => Option.some.inj (hc.symm.trans hc') ▸ hle
    · obtain ⟨w, hw⟩ := T.goesOn (Nat.le_max_right c (T.clock d.world))
      have hwait : T.Cancels d.world due w := ⟨c, hc, hw, by omega⟩
      exact ⟨.cancelled, ⟨w, d.settled⟩, hwait, rfl⟩

/-- A job that ends does so in a cadence. It does not put the clock back, and no run is noted
meanwhile. -/
theorem job_ends {post : σ → Prop} (H : job.Ends T.job (fun _ w' => post w') d.world) :
    (job.askedBy Part.job).Ends T.notes (fun _ d' => post d'.world ∧
      T.clock d.world ≤ T.clock d'.world ∧ d'.runs = d.runs) d := by
  have hkept := H.and_kept (J := (T.clock d.world ≤ T.clock ·))
    (fun _ _ _ _ hle h => Nat.le_trans hle (T.forward h)) (Nat.le_refl _)
  have hembed {w : σ} {q : Query} {answer : Answer q} {d' : Diary σ} :
      T.notes.of .job ⟨w, d.runs⟩ q answer d' ↔
        ∃ w', T.job w q answer w' ∧ d' = ⟨w', d.runs⟩ := by
    constructor
    · rintro ⟨h, hruns⟩
      exact ⟨d'.world, h, by rw [← hruns]⟩
    · rintro ⟨w', h, rfl⟩
      exact ⟨h, rfl⟩
  refine (hkept.embed (fun w => (⟨w, d.runs⟩ : Diary σ)) hembed).askedBy.mono ?_
  rintro _ _ ⟨w', h, rfl⟩
  exact ⟨h.1, h.2, rfl⟩

/-- A round ends if the job does, with one more run or with the cancellation. -/
theorem roundBy_ends {post : σ → σ → Prop} (name : Job) (deadline : Nat)
    (hjob : ∀ w, job.Ends T.job (fun _ w' => post w w') w) (d : Diary σ) :
    (roundBy name P job deadline).Ends T.notes (fun
      | .inl deadline', d' => ∃ w, T.Arrives d.world deadline w ∧
        deadline' = nextDeadline P deadline (T.clock w) ∧
        d'.runs = ⟨deadline, d.world, w, none⟩ :: d.settled ∧
        T.clock w ≤ T.clock d'.world ∧ post w d'.world
      | .inr (), d' => T.Cancels d.world deadline d'.world) d := by
  refine .andThen (.run ⟨exists_wait T d deadline, fun awaited d₁ hnoted => ?_⟩)
  cases awaited with
  | cancelled => exact .done rfl hnoted.1
  | arrived now =>
    obtain ⟨harrives, rfl, hruns⟩ := hnoted
    refine .andThen ((job_ends (hjob d₁.world)).mono ?_)
    rintro result d₂ ⟨hpost, hmono, hsame⟩
    have hround : ∃ w, T.Arrives d.world deadline w ∧
        nextDeadline P deadline (T.clock d₁.world) = nextDeadline P deadline (T.clock w) ∧
        d₂.runs = ⟨deadline, d.world, w, none⟩ :: d.settled ∧
        T.clock w ≤ T.clock d₂.world ∧ post w d₂.world :=
      ⟨d₁.world, harrives, rfl, hsame.trans hruns, hmono, hpost⟩
    cases result with
    | ok value => exact .done rfl hround
    | error fault =>
      refine .andThen (.run ⟨⟨(), d₂, rfl⟩, fun _ d₃ hnoted => ?_⟩)
      obtain rfl : d₃ = d₂ := hnoted
      exact .done rfl hround

theorem length_settled (d : Diary σ) : d.settled.length = d.runs.length := by
  obtain ⟨world, runs⟩ := d
  cases runs with
  | nil => rfl
  | cons r earlier => rfl

/-- As long as it is not cancelled, a cadence makes more and more runs if each of them ends. -/
theorem loop_goes_on (name : Job) (hjob : ∀ w, job.Ends T.job (fun _ _ => True) w)
    (n deadline : Nat) (d : Diary σ) :
    (Process.loop deadline (roundBy name P job)).Eventually T.notes
      (fun d' => d.runs.length + n ≤ d'.runs.length ∨
        ∃ c, T.cancellation = some c ∧ c ≤ T.clock d'.world) d := by
  induction n generalizing d deadline with
  | zero => exact .now (.inl (Nat.le_refl _))
  | succ n ih =>
    refine .loop ((roundBy_ends name deadline hjob d).mono ?_)
    rintro (deadline' | ⟨⟩) d' hround
    · obtain ⟨w, -, -, hruns, -⟩ := hround
      have hlength : d.runs.length + (n + 1) = d'.runs.length + n := by
        rw [hruns, List.length_cons, length_settled, Nat.add_right_comm, Nat.add_assoc]
      rw [hlength]
      exact ih deadline' d'
    · obtain ⟨c, hc, hclock, -⟩ := hround
      exact .inr ⟨c, hc, hclock ▸ Nat.le_max_left ..⟩

/-- However the job of a cadence runs, whatever it comes to each time, and whenever the cadence is
cancelled:

* the first run starts after one period;
* a run starts after the one before has ended, and at least a period after that has started, less
  the tolerance;
* if the one before has ended too late for the deadline, by more than the tolerance, the run starts
  right at that end, and the deadline after it is a period later;
* if every run so far has lasted at most a period, the run starts at its multiple of the period;
* any number of runs start unless it is cancelled before, as long as each run ends. -/
theorem runs_keep_pace (T : Timekeeping σ) (name : Job) (seconds : UInt64)
    (job : Process Engine (Except Fault Unit)) (w₀ : σ) :
    (runBy name seconds job).erase = run name seconds job ∧
    (∀ p d, (runBy name seconds job).Reaches T.notes ⟨w₀, []⟩ p d →
      ∀ r earlier, (r :: earlier) <:+ d.runs →
        (earlier = [] → T.clock r.start = T.clock w₀ + period seconds) ∧
        (∀ previous rest, earlier = previous :: rest → ∃ w result, previous.finish = some w ∧
          job.Reaches T.job previous.start (.done result) w ∧ T.clock w ≤ T.clock r.start ∧
          T.clock previous.start + period seconds ≤ T.clock r.start + tolerance ∧
          (r.due + tolerance < T.clock w → T.clock r.start = T.clock w ∧
            ∀ next, (next :: r :: earlier) <:+ d.runs →
              next.due = T.clock r.start + period seconds)) ∧
        ((∀ e ∈ earlier, ∀ w, e.finish = some w →
          T.clock w ≤ T.clock e.start + period seconds) →
            T.clock r.start = T.clock w₀ + (earlier.length + 1) * period seconds)) ∧
    ((∀ w, job.Ends T.job (fun _ _ => True) w) → ∀ n,
      (runBy name seconds job).Eventually T.notes (fun d => n ≤ d.runs.length ∨
        ∃ c, T.cancellation = some c ∧ c ≤ T.clock d.world) ⟨w₀, []⟩) := by
  refine ⟨runBy_erase .., fun p d hreaches r earlier hr => ?_, fun hjob n => ?_⟩
  · have hkept := (runBy_always T name seconds job w₀ p d hreaches).1
    have hr' := hkept.of_suffix hr
    refine ⟨?_, ?_, fun h => ?_⟩
    · rintro rfl
      exact hr'.clock_first
    · rintro previous rest rfl
      have hend := hr'.clock_next.2
      have hspace : T.clock previous.start + period seconds ≤ T.clock r.start + tolerance := by
        have hdue := hr'.clock_due
        have hstart := hr'.clock_start
        omega
      have hpast := hr'.clock_late
      cases hr' with
      | next hearlier hasked hdue harrives htrue =>
        obtain ⟨result, hran⟩ := hearlier.head.2 _ hasked
        refine ⟨r.asked, result, hasked, hran, hend, hspace, fun hlate => ?_⟩
        obtain ⟨hstart, hnext⟩ := hpast hlate
        refine ⟨hstart, fun next hnext' => ?_⟩
        cases hkept.of_suffix hnext' with
        | next _ _ hdue' => exact hdue'.trans hnext
    · obtain ⟨hdue, hstart⟩ := hr'.clock_steady h
      exact hstart.trans hdue
  · refine .andThen (.run ⟨⟨T.clock w₀, _, rfl, rfl⟩, fun t₀ d hnoted => ?_⟩)
    obtain ⟨rfl, rfl⟩ : t₀ = T.clock w₀ ∧ d = ⟨w₀, []⟩ := hnoted
    have hgoes := loop_goes_on (P := period seconds) name hjob n (T.clock w₀ + period seconds)
      ⟨w₀, []⟩
    rw [List.length_nil, Nat.zero_add] at hgoes
    exact hgoes.andThen_left _

/-! ### What may happen -/

/-- A run may start whenever a wait may be over. -/
theorem roundBy_starts (name : Job) {deadline : Nat} {w : σ}
    (h : T.Arrives d.world deadline w) :
    ∃ p, (roundBy name P job deadline).Reaches T.notes d p
      ⟨w, ⟨deadline, d.world, w, none⟩ :: d.settled⟩ := by
  have hwait : T.notes d (.cadence, .waitUntil deadline) (.arrived (T.clock w))
      ⟨w, ⟨deadline, d.world, w, none⟩ :: d.settled⟩ := ⟨h, rfl, rfl⟩
  exact ⟨_, .andThen (.of_runs (.query hwait .pure)) _⟩

/-- A round makes any run that the job may make. -/
theorem roundBy_reaches (name : Job) {deadline : Nat} {w w' : σ}
    (h : T.Arrives d.world deadline w) (hran : job.Reaches T.job w (.done (.ok ())) w') :
    (roundBy name P job deadline).Reaches T.notes d
      (.done (.inl (nextDeadline P deadline (T.clock w))))
      ⟨w', ⟨deadline, d.world, w, none⟩ :: d.settled⟩ := by
  have hwait : T.notes d (.cadence, .waitUntil deadline) (.arrived (T.clock w))
      ⟨w, ⟨deadline, d.world, w, none⟩ :: d.settled⟩ := ⟨h, rfl, rfl⟩
  have hjob : job.Reaches (T.notes.of .job) ⟨w, ⟨deadline, d.world, w, none⟩ :: d.settled⟩
      (.done (.ok ())) ⟨w', ⟨deadline, d.world, w, none⟩ :: d.settled⟩ :=
    hran.image (fun w' => (⟨w', ⟨deadline, d.world, w, none⟩ :: d.settled⟩ : Diary σ))
      fun _ _ _ _ h => ⟨h, rfl⟩
  exact .andThen_done (.of_runs (.query hwait .pure)) (.andThen_done hjob.askedBy .refl)

theorem runBy_reaches (name : Job) (seconds : UInt64) {p : Process (Engine.By Part) Unit}
    (H : (Process.loop (T.clock w₀ + period seconds) (roundBy name (period seconds) job)).Reaches
      T.notes ⟨w₀, []⟩ p d) :
    ∃ p', (runBy name seconds job).Reaches T.notes ⟨w₀, []⟩ p' d := by
  have hnow : T.notes ⟨w₀, []⟩ (.cadence, .now) (T.clock w₀) ⟨w₀, []⟩ := ⟨rfl, rfl⟩
  exact ⟨_, .andThen_done (.of_runs (.query hnow .pure)) (H.andThen _)⟩

/-! ### A run that is late -/

/-- Time that goes by only while somebody waits; its states are times. -/
def plainTime (cancellation : Option Nat) : Timekeeping Nat where
  clock w := w
  cancellation := cancellation
  job
    | w, .pause milliseconds, _, w' => w' = w + milliseconds
    | w, _, _, w' => w' = w
  forward := by
    intro w q answer w' h
    cases q with
    | pause milliseconds => exact h ▸ Nat.le_add_right w milliseconds
    | _ => exact Nat.le_of_eq (Eq.symm h)
  goesOn := fun _ => ⟨_, rfl⟩

/-- A job that takes some milliseconds and succeeds. -/
def pausing (milliseconds : Nat) : Process Engine (Except Fault Unit) :=
  .run (.query (.pause milliseconds) fun _ => .pure (.ok ()))

theorem pausing_reaches (cancellation : Option Nat) (milliseconds w : Nat) :
    (pausing milliseconds).Reaches (plainTime cancellation).job w (.done (.ok ()))
      (w + milliseconds) := by
  have hpause : (plainTime cancellation).job w (.pause milliseconds) (.arrived ())
      (w + milliseconds) := rfl
  exact .of_runs (.query hpause .pure)

/-- A run that has taken longer than its period. -/
def lateRun : JobRun Nat := ⟨1000, 0, 1000, some 3500⟩

/-- The run after it, which starts at once. -/
def nextRun : JobRun Nat := ⟨2000, 3500, 3500, none⟩

/-- The late run ends two seconds after the cancellation, and the next one may still start. -/
theorem lateRun_reaches : ∃ p, (runBy .headRefresh 1 (pausing 2500)).Reaches
    (plainTime (some 1500)).notes ⟨0, []⟩ p ⟨3500, [nextRun, lateRun]⟩ := by
  have hfirst : (plainTime (some 1500)).Arrives 0 1000 1000 :=
    ⟨rfl, fun c hc => Option.some.inj hc ▸ by decide⟩
  have hsecond : (plainTime (some 1500)).Arrives 3500 2000 3500 :=
    ⟨rfl, fun c hc => Option.some.inj hc ▸ by decide⟩
  have hround : (roundBy .headRefresh 1000 (pausing 2500) 1000).Reaches
      (plainTime (some 1500)).notes ⟨0, []⟩ (.done (.inl 2000)) ⟨3500, [⟨1000, 0, 1000, none⟩]⟩ :=
    roundBy_reaches .headRefresh hfirst (pausing_reaches (some 1500) 2500 1000)
  have hnext : ∃ p, (roundBy .headRefresh 1000 (pausing 2500) 2000).Reaches
      (plainTime (some 1500)).notes ⟨3500, [⟨1000, 0, 1000, none⟩]⟩ p
      ⟨3500, [nextRun, lateRun]⟩ :=
    roundBy_starts .headRefresh hsecond
  obtain ⟨p, hp⟩ := hnext
  obtain ⟨q, hq⟩ := Process.Reaches.loop hp
  exact runBy_reaches .headRefresh 1 (.loop_next hround hq)

/-- The run after one that has overrun its period starts right at its end; and without a
cancellation a third one is bound to start. -/
theorem lateRun_keeps_pace : (∃ p d, (runBy .headRefresh 1 (pausing 2500)).Reaches
      (plainTime (some 1500)).notes ⟨0, []⟩ p d ∧ [nextRun, lateRun] <:+ d.runs ∧
    ∃ w result, lateRun.finish = some w ∧ (pausing 2500).Reaches
      (plainTime (some 1500)).job lateRun.start (.done result) w ∧ nextRun.start = w) ∧
    (runBy .headRefresh 1 (pausing 2500)).Eventually (plainTime none).notes
      (fun d => 3 ≤ d.runs.length) ⟨0, []⟩ := by
  constructor
  · obtain ⟨p, hreaches⟩ := lateRun_reaches
    have hsuffix : [nextRun, lateRun] <:+ [nextRun, lateRun] := List.suffix_rfl
    have hpace := (runs_keep_pace (plainTime (some 1500)) .headRefresh 1 (pausing 2500) 0).2.1
    obtain ⟨-, hprevious, -⟩ := hpace p _ hreaches nextRun [lateRun] hsuffix
    obtain ⟨w, result, hfinish, hran, -, -, hlate⟩ := hprevious lateRun [] rfl
    obtain rfl : 3500 = w := Option.some.inj hfinish
    exact ⟨p, _, hreaches, hsuffix, 3500, result, hfinish, hran, (hlate (by decide)).1⟩
  · have hgoes := (runs_keep_pace (plainTime none) .headRefresh 1 (pausing 2500) 0).2.2
    refine (hgoes (fun w => .run ⟨⟨.arrived (), w + 2500, rfl⟩, fun _ _ _ => trivial⟩) 3).mono ?_
    rintro d (h | ⟨c, hc, -⟩)
    · exact h
    · cases hc

end

end ChainIngest.Cadence
