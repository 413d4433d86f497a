import ChainIngest.Proofs.CadencePace

/-! How a cadence stops. The run that is in progress at the cancellation is completed. If it ends
after the next deadline, the deadline and the cancellation have both come and either may be told, so
one more run may start; otherwise the cadence stops (`Cadence.stops_unless_late`). -/

namespace ChainIngest.Cadence

open Engine

variable {σ : Type} {T : Timekeeping σ} {name : Job} {seconds : UInt64}
  {job : Process Engine (Except Fault Unit)} {w₀ : σ} {P c : Nat} {r : JobRun σ}
  {earlier : List (JobRun σ)} {d : Diary σ} {deadline : Nat}

namespace Kept

/-- A run that starts after the cancellation starts at the end of the one before, and that is not
before its deadline. -/
theorem late_of_cancelled (H : Kept T job w₀ P (r :: earlier)) (hP : 0 < P)
    (hc : T.cancellation = some c) (hlate : c < T.clock r.start) :
    ∃ previous rest w, earlier = previous :: rest ∧ previous.finish = some w ∧
      r.due ≤ T.clock w ∧ T.clock r.start = T.clock w := by
  have hstart := H.clock_start
  have hbound := H.head.1.2 c hc
  cases H with
  | first hasked hdue =>
    rw [hasked] at hstart hbound
    omega
  | next _ hasked => exact ⟨_, _, _, rfl, hasked, by omega, by omega⟩

/-- If every run has been shorter than a period, none starts after the cancellation. -/
theorem start_le_of_short (H : Kept T job w₀ P (r :: earlier)) (hP : 0 < P)
    (hc : T.cancellation = some c)
    (h : ∀ e ∈ earlier, ∀ w, e.finish = some w → T.clock w < T.clock e.start + P) :
    T.clock r.start ≤ c := by
  have hle : ∀ e ∈ earlier, ∀ w, e.finish = some w → T.clock w ≤ T.clock e.start + P :=
    fun e he w hw => Nat.le_of_lt (h e he w hw)
  refine Nat.le_of_not_lt fun hlate => ?_
  obtain ⟨previous, rest, w, rfl, hfinish, hdue, -⟩ := H.late_of_cancelled hP hc hlate
  have hshort := h previous List.mem_cons_self w hfinish
  -- Both runs have their deadlines at multiples of the period.
  have hnext := (H.clock_steady hle).1
  obtain ⟨hlast, hon⟩ := (H.of_suffix (List.suffix_cons ..)).clock_steady
    fun e he => hle e (List.mem_cons_of_mem _ he)
  rw [List.length_cons, Nat.add_one_mul] at hnext
  omega

/-- Runs start one after another. -/
theorem clock_start_le (H : Kept T job w₀ P (r :: earlier)) (he : e ∈ earlier) :
    T.clock e.start ≤ T.clock r.start := by
  induction earlier generalizing r with
  | nil => cases he
  | cons previous rest ih =>
    obtain ⟨hended, hstart⟩ := H.clock_next
    have hprevious := Nat.le_trans hended hstart
    rcases List.mem_cons.mp he with rfl | he
    · exact hprevious
    · exact Nat.le_trans (ih (H.of_suffix (List.suffix_cons ..)) he) hprevious

/-- If runs that start after the cancellation are shorter than a period, only the latest run starts
after it. -/
theorem start_le_of_later (H : Kept T job w₀ P (r :: earlier)) (hP : 0 < P)
    (hc : T.cancellation = some c) (hlate : c < T.clock r.start)
    (h : ∀ e ∈ earlier, ∀ w, e.finish = some w → c < T.clock e.start →
      T.clock w + tolerance < T.clock e.start + P) (he : e ∈ earlier) :
    T.clock e.start ≤ c := by
  obtain ⟨previous, rest, w, rfl, hfinish, hdue, -⟩ := H.late_of_cancelled hP hc hlate
  have hprevious : T.clock previous.start ≤ c := by
    refine Nat.le_of_not_lt fun hafter => ?_
    have hshort := h previous List.mem_cons_self w hfinish hafter
    have hnext := H.clock_due
    omega
  rcases List.mem_cons.mp he with rfl | he
  · exact hprevious
  · exact Nat.le_trans ((H.of_suffix (List.suffix_cons ..)).clock_start_le he) hprevious

end Kept

/-! ### The end -/

/-- What is left of a cadence that waits for a deadline: nothing if only the cancellation can be
told, and otherwise the more the earlier the deadline is. -/
def left (T : Timekeeping σ) (c deadline : Nat) (d : Diary σ) : Nat :=
  if c ≤ T.clock d.world ∧ T.clock d.world < deadline then 0 else c + 1 - deadline + 1

/-- A round after which the cadence goes on leaves less, as long as runs that start after the
cancellation are shorter than a period. -/
theorem left_lt {w : σ} {d' : Diary σ} (hc : T.cancellation = some c) (hP : tolerance < P)
    (harrives : T.Arrives d.world deadline w) (hmono : T.clock w ≤ T.clock d'.world)
    (hshort : c < T.clock w → T.clock d'.world + tolerance < T.clock w + P) :
    left T c (nextDeadline P deadline (T.clock w)) d' < left T c deadline d := by
  obtain ⟨hclock, hbound⟩ := harrives
  have hbound := hbound c hc
  have hnot : ¬(c ≤ T.clock d.world ∧ T.clock d.world < deadline) := by omega
  rw [left, left, if_neg hnot, nextDeadline]
  split <;> split <;> omega

theorem runBy_ends (name : Job) (w₀ : σ) (hc : T.cancellation = some c)
    (hjob : ∀ w, job.Ends T.job
      (fun _ w' => c < T.clock w → T.clock w' + tolerance < T.clock w + period seconds) w) :
    (runBy name seconds job).Ends T.notes (fun _ _ => True) ⟨w₀, []⟩ := by
  have hP : tolerance < period seconds := by
    unfold tolerance period
    omega
  refine .andThen (.run ⟨⟨T.clock w₀, _, rfl, rfl⟩, fun t₀ d hnoted => ?_⟩)
  obtain ⟨rfl, rfl⟩ : t₀ = T.clock w₀ ∧ d = ⟨w₀, []⟩ := hnoted
  refine .andThen (.loop (fun _ _ => True) (left T c)
    (fun deadline d _ => (roundBy_ends name deadline hjob d).mono ?_) trivial)
  rintro (deadline' | ⟨⟩) d' hround
  · obtain ⟨w, harrives, rfl, -, hmono, hshort⟩ := hround
    exact ⟨trivial, left_lt hc hP harrives hmono hshort⟩
  · exact .run ⟨⟨(), d', rfl⟩, fun _ _ _ => trivial⟩

/-- A run that has ended has lasted no longer than the job lasts. -/
theorem JobRun.Complete.short {post : σ → σ → Prop} (H : r.Complete T job)
    (hjob : ∀ w, job.Ends T.job (fun _ w' => post w w') w) :
    ∀ w, r.finish = some w → post r.start w := by
  obtain ⟨w, result, hfinish, hran⟩ := H
  intro w' hw'
  obtain rfl := Option.some.inj (hfinish.symm.trans hw')
  exact ((hjob r.start).of_reaches hran).of_done

/-- When a cadence is cancelled:

* a run that starts after the cancellation starts right at the end of the one before, and that has
  not been before the deadline;
* so if every run has been shorter than a period, no run starts after the cancellation;
* a cadence that has ended has completed all its runs, the one in progress at the cancellation too;
* it ends if its runs do and those that start after the cancellation are shorter than a period, by
  more than the tolerance; and then at most one does. -/
theorem stops_unless_late (hc : T.cancellation = some c) (name : Job) (seconds : UInt64)
    (job : Process Engine (Except Fault Unit)) (w₀ : σ) :
    (runBy name seconds job).erase = run name seconds job ∧
    (∀ p d, (runBy name seconds job).Reaches T.notes ⟨w₀, []⟩ p d →
      (∀ r earlier, (r :: earlier) <:+ d.runs → c < T.clock r.start →
        ∃ previous rest w, earlier = previous :: rest ∧ previous.finish = some w ∧
          r.due ≤ T.clock w ∧ T.clock r.start = T.clock w) ∧
      ((∀ r ∈ d.runs, ∀ w, r.finish = some w →
        T.clock w < T.clock r.start + period seconds) → ∀ r ∈ d.runs, T.clock r.start ≤ c) ∧
      ∀ value, p.value? = some value → ∀ r ∈ d.runs, r.Complete T job) ∧
    ((∀ w, job.Ends T.job (fun _ w' =>
        c < T.clock w → T.clock w' + tolerance < T.clock w + period seconds) w) →
      (runBy name seconds job).Ends T.notes (fun _ d => (∀ r ∈ d.runs, r.Complete T job) ∧
        ∀ r earlier, (r :: earlier) <:+ d.runs → c < T.clock r.start →
          ∀ e ∈ earlier, T.clock e.start ≤ c) ⟨w₀, []⟩) := by
  have halways := runBy_always T name seconds job w₀
  have hP : 0 < period seconds := by
    unfold period
    omega
  refine ⟨runBy_erase .., fun p d hreaches => ?_, fun hjob => ?_⟩
  · obtain ⟨hkept, hstopped⟩ := halways p d hreaches
    refine ⟨fun r earlier hr => (hkept.of_suffix hr).late_of_cancelled hP hc, ?_, ?_⟩
    · intro hshort r hr
      obtain ⟨later, earlier, hruns⟩ := List.append_of_mem hr
      have hsuffix : (r :: earlier) <:+ d.runs := ⟨later, hruns.symm⟩
      exact (hkept.of_suffix hsuffix).start_le_of_short hP hc fun e he =>
        hshort e (hsuffix.subset (List.mem_cons_of_mem _ he))
    · exact fun value hvalue => (hstopped value hvalue).complete
  · refine (halways.ends (runBy_ends name w₀ hc hjob)).mono ?_
    rintro _ d ⟨hkept, hstopped, -⟩
    refine ⟨hstopped.complete, fun r earlier hr hlate e he => ?_⟩
    refine (hkept.of_suffix hr).start_le_of_later hP hc hlate (fun e he w hw hafter => ?_) he
    have hcomplete := hstopped.complete e (hr.subset (List.mem_cons_of_mem _ he))
    exact hcomplete.short hjob w hw hafter

/-- A run starts two seconds after the cancellation, at the end of one that has been late. -/
theorem nextRun_starts_after_cancellation : ∃ p d,
    (runBy .headRefresh 1 (pausing 2500)).Reaches (plainTime (some 1500)).notes ⟨0, []⟩ p d ∧
    [nextRun, lateRun] <:+ d.runs ∧ 1500 < nextRun.start ∧
    ∃ w, lateRun.finish = some w ∧ nextRun.due ≤ w ∧ nextRun.start = w := by
  obtain ⟨p, hreaches⟩ := lateRun_reaches
  have hsuffix : [nextRun, lateRun] <:+ [nextRun, lateRun] := List.suffix_rfl
  have hcancelled : (plainTime (some 1500)).cancellation = some 1500 := rfl
  obtain ⟨-, hsafe, -⟩ := stops_unless_late hcancelled .headRefresh 1 (pausing 2500) 0
  obtain ⟨_, _, w, hruns, hfinish, hdue, hstart⟩ :=
    (hsafe p _ hreaches).1 nextRun [lateRun] hsuffix (by decide)
  cases hruns
  exact ⟨p, _, hreaches, hsuffix, by decide, w, hfinish, hdue, hstart⟩

end ChainIngest.Cadence
