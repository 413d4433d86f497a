import Mathlib.Data.List.Nodup
import Mathlib.Logic.ExistsUnique
import Mathlib.Logic.Function.Basic
import ChainIngest.Program
import ChainIngest.Proofs.LedgerGrowth
import ChainIngest.Proofs.Semantics

/-! Insertions at the same time. An insertion takes an identity and appends its row in two steps,
and steps of other insertions may come between them. Who has taken an identity settles which of
the insertions with this identity adds its row. -/

namespace ChainIngest

namespace Ledger

/-- The identities that are taken are those of the rows, and no two rows have one identity. -/
structure Whole (l : Ledger) : Prop where
  nodup : (l.rows.map Transfer.id).Nodup
  ids : ∀ id, id ∈ l.ids ↔ ∃ t ∈ l.rows, t.id = id

theorem whole_empty : empty.Whole := ⟨.nil, by simp [empty]⟩

theorem Whole.of_grows {before after : Ledger} (h : before.Whole)
    (H : Grows before after added) : after.Whole := by
  constructor
  case nodup =>
    rw [H.rows, List.map_append, List.nodup_append]
    refine ⟨h.nodup, H.nodup, ?_⟩
    rintro id hbefore _ hadded rfl
    obtain ⟨t, ht, rfl⟩ := List.mem_map.mp hadded
    exact H.fresh t ht ((h.ids t.id).mpr (List.mem_map.mp hbefore))
  case ids =>
    intro id
    rw [H.ids, h.ids, H.rows]
    simp only [List.mem_append, or_and_right, exists_or]

/-- A ledger that starts empty is whole whenever no insertion is under way. -/
theorem whole_insertAll (ts : List Transfer) : (empty.insertAll ts).Whole := by
  obtain ⟨_, -, hgrows⟩ := (Grows.refl empty).insertAll ts
  exact whole_empty.of_grows hgrows

/-! ### The steps of an insertion -/

/-- What an insertion asks of a ledger, one lock at a time. -/
inductive Request where
  | claim (id : TransferId)
  | append (t : Transfer)

def Request.Answer : Request → Type
  | .claim _ => Bool
  | .append _ => Unit

/-- A ledger that is asked one request at a time. -/
def Access : Interface := ⟨Request, Request.Answer⟩

/-- The answer to a request, and the ledger after it. -/
def answer (l : Ledger) : (q : Request) → q.Answer × Ledger
  | .claim id =>
    match l.claim id with
    | some claimed => (true, claimed)
    | none => (false, l)
  | .append t => ((), l.append t)

/-- Appends a row whose identity has been taken. -/
def appending (t : Transfer) : Program Access Bool :=
  .query (.append t) fun _ => .pure true

/-- Takes the identity of a row and then, if it was free, appends the row. -/
def insertion (t : Transfer) : Program Access Bool :=
  .query (.claim t.id) fun
    | true => appending t
    | false => .pure false

theorem answer_claim_of_mem {l : Ledger} {id : TransferId} (h : id ∈ l.ids) :
    l.answer (.claim id) = (false, l) := by
  have hclaim : l.claim id = none := if_pos (List.contains_iff_mem.mpr h)
  simp only [answer, hclaim]
  rfl

theorem answer_claim_of_not_mem {l : Ledger} {id : TransferId} (h : id ∉ l.ids) :
    l.answer (.claim id) = (true, ⟨id :: l.ids, l.rows⟩) := by
  have hclaim : l.claim id = some ⟨id :: l.ids, l.rows⟩ := if_neg (mt List.contains_iff_mem.mp h)
  simp only [answer, hclaim]
  rfl

/-- How a ledger that is asked by one insertion alone answers. -/
def Answers : Answering Access Ledger := fun l q a l' => l.answer q = (a, l')

/-- An insertion that no other one comes between does what `insert` does. -/
theorem insertion_runs (l : Ledger) (t : Transfer) :
    (insertion t).Runs Answers l (l.insert t).1 (l.insert t).2 := by
  by_cases h : t.id ∈ l.ids
  · rw [insert_of_mem h]
    have hrefused : Answers l (.claim t.id) false l := answer_claim_of_mem h
    exact .query hrefused .pure
  · rw [insert_of_not_mem h]
    have hclaimed : Answers l (.claim t.id) true ⟨t.id :: l.ids, l.rows⟩ :=
      answer_claim_of_not_mem h
    have happended : Answers ⟨t.id :: l.ids, l.rows⟩ (.append t) ()
        ⟨t.id :: l.ids, l.rows ++ [t]⟩ := rfl
    exact .query hclaimed (.query happended .pure)

/-! ### Insertions under way -/

/-- Insertions at the same time, each with what is left of it, and their ledger. -/
structure Insertions (ι : Type) where
  calls : ι → Program Access Bool
  ledger : Ledger

namespace Insertions

variable {ι : Type} {ts : ι → Transfer} {l : Ledger}

def start (ts : ι → Transfer) (l : Ledger) : Insertions ι := ⟨fun i => insertion (ts i), l⟩

/-- How far an insertion has come. -/
inductive Stage where
  | waiting
  /-- The identity is taken and the row is not there yet. -/
  | claimed
  | returned (added : Bool)
  deriving DecidableEq

/-- What is left of an insertion. -/
def Stage.rest (t : Transfer) : Stage → Program Access Bool
  | .waiting => insertion t
  | .claimed => appending t
  | .returned added => .pure added

/-- Whether an insertion has taken its identity. -/
def Stage.owns : Stage → Bool
  | .claimed | .returned true => true
  | .waiting | .returned false => false

/-- Steps that are left before an insertion returns. -/
def Stage.left : Stage → Nat
  | .waiting => 2
  | .claimed => 1
  | .returned _ => 0

theorem Stage.rest_eq_appending {stage : Stage} {t : Transfer} :
    stage.rest t = appending t ↔ stage = .claimed := by
  cases stage with
  | waiting =>
    refine ⟨fun h => ?_, nofun⟩
    cases (Program.query.inj h).1
  | claimed => exact ⟨fun _ => rfl, fun _ => rfl⟩
  | returned added => exact ⟨nofun, nofun⟩

theorem Stage.rest_eq_pure {stage : Stage} {t : Transfer} :
    stage.rest t = .pure added ↔ stage = .returned added := by
  cases stage with
  | waiting => exact ⟨nofun, nofun⟩
  | claimed => exact ⟨nofun, nofun⟩
  | returned => simp [rest]

theorem Stage.owns_cases {stage : Stage} (h : stage.owns = true) :
    stage = .claimed ∨ stage = .returned true := by
  cases stage with
  | waiting => cases h
  | claimed => exact .inl rfl
  | returned added => cases added with
    | false => cases h
    | true => exact .inr rfl

/-- What holds while insertions are under way, from a ledger `l₀` on. -/
structure Standing (ts : ι → Transfer) (l₀ : Ledger) (stages : ι → Stage) (l : Ledger) : Prop where
  rows : ∃ added, l.rows = l₀.rows ++ added ∧
    ∀ t, t ∈ added ↔ ∃ i, stages i = .returned true ∧ ts i = t
  nodup : (l.rows.map Transfer.id).Nodup
  ids : ∀ id, id ∈ l.ids ↔ id ∈ l₀.ids ∨ ∃ i, (stages i).owns = true ∧ (ts i).id = id
  fresh : ∀ i, (stages i).owns = true → (ts i).id ∉ l₀.ids
  unique : ∀ i j, (stages i).owns = true → (stages j).owns = true → (ts i).id = (ts j).id → i = j
  refused : ∀ i, stages i = .returned false → (ts i).id ∈ l.ids

namespace Standing

variable {l₀ : Ledger} {stages : ι → Stage} {i : ι}

theorem start (h : l₀.Whole) : Standing ts l₀ (fun _ => .waiting) l₀ where
  rows := ⟨[], by simp⟩
  nodup := h.nodup
  ids := by simp [Stage.owns]
  fresh := nofun
  unique := nofun
  refused := nofun

theorem id_mem (H : Standing ts l₀ stages l) (hwhole : l₀.Whole) (ht : t ∈ l.rows) :
    t.id ∈ l.ids := by
  obtain ⟨added, hrows, hmem⟩ := H.rows
  rw [hrows, List.mem_append] at ht
  rw [H.ids]
  rcases ht with ht | ht
  · exact .inl ((hwhole.ids _).mpr ⟨t, ht, rfl⟩)
  · obtain ⟨i, hi, rfl⟩ := (hmem t).mp ht
    exact .inr ⟨i, by rw [hi]; rfl, rfl⟩

/-- Identities without a row are those of insertions between their two steps. -/
theorem rowless_iff (H : Standing ts l₀ stages l) (hwhole : l₀.Whole) (id : TransferId) :
    (id ∈ l.ids ∧ ∀ t ∈ l.rows, t.id ≠ id) ↔ ∃ i, stages i = .claimed ∧ (ts i).id = id := by
  obtain ⟨added, hrows, hmem⟩ := H.rows
  simp only [hrows, List.mem_append]
  constructor
  · rintro ⟨hid, hrowless⟩
    rcases (H.ids id).mp hid with hold | ⟨i, howns, rfl⟩
    · obtain ⟨t, ht, heq⟩ := (hwhole.ids id).mp hold
      exact absurd heq (hrowless t (.inl ht))
    · rcases Stage.owns_cases howns with hclaimed | hadded
      · exact ⟨i, hclaimed, rfl⟩
      · exact absurd rfl (hrowless (ts i) (.inr ((hmem _).mpr ⟨i, hadded, rfl⟩)))
  · rintro ⟨i, hclaimed, rfl⟩
    have howns : (stages i).owns = true := by rw [hclaimed]; rfl
    refine ⟨(H.ids _).mpr (.inr ⟨i, howns, rfl⟩), fun t ht heq => ?_⟩
    rcases ht with ht | ht
    · exact H.fresh i howns (heq ▸ (hwhole.ids _).mpr ⟨t, ht, rfl⟩)
    · obtain ⟨j, hj, rfl⟩ := (hmem t).mp ht
      obtain rfl := H.unique j i (by rw [hj]; rfl) howns heq
      cases hj.symm.trans hclaimed

/-- Of the insertions with an identity that was free, one adds its row. -/
theorem existsUnique_added (H : Standing ts l₀ stages l) {id : TransferId} (hfree : id ∉ l₀.ids)
    (hsome : ∃ i, (ts i).id = id)
    (hreturned : ∀ i, (ts i).id = id → ∃ added, stages i = .returned added) :
    ∃! i, (ts i).id = id ∧ stages i = .returned true := by
  -- Whoever returned, the identity is taken by now, and it was not at the start.
  have htaken : id ∈ l.ids := by
    obtain ⟨i, rfl⟩ := hsome
    obtain ⟨added, hadded⟩ := hreturned i rfl
    cases added with
    | false => exact H.refused i hadded
    | true => exact (H.ids _).mpr (.inr ⟨i, by rw [hadded]; rfl, rfl⟩)
  obtain ⟨i, howns, hid⟩ := ((H.ids id).mp htaken).resolve_left hfree
  have hadded : stages i = .returned true := by
    refine (Stage.owns_cases howns).resolve_left fun hclaimed => ?_
    obtain ⟨added, hadded⟩ := hreturned i hid
    cases hadded.symm.trans hclaimed
  refine ⟨i, ⟨hid, hadded⟩, ?_⟩
  rintro j ⟨hjd, hj⟩
  exact H.unique j i (by rw [hj]; rfl) howns (hjd.trans hid.symm)

end Standing

/-! ### Steps -/

variable [DecidableEq ι]

/-- The next step of one insertion. One that has returned takes none. -/
def advance (c : Insertions ι) (i : ι) : Insertions ι :=
  match c.calls i with
  | .pure _ => c
  | .query q next =>
    let (answer, ledger) := c.ledger.answer q
    ⟨Function.update c.calls i (next answer), ledger⟩

/-- Steps of the insertions in some order. -/
def run (c : Insertions ι) (schedule : List ι) : Insertions ι := schedule.foldl advance c

/-- What was so of an insertion stays so if its last step did not change it. -/
theorem update_iff {p : Stage → Prop} {stages : ι → Stage} (h : p stage ↔ p (stages i)) (j : ι) :
    p (Function.update stages i stage j) ↔ p (stages j) := by
  by_cases hj : j = i
  · rw [hj, Function.update_self, h]
  · rw [Function.update_of_ne hj]

namespace Standing

variable {l₀ : Ledger} {stages : ι → Stage} {i : ι}

theorem refuse (H : Standing ts l₀ stages l) (hstage : stages i = .waiting)
    (hid : (ts i).id ∈ l.ids) :
    Standing ts l₀ (Function.update stages i (.returned false)) l := by
  have howns (j : ι) :
      (Function.update stages i (.returned false) j).owns = true ↔ (stages j).owns = true :=
    update_iff (p := (·.owns = true)) (by simp [hstage, Stage.owns]) j
  have hadded (j : ι) :
      Function.update stages i (.returned false) j = .returned true ↔
        stages j = .returned true :=
    update_iff (p := (· = .returned true)) (by simp [hstage]) j
  constructor
  case rows => simpa only [hadded] using H.rows
  case nodup => exact H.nodup
  case ids => simpa only [howns] using H.ids
  case fresh => simpa only [howns] using H.fresh
  case unique => simpa only [howns] using H.unique
  case refused =>
    intro j hj
    by_cases hji : j = i
    · exact hji ▸ hid
    · exact H.refused j (by rwa [Function.update_of_ne hji] at hj)

theorem claim (H : Standing ts l₀ stages l) (hstage : stages i = .waiting)
    (hid : (ts i).id ∉ l.ids) :
    Standing ts l₀ (Function.update stages i .claimed) ⟨(ts i).id :: l.ids, l.rows⟩ := by
  have howns (j : ι) :
      (Function.update stages i .claimed j).owns = true ↔ j = i ∨ (stages j).owns = true := by
    by_cases hji : j = i
    · simp [hji, Stage.owns]
    · simp [hji]
  have hreturned (added : Bool) (j : ι) :
      Function.update stages i .claimed j = .returned added ↔ stages j = .returned added :=
    update_iff (p := (· = .returned added)) (by simp [hstage]) j
  have hbefore : ∀ j, (stages j).owns = true → (ts j).id ≠ (ts i).id :=
    fun j hj heq => hid (heq ▸ (H.ids _).mpr (.inr ⟨j, hj, rfl⟩))
  constructor
  case rows => simpa only [hreturned] using H.rows
  case nodup => exact H.nodup
  case ids =>
    intro id
    simp only [List.mem_cons, H.ids, howns, or_and_right, exists_or, exists_eq_left]
    rw [or_left_comm, eq_comm]
  case fresh =>
    intro j hj
    rcases (howns j).mp hj with rfl | hj
    · exact fun h => hid ((H.ids _).mpr (.inl h))
    · exact H.fresh j hj
  case unique =>
    intro j k hj hk heq
    rcases (howns j).mp hj with rfl | hj' <;> rcases (howns k).mp hk with rfl | hk'
    · rfl
    · exact absurd heq.symm (hbefore k hk')
    · exact absurd heq (hbefore j hj')
    · exact H.unique j k hj' hk' heq
  case refused =>
    intro j hj
    exact List.mem_cons_of_mem _ (H.refused j ((hreturned false j).mp hj))

theorem append (H : Standing ts l₀ stages l) (hwhole : l₀.Whole) (hstage : stages i = .claimed) :
    Standing ts l₀ (Function.update stages i (.returned true)) (l.append (ts i)) := by
  have howns (j : ι) :
      (Function.update stages i (.returned true) j).owns = true ↔ (stages j).owns = true :=
    update_iff (p := (·.owns = true)) (by simp [hstage, Stage.owns]) j
  have hrefused (j : ι) :
      Function.update stages i (.returned true) j = .returned false ↔
        stages j = .returned false :=
    update_iff (p := (· = .returned false)) (by simp [hstage]) j
  have hadded (j : ι) :
      Function.update stages i (.returned true) j = .returned true ↔
        stages j = .returned true ∨ j = i := by
    by_cases hji : j = i
    · simp [hji]
    · simp [hji]
  have hi : (stages i).owns = true := by rw [hstage]; rfl
  obtain ⟨added, hrows, hmem⟩ := H.rows
  -- A row with this identity would be an old one, or that of another owner.
  have hnew : ∀ t ∈ l.rows, t.id ≠ (ts i).id := by
    intro t ht heq
    rw [hrows, List.mem_append] at ht
    rcases ht with ht | ht
    · exact H.fresh i hi (heq ▸ (hwhole.ids _).mpr ⟨t, ht, rfl⟩)
    · obtain ⟨j, hj, rfl⟩ := (hmem t).mp ht
      obtain rfl := H.unique j i (by rw [hj]; rfl) hi heq
      cases hj.symm.trans hstage
  constructor
  case rows =>
    refine ⟨added ++ [ts i], by simp [Ledger.append, hrows], fun t => ?_⟩
    simp only [List.mem_append, List.mem_singleton, hmem, hadded, or_and_right, exists_or,
      exists_eq_left]
    rw [eq_comm (a := t)]
  case nodup =>
    have hlast : (ts i).id ∉ l.rows.map Transfer.id := by
      simpa only [List.mem_map, not_exists, not_and] using hnew
    rw [Ledger.append, List.map_append, List.nodup_append]
    refine ⟨H.nodup, List.nodup_singleton _, fun id hid last hmem heq => hlast ?_⟩
    rwa [← List.mem_singleton.mp hmem, ← heq]
  case ids => simpa only [Ledger.append, howns] using H.ids
  case fresh => simpa only [howns] using H.fresh
  case unique => simpa only [howns] using H.unique
  case refused => simpa only [Ledger.append, hrefused] using H.refused

end Standing

/-- Insertions at these stages. -/
def atStages (ts : ι → Transfer) (stages : ι → Stage) (l : Ledger) : Insertions ι :=
  ⟨fun i => (stages i).rest (ts i), l⟩

theorem atStages_update {stages : ι → Stage} {i : ι} (stage : Stage) :
    atStages ts (Function.update stages i stage) l =
      ⟨Function.update (atStages ts stages l).calls i (stage.rest (ts i)), l⟩ := by
  unfold atStages
  congr
  funext j
  by_cases hji : j = i
  · rw [hji, Function.update_self, Function.update_self]
  · rw [Function.update_of_ne hji, Function.update_of_ne hji]

/-- A step keeps all that holds while insertions are under way, and brings the insertion whose step
it is one step further. -/
theorem Standing.advance {l₀ : Ledger} {stages : ι → Stage} (H : Standing ts l₀ stages l)
    (hwhole : l₀.Whole) (i : ι) :
    ∃ stage l', (atStages ts stages l).advance i =
        atStages ts (Function.update stages i stage) l' ∧
      Standing ts l₀ (Function.update stages i stage) l' ∧ l.rows <+: l'.rows ∧
      stage.left ≤ (stages i).left - 1 := by
  cases hstage : stages i with
  | waiting =>
    have hcall : (atStages ts stages l).calls i = insertion (ts i) := by
      simp only [atStages, hstage, Stage.rest]
    by_cases hid : (ts i).id ∈ l.ids
    · refine ⟨.returned false, l, ?_, H.refuse hstage hid, List.prefix_rfl, Nat.zero_le _⟩
      rw [atStages_update, Insertions.advance, hcall]
      simp only [insertion, atStages, answer_claim_of_mem hid, Stage.rest]
    · refine ⟨.claimed, _, ?_, H.claim hstage hid, List.prefix_rfl, Nat.le_refl _⟩
      rw [atStages_update, Insertions.advance, hcall]
      simp only [insertion, atStages, answer_claim_of_not_mem hid, Stage.rest]
  | claimed =>
    have hcall : (atStages ts stages l).calls i = appending (ts i) := by
      simp only [atStages, hstage, Stage.rest]
    refine ⟨.returned true, _, ?_, H.append hwhole hstage, List.prefix_append .., Nat.le_refl _⟩
    rw [atStages_update, Insertions.advance, hcall]
    rfl
  | returned added =>
    have hsame : Function.update stages i (.returned added) = stages := by
      rw [← hstage, Function.update_eq_self]
    refine ⟨.returned added, l, ?_, hsame.symm ▸ H, List.prefix_rfl, Nat.le_refl _⟩
    have hcall : (atStages ts stages l).calls i = .pure added := by
      simp only [atStages, hstage, Stage.rest]
    rw [hsame, Insertions.advance, hcall]

/-- What holds after some steps, and how far each insertion has come. -/
theorem Standing.run {l₀ : Ledger} {stages : ι → Stage} (H : Standing ts l₀ stages l)
    (hwhole : l₀.Whole) (schedule : List ι) :
    ∃ stages' l', (atStages ts stages l).run schedule = atStages ts stages' l' ∧
      Standing ts l₀ stages' l' ∧ l.rows <+: l'.rows ∧
      ∀ i, (stages' i).left ≤ (stages i).left - schedule.count i := by
  induction schedule generalizing stages l with
  | nil => exact ⟨stages, l, rfl, H, List.prefix_rfl, fun i => Nat.le_refl _⟩
  | cons i rest ih =>
    obtain ⟨stage, l₁, hadvance, H₁, hrows, hleft⟩ := H.advance hwhole i
    obtain ⟨stages', l', hrun, H', hrows', hleft'⟩ := ih H₁
    refine ⟨stages', l', ?_, H', hrows.trans hrows', fun j => ?_⟩
    · rw [← hrun, ← hadvance]
      rfl
    · have hrest := hleft' j
      by_cases hji : j = i
      · subst hji
        rw [Function.update_self] at hrest
        rw [List.count_cons_self]
        omega
      · rw [Function.update_of_ne hji] at hrest
        rwa [List.count_cons_of_ne (Ne.symm hji)]

/-- Insertions at the same time, their steps in any order. At every moment the rows have pairwise
different identities, all of which are taken, and the identities that are taken without a row are
those of insertions between their two steps. Rows are only ever appended, and those appended are
those of the insertions that have returned true. An insertion whose identity had been taken before
returns false; of those with an identity that was free, exactly one returns true once all have
returned, which each does with its second step. When none is between its steps, the ledger is whole
again. -/
theorem concurrent_insertions_unique {l₀ : Ledger} (hwhole : l₀.Whole) {schedule : List ι}
    {c : Insertions ι} (hrun : (start ts l₀).run schedule = c) :
    (c.ledger.rows.map Transfer.id).Nodup ∧
    (∀ t ∈ c.ledger.rows, t.id ∈ c.ledger.ids) ∧
    (∀ id, (id ∈ c.ledger.ids ∧ ∀ t ∈ c.ledger.rows, t.id ≠ id) ↔
      ∃ i, c.calls i = appending (ts i) ∧ (ts i).id = id) ∧
    (∀ more, c.ledger.rows <+: (c.run more).ledger.rows) ∧
    (∃ added, c.ledger.rows = l₀.rows ++ added ∧
      ∀ t, t ∈ added ↔ ∃ i, c.calls i = .pure true ∧ ts i = t) ∧
    (∀ i added, c.calls i = .pure added → (ts i).id ∈ l₀.ids → added = false) ∧
    (∀ id, id ∉ l₀.ids → (∃ i, (ts i).id = id) →
      (∀ i, (ts i).id = id → ∃ added, c.calls i = .pure added) →
      ∃! i, (ts i).id = id ∧ c.calls i = .pure true) ∧
    (∀ i, 2 ≤ schedule.count i → ∃ added, c.calls i = .pure added) ∧
    ((∀ i, c.calls i ≠ appending (ts i)) → c.ledger.Whole) := by
  have Hstart : Standing ts l₀ (fun _ => .waiting) l₀ := .start hwhole
  obtain ⟨stages, l, hstages, H, -, hleft⟩ := Hstart.run hwhole schedule
  obtain rfl : atStages ts stages l = c := hstages.symm.trans hrun
  have hpending (i : ι) : (atStages ts stages l).calls i = appending (ts i) ↔ stages i = .claimed :=
    Stage.rest_eq_appending
  have hreturned (i : ι) (added : Bool) :
      (atStages ts stages l).calls i = .pure added ↔ stages i = .returned added :=
    Stage.rest_eq_pure
  simp only [hpending, hreturned]
  refine ⟨H.nodup, fun t ht => H.id_mem hwhole ht, H.rowless_iff hwhole, fun more => ?grows,
    H.rows, ?taken, fun id => H.existsUnique_added, fun i hsteps => ?returns,
    fun hnone => ⟨H.nodup, fun id => ?ids⟩⟩
  case grows =>
    obtain ⟨_, l', hmore, -, hprefix, -⟩ := H.run hwhole more
    rw [hmore]
    exact hprefix
  case taken =>
    intro i added hadded hold
    by_contra htrue
    rw [Bool.not_eq_false] at htrue
    exact H.fresh i (by rw [hadded, htrue]; rfl) hold
  case returns =>
    have hnone : (stages i).left ≤ 2 - schedule.count i := hleft i
    cases hstage : stages i with
    | returned added => exact ⟨added, rfl⟩
    | _ =>
      rw [hstage] at hnone
      simp only [Stage.left] at hnone
      omega
  case ids =>
    refine ⟨fun hid => ?_, ?_⟩
    · by_contra hrowless
      obtain ⟨i, hclaimed, -⟩ := (H.rowless_iff hwhole id).mp
        ⟨hid, fun t ht heq => hrowless ⟨t, ht, heq⟩⟩
      exact hnone i ((hpending i).mpr hclaimed)
    · rintro ⟨t, ht, rfl⟩
      exact H.id_mem hwhole ht

/-- A native transfer with this position in its block. -/
def sampleTransfer (index : UInt64) : Transfer where
  block := 100
  index
  chainId := 1
  contract := Bytes.zero 20
  symbol := "ETH"
  decimals := 18
  tx := Bytes.zero 32
  sender := Bytes.zero 20
  recipient := Bytes.zero 20
  amount := 1
  timestamp := 0

/-- Two records of one transfer, and one of a transfer that is in the ledger already. -/
def sampleCalls : Fin 3 → Transfer
  | 0 | 1 => sampleTransfer 1
  | 2 => sampleTransfer 0

def sampleStart : Insertions (Fin 3) := start sampleCalls (empty.insertAll [sampleTransfer 0])

/-- The second record is refused while the first one is between its steps. -/
theorem sample_insertions :
    (∃! i, (sampleCalls i).id = (sampleTransfer 1).id ∧
      (sampleStart.run [0, 1, 2, 0, 1, 2]).calls i = .pure true) ∧
    (sampleStart.run [0, 1, 2, 0, 1, 2]).calls 2 = .pure false := by
  obtain ⟨-, -, -, -, -, htaken, hfree, hreturns, -⟩ :=
    @concurrent_insertions_unique _ sampleCalls _ _ (whole_insertAll [sampleTransfer 0])
      [0, 1, 2, 0, 1, 2] _ rfl
  have hsteps : ∀ i : Fin 3, 2 ≤ [0, 1, 2, 0, 1, 2].count i := by decide
  refine ⟨hfree _ (by decide) ⟨0, rfl⟩ fun i _ => hreturns i (hsteps i), ?_⟩
  obtain ⟨added, hadded⟩ := hreturns 2 (hsteps 2)
  obtain rfl := htaken 2 added hadded (by decide)
  exact hadded

end Insertions

end Ledger

end ChainIngest
