import Mathlib.Algebra.BigOperators.Group.Finset.Piecewise
import ChainIngest.Proofs.LedgerGrowth
import ChainIngest.Proofs.Outages

/-! What callers do to the store, noted down beside the surroundings: the checkpoints that are there
and the rows of the ledger are accounted for by who has asked what. A party that cannot tell two
states from each other does the same in both, but that a record may be new in one of them only. -/

namespace ChainIngest

open Engine (Concur Failed)

/-- The identities of records that were to be inserted, new or not; the checkpoints that were read
or written; and how many rows were added. -/
structure Deeds where
  ids : List TransferId
  keys : List String
  added : Nat

namespace Deeds

def none : Deeds := ⟨[], [], 0⟩

/-- What a query does. A call that fails does nothing. -/
def of : (q : Engine.Query) → Engine.Answer q → Deeds
  | .readCheckpoint key _, .ok _ => ⟨[], [key], 0⟩
  | .writeCheckpoint key _, .ok _ => ⟨[], [key], 0⟩
  | .insertTransfer t, .ok isNew => ⟨[t.id], [], if isNew then 1 else 0⟩
  | _, _ => none

def and (d d' : Deeds) : Deeds := ⟨d.ids ++ d'.ids, d.keys ++ d'.keys, d.added + d'.added⟩

/-- Two callers have done the same, whatever was new to the ledger. -/
structure Same (d d' : Deeds) : Prop where
  ids : d.ids = d'.ids
  keys : d.keys = d'.keys

variable {d d' e e' : Deeds} {q : Engine.Query} {answer answer' : Engine.Answer q}

theorem Same.trans (H : d.Same d') (H' : d'.Same e) : d.Same e :=
  ⟨H.ids.trans H'.ids, H.keys.trans H'.keys⟩

theorem Same.and (H : d.Same d') (H' : e.Same e') : (d.and e).Same (d'.and e') where
  ids := by rw [Deeds.and, Deeds.and, H.ids, H'.ids]
  keys := by rw [Deeds.and, Deeds.and, H.keys, H'.keys]

theorem of_failed (h : Failed q answer) : of q answer = none := by
  obtain ⟨fault, hfault⟩ := h
  cases q with
  | readCheckpoint | writeCheckpoint | insertTransfer =>
    obtain rfl := Option.some.inj hfault
    rfl
  | _ => rfl

theorem of_concur (h : Concur q answer answer') : (of q answer).Same (of q answer') := by
  cases q with
  | insertTransfer t =>
    cases answer with
    | error fault =>
      cases answer' with
      | error fault' => exact ⟨rfl, rfl⟩
      | ok isNew => cases h
    | ok isNew =>
      cases answer' with
      | error fault' => cases h
      | ok isNew' => exact ⟨rfl, rfl⟩
  | _ =>
    obtain rfl := h
    exact ⟨rfl, rfl⟩

end Deeds

namespace Surroundings

variable {w w' : Surroundings} {q : Engine.Query} {answer : Engine.Answer q}

/-- A checkpoint is there once it has been read or written. -/
theorem Answers.isSome_get? (h : w.Answers q answer w') (key : String) :
    (w'.store.checkpoints.get? key).isSome ↔
      (w.store.checkpoints.get? key).isSome ∨ key ∈ (Deeds.of q answer).keys := by
  have hidle (hsame : w'.store.checkpoints = w.store.checkpoints)
      (hnone : (Deeds.of q answer).keys = []) :
      (w'.store.checkpoints.get? key).isSome ↔
        (w.store.checkpoints.get? key).isSome ∨ key ∈ (Deeds.of q answer).keys := by
    rw [hsame, hnone]
    exact (or_iff_left List.not_mem_nil).symm
  have hkey {k : String} (hself : key = k → (w'.store.checkpoints.get? key).isSome)
      (hother : key ≠ k → w'.store.checkpoints.get? key = w.store.checkpoints.get? key)
      (hkeys : (Deeds.of q answer).keys = [k]) :
      (w'.store.checkpoints.get? key).isSome ↔
        (w.store.checkpoints.get? key).isSome ∨ key ∈ (Deeds.of q answer).keys := by
    rw [hkeys, List.mem_singleton]
    by_cases heq : key = k
    · exact iff_of_true (hself heq) (.inr heq)
    · rw [hother heq]
      exact (or_iff_left heq).symm
  cases q with
  | readCheckpoint k text =>
    obtain ⟨rfl, rfl⟩ := h
    refine hkey (fun heq => ?_) Checkpoints.get?_getOrCreate_of_ne rfl
    subst heq
    exact Option.isSome_of_eq_some (Checkpoints.get?_getOrCreate_self w.store.checkpoints key text)
  | writeCheckpoint k text =>
    obtain ⟨rfl, rfl⟩ := h
    have hget := Checkpoints.get?_put w.store.checkpoints k text key
    refine hkey (fun heq => ?_) (fun hne => hget.trans (if_neg hne)) rfl
    exact Option.isSome_of_eq_some (hget.trans (if_pos heq))
  | insertTransfer | insertSnapshot | latestSnapshot | whitelist | headHeight | block | blockTime
  | transferLogs | tokenDecimals | oracleAnswer | poolPrice | acquire | tryAcquire | isCancelled =>
    obtain ⟨-, rfl⟩ := h
    exact hidle rfl (by cases answer <;> rfl)
  | _ =>
    obtain rfl := h
    exact hidle rfl rfl

/-- The ledger changes by the records that are inserted, and by nothing else. -/
theorem Answers.ledger (h : w.Answers q answer w') :
    (w'.store.ledger = w.store.ledger ∧ (Deeds.of q answer).ids = [] ∧
      (Deeds.of q answer).added = 0) ∨
    ∃ t, w'.store.ledger = (w.store.ledger.insert t).2 ∧ (Deeds.of q answer).ids = [t.id] ∧
      (Deeds.of q answer).added = if (w.store.ledger.insert t).1 then 1 else 0 := by
  cases q with
  | insertTransfer t =>
    obtain ⟨rfl, rfl⟩ := h
    exact .inr ⟨t, rfl, rfl, rfl⟩
  | readCheckpoint | writeCheckpoint | insertSnapshot | latestSnapshot | whitelist | headHeight
  | block | blockTime | transferLogs | tokenDecimals | oracleAnswer | poolPrice | acquire
  | tryAcquire | isCancelled =>
    obtain ⟨-, rfl⟩ := h
    exact .inl ⟨rfl, by cases answer <;> rfl, by cases answer <;> rfl⟩
  | _ =>
    obtain rfl := h
    exact .inl ⟨rfl, rfl, rfl⟩

/-- An identity is in the ledger once a record of it was to be inserted. -/
theorem Answers.mem_ids (h : w.Answers q answer w') (id : TransferId) :
    id ∈ w'.store.ledger.ids ↔ id ∈ w.store.ledger.ids ∨ id ∈ (Deeds.of q answer).ids := by
  rcases h.ledger with ⟨hledger, hids, -⟩ | ⟨t, hledger, hids, -⟩
  · rw [hledger, hids]
    exact (or_iff_left List.not_mem_nil).symm
  · rw [hledger, hids, Ledger.mem_ids_insert, List.mem_singleton]
    exact or_congr_right eq_comm

/-- A ledger that has grown by some rows grows by those that are added. -/
theorem Answers.grows {before : Ledger} {rows : List Transfer} (h : w.Answers q answer w')
    (hgrows : before.Grows w.store.ledger rows) :
    ∃ more, before.Grows w'.store.ledger (rows ++ more) ∧
      more.length = (Deeds.of q answer).added := by
  rcases h.ledger with ⟨hledger, -, hadded⟩ | ⟨t, hledger, -, hadded⟩
  · rw [hledger, hadded]
    exact ⟨[], by rwa [List.append_nil], rfl⟩
  · rw [hledger, hadded]
    by_cases hmem : t.id ∈ w.store.ledger.ids
    · refine ⟨[], by simpa using hgrows.insert_of_mem hmem, ?_⟩
      rw [Ledger.insert_of_mem hmem]
      rfl
    · refine ⟨[t], hgrows.insert_of_not_mem hmem, ?_⟩
      rw [Ledger.insert_of_not_mem hmem]
      rfl

/-- The ledger has as many rows more as are added. -/
theorem Answers.length_rows (h : w.Answers q answer w') :
    w'.store.ledger.rows.length = w.store.ledger.rows.length + (Deeds.of q answer).added := by
  obtain ⟨more, hgrows, hlength⟩ := h.grows (.refl w.store.ledger)
  rw [hgrows.rows, List.nil_append, List.length_append, hlength]

end Surroundings

/-- A watched state, with what each caller has done. -/
structure Noted where
  watched : Watched
  deeds : Caller → Deeds

namespace Noted

/-- Before anything has been asked. -/
def start (w : Surroundings) : Noted := ⟨.start w, fun _ => .none⟩

def parts : Parts Noted where
  Name := Watched.parts.Name ⊕ Caller
  Content
    | .inl x => Watched.parts.Content x
    | .inr _ => Deeds
  content
    | .inl x, st => Watched.parts.content x st.watched
    | .inr i, st => st.deeds i

end Noted

namespace Outages

/-- How queries are answered while what callers do is noted down. -/
def Notes (F : Outages) : Answering (Engine.By Caller) Noted := fun st q answer st' =>
  F.Answers st.watched q answer st'.watched ∧
    st'.deeds = Function.update st.deeds q.1 ((Deeds.of q.2 answer).and (st.deeds q.1))

variable {F : Outages} {st st' : Noted} {i : Caller} {q : Engine.Query} {answer : Engine.Answer q}

theorem notes_views : Process.Views F.Notes F.Answers Noted.watched where
  answers h := h.1
  noted h := ⟨⟨_, _⟩, ⟨h, rfl⟩, rfl⟩

theorem notes_views_of (i : Caller) :
    Process.Views (F.Notes.of i) (F.Answers.of i) Noted.watched :=
  ⟨notes_views.answers, notes_views.noted⟩

theorem deeds_of_notes (h : F.Notes.of i st q answer st') :
    st'.deeds i = (Deeds.of q answer).and (st.deeds i) := by
  rw [h.2]
  exact Function.update_self ..

theorem deeds_of_notes_of_ne {j : Caller} (h : F.Notes.of i st q answer st') (hne : j ≠ i) :
    st'.deeds j = st.deeds j := by
  rw [h.2]
  exact Function.update_of_ne hne ..

/-- A query is answered by the surroundings, or the call has failed and nothing has changed. -/
theorem answered_or_failed (h : F.Answers.of i st.watched q answer st'.watched) :
    st.watched.world.Answers q answer st'.watched.world ∨
      st'.watched.world = st.watched.world ∧ Failed q answer := by
  rcases h with ⟨hfailure, hafter⟩ | ⟨-, w, hanswer, hafter⟩
  · rw [hafter]
    exact .inr ⟨rfl, F.failed_of_failure? hfailure⟩
  · rw [hafter]
    exact .inl hanswer

end Outages

/-! ### What has been done is accounted for -/

/-- Every checkpoint that is there, every identity and every row has been there from the beginning
or is some caller's doing. -/
structure Noted.Accounted (w₀ : Surroundings) (st : Noted) : Prop where
  keys : ∀ key, (st.watched.world.store.checkpoints.get? key).isSome ↔
    (w₀.store.checkpoints.get? key).isSome ∨ ∃ i, key ∈ (st.deeds i).keys
  ids : ∀ id, id ∈ st.watched.world.store.ledger.ids ↔
    id ∈ w₀.store.ledger.ids ∨ ∃ i, id ∈ (st.deeds i).ids
  rows : ∃ rows, w₀.store.ledger.Grows st.watched.world.store.ledger rows ∧
    ∀ callers : Finset Caller, (∀ i ∉ callers, (st.deeds i).added = 0) →
      rows.length = ∑ i ∈ callers, (st.deeds i).added

namespace Noted.Accounted

variable {F : Outages} {w₀ : Surroundings} {st st' : Noted} {i : Caller}

theorem start : Accounted w₀ (Noted.start w₀) where
  keys key := (or_iff_left (by simp [Noted.start, Deeds.none])).symm
  ids id := (or_iff_left (by simp [Noted.start, Deeds.none])).symm
  rows := ⟨[], .refl _, fun callers _ => by simp [Noted.start, Deeds.none]⟩

/-- What some caller has done, after one of them has done something more. -/
theorem exists_mem_update {α : Type} {deeds deeds' : Caller → Deeds} {d : Deeds}
    (part : Deeds → List α) (hand : ∀ d d', part (d.and d') = part d ++ part d')
    (h : deeds' = Function.update deeds i (d.and (deeds i))) (x : α) :
    (∃ j, x ∈ part (deeds' j)) ↔ (∃ j, x ∈ part (deeds j)) ∨ x ∈ part d := by
  subst h
  constructor
  · rintro ⟨j, hj⟩
    by_cases hji : j = i
    · subst hji
      rw [Function.update_self, hand, List.mem_append] at hj
      exact hj.symm.imp_left fun hmem => ⟨j, hmem⟩
    · rw [Function.update_of_ne hji] at hj
      exact .inl ⟨j, hj⟩
  · rintro (⟨j, hj⟩ | hx)
    · by_cases hji : j = i
      · subst hji
        refine ⟨j, ?_⟩
        rw [Function.update_self, hand]
        exact List.mem_append_right _ hj
      · exact ⟨j, by rwa [Function.update_of_ne hji]⟩
    · refine ⟨i, ?_⟩
      rw [Function.update_self, hand]
      exact List.mem_append_left _ hx

/-- The rows that all callers have added, after one of them has added some more. -/
theorem sum_added_update {deeds deeds' : Caller → Deeds} {d : Deeds}
    (h : deeds' = Function.update deeds i (d.and (deeds i))) {callers : Finset Caller}
    (hrest : ∀ j ∉ callers, (deeds' j).added = 0) :
    (∀ j ∉ callers, (deeds j).added = 0) ∧
      ∑ j ∈ callers, (deeds' j).added = ∑ j ∈ callers, (deeds j).added + d.added := by
  have hadded : (fun j => (deeds' j).added) =
      Function.update (fun j => (deeds j).added) i (d.added + (deeds i).added) := by
    subst h
    exact Function.comp_update Deeds.added deeds i _
  by_cases hi : i ∈ callers
  · refine ⟨fun j hj => ?_, ?_⟩
    · have hne : j ≠ i := fun hji => hj (hji ▸ hi)
      have hsame : (deeds' j).added = (deeds j).added :=
        (congrFun hadded j).trans (Function.update_of_ne hne ..)
      exact hsame.symm.trans (hrest j hj)
    · have hsplit := Finset.sum_update_of_mem hi (fun j => (deeds j).added)
        (d.added + (deeds i).added)
      have hwhole := Finset.sum_update_of_mem hi (fun j => (deeds j).added) (deeds i).added
      rw [Function.update_eq_self] at hwhole
      rw [hadded, hsplit, hwhole]
      omega
  · -- Whoever is not counted has added nothing, neither before nor now.
    have hzero : d.added + (deeds i).added = 0 :=
      ((congrFun hadded i).trans (Function.update_self ..)).symm.trans (hrest i hi)
    obtain ⟨hd, hbefore⟩ := Nat.add_eq_zero_iff.mp hzero
    have hsame : (fun j => (deeds' j).added) = fun j => (deeds j).added := by
      rw [hadded, hd, Nat.zero_add]
      exact Function.update_eq_self ..
    refine ⟨fun j hj => (congrFun hsame j).symm.trans (hrest j hj), ?_⟩
    rw [hsame, hd, Nat.add_zero]

/-- Whatever is asked, accounts are kept. -/
theorem notes {q : (Engine.By Caller).Query} {answer : (Engine.By Caller).Answer q}
    (H : Accounted w₀ st) (h : F.Notes st q answer st') : Accounted w₀ st' := by
  obtain ⟨hanswer, hdeeds⟩ := h
  have hkeys := exists_mem_update Deeds.keys (fun _ _ => rfl) hdeeds
  have hids := exists_mem_update Deeds.ids (fun _ _ => rfl) hdeeds
  -- A call that has failed has done nothing that would have to be accounted for.
  rcases Outages.answered_or_failed hanswer with hanswered | ⟨hsame, hfailed⟩
  · obtain ⟨rows, hgrows, hsum⟩ := H.rows
    obtain ⟨more, hmore, hlength⟩ := hanswered.grows hgrows
    refine ⟨fun key => ?_, fun id => ?_, rows ++ more, hmore, fun callers hrest => ?_⟩
    · rw [hanswered.isSome_get?, H.keys, hkeys, or_assoc]
    · rw [hanswered.mem_ids, H.ids, hids, or_assoc]
    · obtain ⟨hbefore, hafter⟩ := sum_added_update hdeeds hrest
      rw [hafter, List.length_append, hlength, hsum callers hbefore]
  · have hnothing : Deeds.of q.2 answer = .none := Deeds.of_failed hfailed
    obtain ⟨rows, hgrows, hsum⟩ := H.rows
    refine ⟨fun key => ?_, fun id => ?_, rows, hsame ▸ hgrows, fun callers hrest => ?_⟩
    · rw [hsame, H.keys, hkeys, hnothing]
      simp [Deeds.none]
    · rw [hsame, H.ids, hids, hnothing]
      simp [Deeds.none]
    · obtain ⟨hbefore, hafter⟩ := sum_added_update hdeeds hrest
      rw [hafter, hnothing, hsum callers hbefore]
      rfl

end Noted.Accounted

/-! ### Parties of which it is noted down what they do -/

namespace Party

variable {p p' : Party} {F : Outages} {st st' st₁ st₂ : Noted} {α : Type}

/-- What a party reads and writes, with what is noted down of it. -/
def noting (p : Party) : Footprint Noted.parts where
  reads x := x.elim p.footprint.reads (· = p.caller)
  writes x := x.elim p.footprint.writes (· = p.caller)

theorem spares_noting (h : p.footprint.Spares p'.footprint) : p.noting.Spares p'.noting := by
  intro x hwrites hreads
  cases x with
  | inl x => exact h x hwrites hreads
  | inr i => exact h (.inr i) hwrites hreads

/-- The pact of a party while it is noted down what everyone does. -/
def notedPact (p : Party) (F : Outages) : Pact Engine Noted := p.noting.pact (F.Notes.of p.caller)

/-- The states between which a party cannot tell, and in which it has done the same. -/
structure AlikeIn (p : Party) (st st' : Noted) : Prop where
  like : p.Like st.watched st'.watched
  same : (st.deeds p.caller).Same (st'.deeds p.caller)

theorem agree_noting_iff : Noted.parts.Agree p.noting.reads st st' ↔
    p.Like st.watched st'.watched ∧ st.deeds p.caller = st'.deeds p.caller := by
  constructor
  · intro H
    exact ⟨fun x hx => H (.inl x) hx, H (.inr p.caller) (Eq.refl _)⟩
  · intro H
    obtain ⟨hlike, hdeeds⟩ := H
    intro x hx
    cases x with
    | inl x => exact hlike x hx
    | inr i =>
      obtain rfl : i = p.caller := hx
      exact hdeeds

theorem AlikeIn.congr (H : p.AlikeIn st st₁) (h : Noted.parts.Agree p.noting.reads st₁ st₂) :
    p.AlikeIn st st₂ := by
  obtain ⟨hlike, hdeeds⟩ := agree_noting_iff.mp h
  exact ⟨H.like.trans hlike, hdeeds ▸ H.same⟩

theorem AlikeIn.symm (H : p.AlikeIn st st') : p.AlikeIn st' st :=
  ⟨H.like.symm, H.same.ids.symm, H.same.keys.symm⟩

theorem abides_noted {prog : Program Engine α} {post : α → Watched → Prop}
    (H : prog.Abides (p.pact F) post st.watched) :
    prog.Abides (p.notedPact F) (fun value st' => post value st'.watched) st := by
  have hviews : Process.Views (p.notedPact F).answers (p.pact F).answers Noted.watched :=
    Outages.notes_views_of p.caller
  refine H.of_view hviews ?_ ?_ id
  · exact fun h => (agree_noting_iff.mp h).1
  · intro st q answer st' hnotes hkept x hx
    cases x with
    | inl x => exact hkept x hx
    | inr i => exact (Outages.deeds_of_notes_of_ne hnotes hx).symm

/-- Programs that go the same way come to what is alike, and have done the same. -/
theorem runs_alike {R : α → α → Prop} {prog prog' : Program Engine α} {value value' : α}
    (H : prog.Alike p.asks True R prog') (hlike : p.AlikeIn st₁ st₂)
    (hrun : prog.Runs (p.notedPact F).among st₁ value st)
    (hrun' : prog'.Runs (p.notedPact F).among st₂ value' st') :
    R value value' ∧ p.AlikeIn st st' := by
  have hshift {s s' t t' : Noted} (h : p.AlikeIn s s') (hrely : (p.notedPact F).rely s t)
      (hrely' : (p.notedPact F).rely s' t') : p.AlikeIn t t' :=
    ((h.congr hrely').symm.congr hrely).symm
  refine H.runs ?_ ?_ hlike hrun hrun'
  · intro s s' q a a' t t' hq h hanswered hanswered'
    obtain ⟨s₁, hrely, hanswer⟩ := hanswered
    obtain ⟨s₁', hrely', hanswer'⟩ := hanswered'
    have hbefore := hshift h hrely hrely'
    obtain ⟨hconcur, hafter⟩ := answers_alike hq hbefore.like hanswer.1 hanswer'.1
    refine ⟨hconcur, hafter, ?_⟩
    rw [Outages.deeds_of_notes hanswer, Outages.deeds_of_notes hanswer']
    exact (Deeds.of_concur hconcur).and hbefore.same
  · intro s s' notice notice' a a' t t' h hanswered hanswered'
    obtain ⟨s₁, hrely, hanswer⟩ := hanswered
    obtain ⟨s₁', hrely', hanswer'⟩ := hanswered'
    have hbefore := hshift h hrely hrely'
    refine ⟨tells_alike hbefore.like hanswer.1 hanswer'.1, ?_⟩
    rw [Outages.deeds_of_notes hanswer, Outages.deeds_of_notes hanswer']
    exact Deeds.Same.and ⟨rfl, rfl⟩ hbefore.same

/-- Whatever a program comes to in one run, it comes to the like of it in all of them; what it has
done then is as `K` says if it is so after every run. -/
theorem fulfils_alike {R : α → α → Prop} {prog : Program Engine α} {post : α → Watched → Prop}
    {K : α → Deeds → Prop} (H : prog.Alike p.asks True R prog)
    (habides : prog.Abides (p.pact F) post st.watched)
    (hdeeds : ∀ value st', prog.Runs (p.notedPact F).among st value st' →
      K value (st'.deeds p.caller)) :
    ∃ last, Process.Fulfils (F.Notes.of p.caller) p.noting
      (fun value st' => p.AlikeIn last st' ∧ K value (st'.deeds p.caller)) (.run prog) st := by
  have hnoted := abides_noted habides
  obtain ⟨value, last, hrun, -⟩ := hnoted.exists_runs trivial
  refine ⟨last, .run ?_ (hnoted.imp_of_runs fun value' st' hrun' _ => ?_)⟩
  · intro value' st₁ st₂ hpost hrely
    obtain ⟨halike, hK⟩ := hpost
    exact ⟨halike.congr hrely, (agree_noting_iff.mp hrely).2 ▸ hK⟩
  · have hself : p.AlikeIn st st := ⟨.refl _, rfl, rfl⟩
    exact ⟨(runs_alike H hself hrun hrun').2, hdeeds value' st' hrun'⟩

end Party

end ChainIngest
