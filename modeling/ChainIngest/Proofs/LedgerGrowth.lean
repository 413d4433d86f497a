import ChainIngest.Ledger

/-! How a ledger grows: records are inserted one after another, and those whose identity is taken
are dropped. -/

namespace ChainIngest

namespace Ledger

/-- The ledger after some records have been inserted in their order. -/
def insertAll (l : Ledger) (ts : List Transfer) : Ledger :=
  ts.foldl (fun l t => (l.insert t).2) l

@[simp] theorem insertAll_nil (l : Ledger) : l.insertAll [] = l := rfl

@[simp] theorem insertAll_cons (l : Ledger) (t : Transfer) (ts : List Transfer) :
    l.insertAll (t :: ts) = (l.insert t).2.insertAll ts := rfl

theorem insertAll_append (l : Ledger) (ts us : List Transfer) :
    l.insertAll (ts ++ us) = (l.insertAll ts).insertAll us :=
  List.foldl_append

/-- The rows that `after` has more than `before`. They come last, and their identities are new and
pairwise different. -/
structure Grows (before after : Ledger) (added : List Transfer) : Prop where
  rows : after.rows = before.rows ++ added
  ids : ∀ id, id ∈ after.ids ↔ id ∈ before.ids ∨ ∃ t ∈ added, t.id = id
  nodup : (added.map Transfer.id).Nodup
  fresh : ∀ t ∈ added, t.id ∉ before.ids

theorem insert_of_mem {l : Ledger} (h : t.id ∈ l.ids) : l.insert t = (false, l) := by
  simp [insert, claim, h]

theorem insert_of_not_mem {l : Ledger} (h : t.id ∉ l.ids) :
    l.insert t = (true, ⟨t.id :: l.ids, l.rows ++ [t]⟩) := by
  simp [insert, claim, append, h]

/-- Records that are all in the ledger already are dropped. -/
theorem insertAll_of_mem {l : Ledger} (h : ∀ t ∈ ts, t.id ∈ l.ids) : l.insertAll ts = l := by
  induction ts with
  | nil => rfl
  | cons t rest ih =>
    rw [insertAll_cons, insert_of_mem (h t List.mem_cons_self)]
    exact ih fun u hu => h u (List.mem_cons_of_mem t hu)

/-- A record that is inserted counts one if and only if it adds a row. -/
theorem length_rows_insert (l : Ledger) (t : Transfer) :
    (l.insert t).2.rows.length = l.rows.length + if (l.insert t).1 then 1 else 0 := by
  by_cases h : t.id ∈ l.ids
  · simp [insert_of_mem h]
  · simp [insert_of_not_mem h]

namespace Grows

theorem refl (l : Ledger) : Grows l l [] := ⟨by simp, by simp, by simp, by simp⟩

theorem insert_of_mem {before after : Ledger} (H : Grows before after added)
    (h : t.id ∈ after.ids) : Grows before (after.insert t).2 added := by
  rw [Ledger.insert_of_mem h]
  exact H

theorem insert_of_not_mem {before after : Ledger} (H : Grows before after added)
    (h : t.id ∉ after.ids) : Grows before (after.insert t).2 (added ++ [t]) := by
  rw [Ledger.insert_of_not_mem h]
  obtain ⟨hbefore, hadded⟩ := not_or.mp (mt (H.ids t.id).mpr h)
  refine ⟨by simp [H.rows], fun id => ?_, ?_, ?_⟩
  · rw [List.mem_cons, H.ids]
    grind
  · rw [List.map_append, List.nodup_append]
    refine ⟨H.nodup, by simp, ?_⟩
    simpa using hadded
  · intro u hu
    rcases List.mem_append.mp hu with hu | hu
    · exact H.fresh u hu
    · rw [List.mem_singleton.mp hu]
      exact hbefore

/-- Of the records that are inserted, those with new identities are added in their order. -/
theorem insertAll {before after : Ledger} (H : Grows before after added) (ts : List Transfer) :
    ∃ more, more.Sublist ts ∧ Grows before (after.insertAll ts) (added ++ more) := by
  induction ts generalizing after added with
  | nil => exact ⟨[], List.Sublist.slnil, by simpa using H⟩
  | cons t ts ih =>
    by_cases h : t.id ∈ after.ids
    · obtain ⟨more, hsub, hmore⟩ := ih (H.insert_of_mem h)
      exact ⟨more, hsub.cons t, hmore⟩
    · obtain ⟨more, hsub, hmore⟩ := ih (H.insert_of_not_mem h)
      exact ⟨t :: more, hsub.cons_cons t, by simpa using hmore⟩

/-- The rows that are added are those whose identities are new. -/
theorem mem_added_iff {before after : Ledger} {added : List Transfer}
    (H : Grows before after added) (id : TransferId) :
    (∃ t ∈ added, t.id = id) ↔ id ∈ after.ids ∧ id ∉ before.ids := by
  constructor
  · rintro ⟨t, ht, rfl⟩
    exact ⟨(H.ids t.id).mpr (.inr ⟨t, ht, rfl⟩), H.fresh t ht⟩
  · rintro ⟨hafter, hbefore⟩
    exact ((H.ids id).mp hafter).resolve_left hbefore

/-- The rows are those that have been there, and those whose identities are new. -/
theorem exists_row_iff {before after : Ledger} {added : List Transfer}
    (H : Grows before after added) (id : TransferId) :
    (∃ t ∈ after.rows, t.id = id) ↔
      (∃ t ∈ before.rows, t.id = id) ∨ id ∈ after.ids ∧ id ∉ before.ids := by
  rw [← H.mem_added_iff, H.rows]
  simp only [List.mem_append, or_and_right, exists_or]

/-- How many rows are added is a matter of the identities. -/
theorem length_eq {before after after' : Ledger} {added added' : List Transfer}
    (H : Grows before after added) (H' : Grows before after' added')
    (hids : ∀ id, id ∈ after.ids ↔ id ∈ after'.ids) : added.length = added'.length := by
  have hmem (id : TransferId) : id ∈ added.map Transfer.id ↔ id ∈ added'.map Transfer.id := by
    rw [List.mem_map, List.mem_map, H.mem_added_iff, H'.mem_added_iff, hids]
  have hperm := (List.perm_ext_iff_of_nodup H.nodup H'.nodup).mpr hmem
  simpa using hperm.length_eq

end Grows

theorem mem_ids_insert {l : Ledger} {id : TransferId} :
    id ∈ (l.insert t).2.ids ↔ id ∈ l.ids ∨ t.id = id := by
  by_cases h : t.id ∈ l.ids
  · rw [insert_of_mem h]
    exact ⟨.inl, fun hid => hid.elim (·) (· ▸ h)⟩
  · rw [insert_of_not_mem h, List.mem_cons, or_comm, eq_comm]

theorem mem_ids_insertAll {l : Ledger} {id : TransferId} {ts : List Transfer} :
    id ∈ (l.insertAll ts).ids ↔ id ∈ l.ids ∨ ∃ t ∈ ts, t.id = id := by
  induction ts generalizing l with
  | nil => simp
  | cons t ts ih => simp [ih, mem_ids_insert, or_assoc]

theorem mem_ids_insertAll_of_mem {l : Ledger} {id : TransferId} (h : id ∈ l.ids)
    (ts : List Transfer) :
    id ∈ (l.insertAll ts).ids :=
  mem_ids_insertAll.mpr (.inl h)

end Ledger

end ChainIngest
