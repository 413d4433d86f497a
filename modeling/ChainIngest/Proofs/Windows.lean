import ChainIngest.Scraper

/-! Which blocks a window covers, and how windows follow one another: a window begins at or before
the block that the window before it ended at, so nothing is left out between them. -/

namespace ChainIngest

namespace Height

theorem toNat_le_top (a : UInt64) : a.toNat ≤ UInt64.size - 1 := Nat.le_sub_one_of_lt a.toNat_lt

@[simp] theorem toNat_subFloored (a b : UInt64) : (subFloored a b).toNat = a.toNat - b.toNat := by
  unfold subFloored
  split
  · next h => exact UInt64.toNat_sub_of_le _ _ h
  · next h =>
    rw [UInt64.not_le, UInt64.lt_iff_toNat_lt] at h
    simp only [UInt64.toNat_zero]
    omega

@[simp] theorem toNat_addCapped (a b : UInt64) :
    (addCapped a b).toNat = min (a.toNat + b.toNat) (UInt64.size - 1) := by
  unfold addCapped
  split
  · next h =>
    rw [UInt64.toNat_add, Nat.mod_eq_of_lt h]
    omega
  · next h =>
    rw [top, UInt64.toNat_ofNat', Nat.mod_eq_of_lt (by decide)]
    omega

@[simp] theorem toNat_min (a b : UInt64) : (min a b).toNat = min a.toNat b.toNat := by
  rw [show min a b = if a ≤ b then a else b from rfl, Nat.min_def]
  simp only [UInt64.le_iff_toNat_le]
  split <;> rfl

@[simp] theorem toNat_max (a b : UInt64) : (max a b).toNat = max a.toNat b.toNat := by
  rw [show max a b = if a ≤ b then b else a from rfl, Nat.max_def]
  simp only [UInt64.le_iff_toNat_le]
  split <;> rfl

theorem le_max_left (a b : UInt64) : a ≤ max a b := by
  rw [UInt64.le_iff_toNat_le, toNat_max]
  exact Nat.le_max_left ..

theorem le_max_right (a b : UInt64) : b ≤ max a b := by
  rw [UInt64.le_iff_toNat_le, toNat_max]
  exact Nat.le_max_right ..

theorem max_eq_left {a b : UInt64} (h : b ≤ a) : max a b = a := by
  rw [UInt64.le_iff_toNat_le] at h
  rw [← UInt64.toNat_inj, toNat_max, Nat.max_eq_left h]

theorem max_eq_right {a b : UInt64} (h : a ≤ b) : max a b = b := by
  rw [UInt64.le_iff_toNat_le] at h
  rw [← UInt64.toNat_inj, toNat_max, Nat.max_eq_right h]

theorem subFloored_le (a b : UInt64) : subFloored a b ≤ a := by
  rw [UInt64.le_iff_toNat_le, toNat_subFloored]
  omega

theorem subFloored_mono {a a' : UInt64} (h : a ≤ a') (b : UInt64) :
    subFloored a b ≤ subFloored a' b := by
  rw [UInt64.le_iff_toNat_le] at h ⊢
  simp only [toNat_subFloored]
  omega

end Height

/-- Whether scans up to block `last` look at a block. -/
def Asset.Reaches : Asset → (last block : UInt64) → Prop
  | .native, last, block => block < last
  | .token _, last, block => block ≤ last

instance (a : Asset) (last block : UInt64) : Decidable (a.Reaches last block) :=
  match a with
  | .native => inferInstanceAs (Decidable (block < last))
  | .token _ => inferInstanceAs (Decidable (block ≤ last))

namespace Asset.Reaches

variable {a : Asset} {last last' block : UInt64}

theorem le (H : a.Reaches last block) : block ≤ last := by
  cases a with
  | native => exact UInt64.le_of_lt H
  | token => exact H

theorem of_lt (h : block < last) : a.Reaches last block := by
  cases a with
  | native => exact h
  | token => exact UInt64.le_of_lt h

theorem mono (H : a.Reaches last block) (h : last ≤ last') : a.Reaches last' block := by
  cases a with
  | native => exact UInt64.lt_of_lt_of_le H h
  | token => exact UInt64.le_trans H h

end Asset.Reaches

namespace Window

variable {c overlap range head block : UInt64} {a : Asset}

/-- The blocks that a scan of the window looks at. -/
def Covers (w : Window) (a : Asset) (block : UInt64) : Prop :=
  w.first ≤ block ∧ a.Reaches w.last block

/-- An inverted window covers nothing. -/
theorem not_covers_of_isInverted {w : Window} (h : w.isInverted) : ¬w.Covers a block := by
  intro H
  have hlt : w.last < w.first := by simpa [isInverted] using h
  exact absurd (UInt64.le_trans H.1 H.2.le) (UInt64.not_le.mpr hlt)

theorem compute_first_le : (compute c overlap range head).first ≤ c :=
  Height.subFloored_le c overlap

theorem compute_last_le : (compute c overlap range head).last ≤ head := by
  rw [UInt64.le_iff_toNat_le, compute, Height.toNat_min]
  omega

/-- A window that leaves the checkpoint at the head ends at the head. -/
theorem compute_last_eq (h : head ≤ max (compute c overlap range head).last c) :
    (compute c overlap range head).last = head := by
  rw [UInt64.le_iff_toNat_le] at h
  rw [← UInt64.toNat_inj]
  simp only [compute, Height.toNat_max, Height.toNat_min, Height.toNat_addCapped] at h ⊢
  have := Height.toNat_le_top head
  omega

/-- A window that leaves the checkpoint below the head moves it. -/
theorem lt_max_compute_last (hrange : range ≠ 0)
    (h : max (compute c overlap range head).last c < head) :
    c < max (compute c overlap range head).last c := by
  have hpos : range.toNat ≠ 0 := fun h0 => hrange (UInt64.toNat_inj.mp h0)
  rw [UInt64.lt_iff_toNat_lt] at h ⊢
  simp only [compute, Height.toNat_max, Height.toNat_min, Height.toNat_addCapped] at h ⊢
  have := Height.toNat_le_top head
  omega

theorem max_compute_last_le : max (compute c overlap range head).last c ≤ max c head := by
  rw [UInt64.le_iff_toNat_le]
  simp only [compute, Height.toNat_max, Height.toNat_min, Height.toNat_addCapped]
  omega

end Window

end ChainIngest
