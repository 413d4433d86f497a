import Mathlib.Data.List.TakeWhile
import ChainIngest.Text.Blank

/-! How texts are taken apart: where a predicate first fails, and at the blanks around them. -/

namespace ChainIngest.Text

/-- A text whose beginning is what a predicate holds of is split there. -/
theorem takeWhile_dropWhile_append {p : Char → Bool} {start rest : List Char}
    (hstart : ∀ c ∈ start, p c = true) (hrest : ∀ c ∈ rest.head?, p c = false) :
    (start ++ rest).takeWhile p = start ∧ (start ++ rest).dropWhile p = rest := by
  rw [List.takeWhile_append_of_pos hstart, List.dropWhile_append_of_pos hstart]
  cases rest with
  | nil => simp
  | cons c rest =>
    have hc : ¬p c = true := by simp [hrest c rfl]
    rw [List.takeWhile_cons_of_neg hc, List.dropWhile_cons_of_neg hc, List.append_nil]
    exact ⟨rfl, rfl⟩

theorem append_inj_of_head {p : Char → Bool} {a b s t : List Char} (h : a ++ s = b ++ t)
    (ha : ∀ c ∈ a, p c = true) (hs : ∀ c ∈ s.head?, p c = false)
    (hb : ∀ c ∈ b, p c = true) (ht : ∀ c ∈ t.head?, p c = false) : a = b ∧ s = t := by
  obtain ⟨htake, hdrop⟩ := takeWhile_dropWhile_append ha hs
  obtain ⟨htake', hdrop'⟩ := takeWhile_dropWhile_append hb ht
  rw [← h] at htake' hdrop'
  exact ⟨htake.symm.trans htake', hdrop.symm.trans hdrop'⟩

/-- Trimming takes blanks off both ends. -/
theorem exists_blanks (cs : List Char) : ∃ before after, cs = before ++ trimChars cs ++ after ∧
    (∀ c ∈ before, isBlank c) ∧ ∀ c ∈ after, isBlank c := by
  let rest := cs.dropWhile isBlank
  refine ⟨cs.takeWhile isBlank, (rest.reverse.takeWhile isBlank).reverse, ?_, ?_, ?_⟩
  · rw [trimChars, List.append_assoc, ← List.reverse_append, List.takeWhile_append_dropWhile,
      List.reverse_reverse, List.takeWhile_append_dropWhile]
  · exact fun c hc => List.mem_takeWhile_imp hc
  · exact fun c hc => List.mem_takeWhile_imp (List.mem_reverse.mp hc)

/-- Trimming takes off no more than the blanks around a text without blanks. -/
theorem trimChars_blanks {before core after : List Char} (hbefore : ∀ c ∈ before, isBlank c)
    (hafter : ∀ c ∈ after, isBlank c) (hcore : ∀ c ∈ core, isBlank c = false) (hne : core ≠ []) :
    trimChars (before ++ core ++ after) = core := by
  have hhead (cs ds : List Char) (h : ∀ c ∈ cs, isBlank c = false) (hne : cs ≠ []) :
      ∀ c ∈ (cs ++ ds).head?, isBlank c = false := by
    cases cs with
    | nil => exact absurd rfl hne
    | cons d cs => exact fun c hc => Option.some.inj hc ▸ h d List.mem_cons_self
  have hcore' : ∀ c ∈ core.reverse, isBlank c = false := fun c hc =>
    hcore c (List.mem_reverse.mp hc)
  have hafter' : ∀ c ∈ after.reverse, isBlank c := fun c hc => hafter c (List.mem_reverse.mp hc)
  have hend := hhead core.reverse [] hcore' (by simpa using hne)
  rw [List.append_nil] at hend
  rw [trimChars, List.append_assoc, (takeWhile_dropWhile_append hbefore (hhead _ _ hcore hne)).2,
    List.reverse_append, (takeWhile_dropWhile_append hafter' hend).2, List.reverse_reverse]

theorem trimChars_of_not_blank {cs : List Char} (h : ∀ c ∈ cs, isBlank c = false) :
    trimChars cs = cs := by
  cases cs with
  | nil => rfl
  | cons c rest =>
    have htrim := trimChars_blanks (List.forall_mem_nil _) (List.forall_mem_nil _) h (by simp)
    rwa [List.nil_append, List.append_nil] at htrim

theorem isBlank_of_isDigit {c : Char} (h : c.isDigit) : isBlank c = false := by
  obtain ⟨h₁, h₂⟩ := Char.isDigit_iff_toNat.mp h
  simp only [Char.reduceToNat] at h₁ h₂
  simp [isBlank, blankRanges]
  omega

end ChainIngest.Text
