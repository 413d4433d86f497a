import ChainIngest.Number.Numeral
import ChainIngest.Proofs.TextParts

/-! Numbers that are shown are read back (`Number.readUInt64_trim_showUInt64`). -/

namespace ChainIngest

namespace Number

theorem digit?_of_isDigit {c : Char} (h : c.isDigit) : digit? c = some (c.toNat - '0'.toNat) := by
  obtain ⟨h₁, h₂⟩ := Char.isDigit_iff_toNat.mp h
  exact if_pos ⟨h₁, h₂⟩

/-- More digits make no number smaller. -/
theorem le_ofDigitChars (cs : List Char) (value : Nat) : value ≤ Nat.ofDigitChars 10 cs value := by
  rw [Nat.ofDigitChars_eq_ofDigitChars_zero]
  have hpos : 0 < 10 ^ cs.length := Nat.pow_pos (by decide)
  have := Nat.le_mul_of_pos_left value hpos
  omega

theorem extendMagnitude_digits {cs : List Char} (hdigits : ∀ c ∈ cs, c.isDigit)
    (hbound : Nat.ofDigitChars 10 cs value ≤ bound) :
    extendMagnitude bound overflow value cs = .ok (Nat.ofDigitChars 10 cs value) := by
  induction cs generalizing value with
  | nil => simp [extendMagnitude]
  | cons c rest ih =>
    rw [Nat.ofDigitChars_cons, Nat.mul_comm 10 value] at hbound ⊢
    have hle : value * 10 + (c.toNat - '0'.toNat) ≤ bound :=
      Nat.le_trans (le_ofDigitChars rest _) hbound
    rw [extendMagnitude, digit?_of_isDigit (hdigits c List.mem_cons_self)]
    simp only [if_pos hle]
    exact ih (fun d hd => hdigits d (List.mem_cons_of_mem _ hd)) hbound

theorem readUnsigned_toDigits (h : n ≤ bound) :
    readUnsigned bound (Nat.toDigits 10 n) = .ok n := by
  have hdigits : ∀ c ∈ Nat.toDigits 10 n, c.isDigit := fun c hc =>
    Nat.isDigit_of_mem_toDigits (by decide) (by decide) hc
  have hread : extendMagnitude bound .tooLarge 0 (Nat.toDigits 10 n) = .ok n := by
    rw [extendMagnitude_digits hdigits] <;> rw [Nat.ofDigitChars_ten_toDigits]
    exact h
  cases hcs : Nat.toDigits 10 n with
  | nil => exact absurd hcs Nat.toDigits_ne_nil
  | cons c rest =>
    have hplus : c ≠ '+' := by
      intro heq
      rw [heq] at hcs
      simpa using hdigits '+' (hcs ▸ List.mem_cons_self)
    rw [hcs] at hread
    rw [readUnsigned] <;> simp_all

/-- A shown number is read back, also by a reader that takes blanks off first. -/
theorem readUInt64_trim_showUInt64 (n : UInt64) :
    readUInt64 (Text.trim (showUInt64 n)) = .ok n := by
  have hblank : ∀ c ∈ Nat.toDigits 10 n.toNat, Text.isBlank c = false := fun c hc =>
    Text.isBlank_of_isDigit (Nat.isDigit_of_mem_toDigits (by decide) (by decide) hc)
  have hle : n.toNat ≤ UInt64.size - 1 := Nat.le_sub_one_of_lt n.toNat_lt
  rw [readUInt64, Text.trim, String.toList_ofList, showUInt64, Nat.toList_repr,
    Text.trimChars_of_not_blank hblank, readUnsigned_toDigits hle]
  simp [Functor.map, Except.map]

end Number

end ChainIngest
