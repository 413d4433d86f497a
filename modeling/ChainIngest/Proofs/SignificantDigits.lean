import Mathlib.Algebra.Order.Round
import Mathlib.Data.Int.Log
import Mathlib.Data.Rat.Floor
import ChainIngest.Proofs.DecimalRounding

/-!
What the operations that round come to, as functions of the exact numbers: a quotient has a hundred
significant digits (`Decimal.value_div`), and a number that is cut has as many as it is cut to
(`Decimal.value_withPrecision`). Rounding keeps the order of numbers (`Decimal.rounded_mono`).
-/

namespace ChainIngest.Decimal

/-! ### Significant digits -/

/-- A way of rounding to whole numbers. -/
structure RoundsToInt (f : ℚ → ℤ) : Prop where
  mono : ∀ {p q : ℚ}, p ≤ q → f p ≤ f q
  fixes : ∀ n : ℤ, f n = n

theorem roundsToInt_floor : RoundsToInt Int.floor := ⟨fun h => Int.floor_mono h, Int.floor_intCast⟩

theorem roundsToInt_round : RoundsToInt round where
  mono h := by
    rw [round_eq, round_eq]
    exact Int.floor_mono (by linarith)
  fixes := round_intCast

/-- One unit of the last of some significant digits of a positive number. -/
def lastUnit (digits : ℕ) (q : ℚ) : ℚ := 10 ^ (Int.log 10 q + 1 - digits)

/-- A positive number at some significant digits; `f` rounds it as it is counted in units of the
last one. -/
def significant (f : ℚ → ℤ) (digits : ℕ) (q : ℚ) : ℚ :=
  f (q / lastUnit digits q) * lastUnit digits q

section Significant

variable {f : ℚ → ℤ} {digits n : ℕ} {p q c : ℚ}

theorem lastUnit_pos (digits : ℕ) (q : ℚ) : 0 < lastUnit digits q := ten_zpow_pos _

theorem log_scaled (hlow : (10 : ℚ) ^ n ≤ c) (hhigh : c < 10 ^ (n + 1)) (k : ℤ) :
    Int.log 10 (c * 10 ^ k) = n + k := by
  have hpos : 0 < c * 10 ^ k := mul_pos (lt_of_lt_of_le (by positivity) hlow) (ten_zpow_pos k)
  have hten : (1 : ℕ) < 10 := by norm_num
  apply le_antisymm
  · refine Int.lt_add_one_iff.mp ((Int.lt_zpow_iff_log_lt hten hpos).mp ?_)
    calc c * 10 ^ k < 10 ^ (n + 1) * 10 ^ k := mul_lt_mul_of_pos_right hhigh (ten_zpow_pos k)
      _ = ((10 : ℕ) : ℚ) ^ ((n : ℤ) + k + 1) := by
        rw [← zpow_natCast, ← zpow_add₀ (by norm_num)]
        push_cast
        congr 1
        ring
  · refine (Int.zpow_le_iff_le_log hten hpos).mp ?_
    calc ((10 : ℕ) : ℚ) ^ ((n : ℤ) + k) = 10 ^ n * 10 ^ k := by
          rw [zpow_add₀ (by norm_num), zpow_natCast, Nat.cast_ofNat]
      _ ≤ c * 10 ^ k := mul_le_mul_of_nonneg_right hlow (ten_zpow_pos k).le

/-- A number whose digits stand before the point, at some scale. -/
theorem significant_scaled (f : ℚ → ℤ) (hlow : (10 : ℚ) ^ n ≤ c) (hhigh : c < 10 ^ (n + 1))
    (k : ℤ) : significant f (n + 1) (c * 10 ^ k) = f c * 10 ^ k := by
  have hunit : lastUnit (n + 1) (c * 10 ^ k) = 10 ^ k := by
    rw [lastUnit, log_scaled hlow hhigh]
    congr 1
    push_cast
    ring
  rw [significant, hunit, mul_div_cancel_right₀ _ (ten_zpow_pos k).ne']

/-- A number that has no more digits stays as it is. -/
theorem significant_of_lt (hf : RoundsToInt f) {m : ℕ} (hpos : 0 < m) (hlt : m < 10 ^ digits)
    (k : ℤ) : significant f digits (m * 10 ^ k) = m * 10 ^ k := by
  obtain ⟨added, rfl⟩ : ∃ added, digits = Nat.log 10 m + added + 1 := by
    have := (Nat.log_lt_iff_lt_pow (by decide) hpos.ne').mpr hlt
    exact ⟨digits - (Nat.log 10 m + 1), by omega⟩
  -- Zeros are appended until there are as many digits as are asked for.
  have hlow : (10 : ℚ) ^ (Nat.log 10 m + added) ≤ (m * 10 ^ added : ℕ) := by
    rw [pow_add]
    exact_mod_cast Nat.mul_le_mul_right _ (Nat.pow_log_le_self 10 hpos.ne')
  have hhigh : ((m * 10 ^ added : ℕ) : ℚ) < 10 ^ (Nat.log 10 m + added + 1) := by
    rw [add_right_comm, pow_add]
    exact_mod_cast Nat.mul_lt_mul_of_pos_right (Nat.lt_pow_succ_log_self (by decide) m)
      (by positivity)
  have hsame : (m : ℚ) * 10 ^ k = (m * 10 ^ added : ℕ) * 10 ^ (k - added) := by
    rw [zpow_sub₀ (by norm_num), zpow_natCast]
    push_cast
    field_simp
  rw [hsame, significant_scaled f hlow hhigh, ← Int.cast_natCast (m * 10 ^ added), hf.fixes]

theorem significant_nonneg (hf : RoundsToInt f) (hq : 0 ≤ q) : 0 ≤ significant f digits q := by
  have hzero : f 0 = 0 := by simpa using hf.fixes 0
  have hnonneg : 0 ≤ f (q / lastUnit digits q) :=
    hzero ▸ hf.mono (div_nonneg hq (lastUnit_pos digits q).le)
  exact mul_nonneg (by exact_mod_cast hnonneg) (lastUnit_pos digits q).le

theorem significant_le_pow (hf : RoundsToInt f) (digits : ℕ) (q : ℚ) :
    significant f digits q ≤ 10 ^ (Int.log 10 q + 1) := by
  have hcount : q / lastUnit digits q ≤ ((10 ^ digits : ℤ) : ℚ) := by
    rw [div_le_iff₀ (lastUnit_pos digits q), lastUnit, zpow_sub₀ (by norm_num), zpow_natCast]
    push_cast
    rw [mul_div_cancel₀ _ (by positivity)]
    exact (Int.lt_zpow_succ_log_self (by norm_num) q).le
  have hround : f (q / lastUnit digits q) ≤ 10 ^ digits := hf.fixes (10 ^ digits) ▸ hf.mono hcount
  calc significant f digits q ≤ 10 ^ digits * lastUnit digits q :=
        mul_le_mul_of_nonneg_right (by exact_mod_cast hround) (lastUnit_pos digits q).le
    _ = 10 ^ (Int.log 10 q + 1) := by
      rw [lastUnit, zpow_sub₀ (by norm_num), zpow_natCast, mul_div_cancel₀ _ (by positivity)]

theorem pow_le_significant (hf : RoundsToInt f) (hdigits : 0 < digits) (hq : 0 < q) :
    10 ^ Int.log 10 q ≤ significant f digits q := by
  obtain ⟨n, rfl⟩ := Nat.exists_eq_add_of_lt hdigits
  have hunit : (10 : ℚ) ^ n * lastUnit (0 + n + 1) q = 10 ^ Int.log 10 q := by
    rw [lastUnit, ← zpow_natCast, ← zpow_add₀ (by norm_num)]
    congr 1
    push_cast
    ring
  have hcount : ((10 ^ n : ℤ) : ℚ) ≤ q / lastUnit (0 + n + 1) q := by
    rw [le_div_iff₀ (lastUnit_pos _ q)]
    push_cast
    rw [hunit]
    exact_mod_cast Int.zpow_log_le_self (by norm_num) hq
  have hround : 10 ^ n ≤ f (q / lastUnit (0 + n + 1) q) := hf.fixes (10 ^ n) ▸ hf.mono hcount
  rw [← hunit]
  exact mul_le_mul_of_nonneg_right (by exact_mod_cast hround) (lastUnit_pos _ q).le

/-- Numbers of the same length are rounded to the same unit; of numbers of different lengths, a
power of ten stays between. -/
theorem significant_mono (hf : RoundsToInt f) (hdigits : 0 < digits) (hp : 0 < p) (h : p ≤ q) :
    significant f digits p ≤ significant f digits q := by
  rcases (Int.log_mono_right (b := 10) hp h).lt_or_eq with hlt | heq
  · calc significant f digits p ≤ 10 ^ (Int.log 10 p + 1) := significant_le_pow hf digits p
      _ ≤ 10 ^ Int.log 10 q := zpow_le_zpow_right₀ (by norm_num) hlt
      _ ≤ significant f digits q := pow_le_significant hf hdigits (hp.trans_le h)
  · have hunit : lastUnit digits p = lastUnit digits q := by rw [lastUnit, heq, lastUnit]
    have hcount : p / lastUnit digits q ≤ q / lastUnit digits q :=
      div_le_div_of_nonneg_right h (lastUnit_pos digits q).le
    rw [significant, hunit, significant]
    exact mul_le_mul_of_nonneg_right (by exact_mod_cast hf.mono hcount)
      (lastUnit_pos digits q).le

end Significant

/-- A number at some significant digits. What is counted in units of the last one is rounded by
`up` for numbers that are not negative, and by `down`, without the sign, for negative ones. -/
def rounded (up down : ℚ → ℤ) (digits : ℕ) (q : ℚ) : ℚ :=
  if 0 ≤ q then significant up digits q else -significant down digits (-q)

section Rounded

variable {up down : ℚ → ℤ} {digits : ℕ}

theorem rounded_zero (hup : RoundsToInt up) : rounded up down digits 0 = 0 := by
  have hzero : up 0 = 0 := by simpa using hup.fixes 0
  rw [rounded, if_pos le_rfl, significant, zero_div, hzero, Int.cast_zero, zero_mul]

theorem rounded_mono (hup : RoundsToInt up) (hdown : RoundsToInt down) (hdigits : 0 < digits) :
    Monotone (rounded up down digits) := by
  intro p q h
  rcases lt_trichotomy p 0 with hp | rfl | hp
  · rw [rounded, if_neg (not_le.mpr hp), rounded]
    split
    case isTrue hq =>
      have hlow : 0 ≤ significant down digits (-p) :=
        significant_nonneg hdown (neg_nonneg.mpr hp.le)
      exact (neg_nonpos.mpr hlow).trans (significant_nonneg hup hq)
    case isFalse hq =>
      exact neg_le_neg
        (significant_mono hdown hdigits (neg_pos.mpr (not_le.mp hq)) (neg_le_neg h))
  · rw [rounded_zero hup, rounded, if_pos h]
    exact significant_nonneg hup h
  · rw [rounded, if_pos hp.le, rounded, if_pos (hp.le.trans h)]
    exact significant_mono hup hdigits hp h

theorem neg_rounded (f : ℚ → ℤ) {q : ℚ} (hq : 0 < q) :
    rounded f f digits (-q) = -significant f digits q := by
  rw [rounded, if_neg (not_le.mpr (neg_neg_of_pos hq)), neg_neg]

/-- A decimal is rounded by its magnitude. -/
theorem rounded_value (up down : ℚ → ℤ) (digits : ℕ) (x : Decimal) :
    rounded up down digits x.value =
      if 0 ≤ x.mantissa then significant up digits (x.mantissa.natAbs * 10 ^ (-x.scale))
      else -significant down digits (x.mantissa.natAbs * 10 ^ (-x.scale)) := by
  have hsign : 0 ≤ x.value ↔ 0 ≤ x.mantissa := by
    rw [value, mul_nonneg_iff_of_pos_right (ten_zpow_pos _), Int.cast_nonneg_iff]
  rw [rounded]
  simp only [hsign]
  split
  case isTrue hpos =>
    rw [value, Nat.cast_natAbs, abs_of_nonneg hpos]
  case isFalse hneg =>
    rw [value, Nat.cast_natAbs, abs_of_neg (not_le.mp hneg), Int.cast_neg, neg_mul]

/-- A number with no more digits than are asked for stays as it is. -/
theorem rounded_value_of_lt (hup : RoundsToInt up) (hdown : RoundsToInt down) {x : Decimal}
    (hlt : x.mantissa.natAbs < 10 ^ digits) : rounded up down digits x.value = x.value := by
  rcases Nat.eq_zero_or_pos x.mantissa.natAbs with hzero | hpos
  · rw [value_eq_zero_iff.mpr (Int.natAbs_eq_zero.mp hzero), rounded_zero hup]
  · rw [rounded_value, significant_of_lt hup hpos hlt, significant_of_lt hdown hpos hlt, value,
      Nat.cast_natAbs]
    split
    case isTrue hsign => rw [abs_of_nonneg hsign]
    case isFalse hsign => rw [abs_of_neg (not_le.mp hsign), Int.cast_neg, neg_mul, neg_neg]

end Rounded

/-- A quotient of naturals to the nearest whole number. -/
theorem round_natCast_div (m : ℕ) {unit : ℕ} (hunit : 0 < unit) :
    round ((m : ℚ) / unit) =
      if unit ≤ 2 * (m % unit) then (m / unit : ℕ) + 1 else (m / unit : ℕ) := by
  have hcast : (0 : ℚ) < unit := by exact_mod_cast hunit
  have hsplit : ((m / unit : ℕ) : ℚ) * unit + (m % unit : ℕ) = m := by
    exact_mod_cast Nat.div_add_mod' m unit
  have hlt : ((m % unit : ℕ) : ℚ) < unit := by exact_mod_cast Nat.mod_lt m hunit
  generalize m / unit = kept at hsplit ⊢
  generalize m % unit = rest at hsplit hlt ⊢
  have hnonneg : (0 : ℚ) ≤ rest := Nat.cast_nonneg rest
  split
  case isTrue hup =>
    have hhalf : (unit : ℚ) ≤ 2 * rest := by exact_mod_cast hup
    rw [round_eq_iff, Set.mem_Ico, le_div_iff₀ hcast, div_lt_iff₀ hcast]
    push_cast
    constructor <;> linarith
  case isFalse hdown =>
    have hhalf : 2 * (rest : ℚ) < unit := by exact_mod_cast not_le.mp hdown
    rw [round_eq_iff, Set.mem_Ico, le_div_iff₀ hcast, div_lt_iff₀ hcast]
    push_cast
    constructor <;> linarith

/-! ### Quotients -/

namespace LongDivision

theorem grow_eq_or_lt (dividend divisor : Nat) (scale : Int) :
    (grow dividend divisor scale).1 = dividend ∨
      (grow dividend divisor scale).1 < 10 * divisor := by
  fun_induction grow dividend divisor scale with
  | case1 => exact .inl rfl
  | case2 dividend scale hsmall ih =>
    refine .inr (ih.elim (fun heq => ?_) id)
    omega

theorem start_quotient_lt (h : dividend < bound * divisor) (hbound : 10 ≤ bound) (scale : Int) :
    (start dividend divisor scale).quotient < bound := by
  have hdivisor : 0 < divisor := Nat.pos_of_mul_pos_left (Nat.zero_lt_of_lt h)
  refine (Nat.div_lt_iff_lt_mul hdivisor).mpr ?_
  rcases grow_eq_or_lt dividend divisor scale with heq | hlt
  · rwa [heq]
  · exact hlt.trans_le (Nat.mul_le_mul_right divisor hbound)

/-- Each digit that is produced makes the quotient at most ten times as long. -/
theorem extend_quotient_lt {d : LongDivision} (hremainder : d.remainder < divisor)
    (hquotient : d.quotient < bound) (room : Nat) :
    (d.extend divisor room).quotient < bound * 10 ^ room := by
  induction room generalizing d bound with
  | zero => simpa [extend] using hquotient
  | succ room ih =>
    have hdivisor : 0 < divisor := Nat.zero_lt_of_lt hremainder
    rw [extend]
    split
    case isTrue => exact hquotient.trans_le (Nat.le_mul_of_pos_right bound (by positivity))
    case isFalse =>
      have hdigit : d.remainder * 10 / divisor < 10 := nextDigit_lt hremainder
      rw [Nat.pow_succ', ← Nat.mul_assoc]
      exact ih (Nat.mod_lt _ hdivisor) (by simp only; omega)

end LongDivision

section Quotients

variable {dividend divisor : Nat} {scale : Int}

theorem lastDivision_quotient_lt (h : dividend < 10 ^ quotientDigits * divisor) :
    (lastDivision dividend divisor scale).quotient < 10 ^ quotientDigits := by
  have hdivisor : 0 < divisor := Nat.pos_of_mul_pos_left (Nat.zero_lt_of_lt h)
  have hfirst : (LongDivision.start dividend divisor scale).quotient < 10 ^ quotientDigits :=
    LongDivision.start_quotient_lt h (by decide) scale
  have hcount : digitCount (LongDivision.start dividend divisor scale).quotient ≤
      quotientDigits := by
    rw [digitCount_eq]
    exact Nat.log_lt_of_lt_pow' (by decide) hfirst
  have hlast := LongDivision.extend_quotient_lt (Nat.mod_lt _ hdivisor)
    (digitCount_eq _ ▸ Nat.lt_pow_succ_log_self (by decide) _ :
      (LongDivision.start dividend divisor scale).quotient <
        10 ^ digitCount (LongDivision.start dividend divisor scale).quotient)
    (quotientDigits - digitCount (LongDivision.start dividend divisor scale).quotient)
  rwa [← Nat.pow_add, Nat.add_sub_cancel' hcount] at hlast

/-- A quotient of magnitudes has the hundred digits of the exact quotient. -/
theorem value_divMagnitudes (hdividend : 0 < dividend)
    (h : dividend < 10 ^ quotientDigits * divisor) :
    ((divMagnitudes dividend divisor scale).1 : ℚ) *
        10 ^ (-(divMagnitudes dividend divisor scale).2)
      = significant round quotientDigits (dividend * 10 ^ (-scale) / divisor) := by
  have hdivisor : 0 < divisor := Nat.pos_of_mul_pos_left (Nat.zero_lt_of_lt h)
  have hdivides : (lastDivision dividend divisor scale).Divides dividend divisor scale :=
    lastDivision_divides hdividend hdivisor
  have hexact : (lastDivision dividend divisor scale).remainder = 0 ∨
      10 ^ 99 ≤ (lastDivision dividend divisor scale).quotient :=
    lastDivision_exact_or_long hdividend hdivisor
  have hlast : (lastDivision dividend divisor scale).quotient < 10 ^ quotientDigits :=
    lastDivision_quotient_lt h
  rw [divMagnitudes_eq, ← hdivides.total]
  generalize lastDivision dividend divisor scale = d at hdivides hexact hlast
  have hcast : (0 : ℚ) < divisor := by exact_mod_cast hdivisor
  rcases hexact with hexact | hlong
  · rw [LongDivision.rounded_of_exact hexact, hexact, Nat.add_zero, Nat.cast_mul, mul_right_comm,
      mul_div_cancel_right₀ _ hcast.ne', significant_of_lt roundsToInt_round hdivides.quotient_pos
        hlast]
  · obtain ⟨hquotient, hremainder⟩ : (d.quotient * divisor + d.remainder) / divisor = d.quotient ∧
        (d.quotient * divisor + d.remainder) % divisor = d.remainder :=
      (Nat.div_mod_unique hdivisor).mpr ⟨by ring, hdivides.remainder_lt⟩
    have hround : round (((d.quotient * divisor + d.remainder : ℕ) : ℚ) / divisor) =
        d.rounded divisor := by
      rw [round_natCast_div _ hdivisor, hquotient, hremainder, LongDivision.rounded]
      have hpos : divisor ≤ 2 * d.remainder → d.remainder ≠ 0 := by omega
      split <;> simp_all
    have hlow : (10 : ℚ) ^ 99 ≤ ((d.quotient * divisor + d.remainder : ℕ) : ℚ) / divisor := by
      rw [le_div_iff₀ hcast]
      exact_mod_cast (Nat.mul_le_mul_right divisor hlong).trans (Nat.le_add_right _ _)
    have hhigh : ((d.quotient * divisor + d.remainder : ℕ) : ℚ) / divisor < 10 ^ (99 + 1) := by
      rw [div_lt_iff₀ hcast]
      have hroom : d.quotient * divisor + d.remainder < (d.quotient + 1) * divisor := by
        rw [Nat.succ_mul]
        exact Nat.add_lt_add_left hdivides.remainder_lt _
      exact_mod_cast hroom.trans_le (Nat.mul_le_mul_right divisor (Nat.succ_le_of_lt hlast))
    have hscaled := significant_scaled round hlow hhigh (-d.scale)
    rw [hround, Int.cast_natCast] at hscaled
    rw [mul_div_right_comm]
    exact hscaled.symm

/-- A signed quotient of magnitudes. -/
theorem rounded_sign_mul {q : ℚ} (hq : 0 < q) {m n : Int} (hm : m ≠ 0) (hn : n ≠ 0) (f : ℚ → ℤ)
    (digits : ℕ) : rounded f f digits ((m.sign * n.sign : Int) * q) =
      (m.sign * n.sign : Int) * significant f digits q := by
  have hsign : m.sign * n.sign = 1 ∨ m.sign * n.sign = -1 := by
    rcases Int.lt_or_gt_of_ne hm with hm | hm <;> rcases Int.lt_or_gt_of_ne hn with hn | hn <;>
      simp [Int.sign_eq_one_of_pos, Int.sign_eq_neg_one_of_neg, hm, hn]
  rcases hsign with hsign | hsign
  · rw [hsign, Int.cast_one, one_mul, one_mul, rounded, if_pos hq.le]
  · rw [hsign, Int.cast_neg, Int.cast_one, neg_one_mul, neg_one_mul, neg_rounded f hq]

/-- A quotient has the hundred digits of the exact one, unless one of the early exits keeps more. -/
theorem value_div {x y : Decimal} (hy : y.value ≠ 0)
    (hlong : x.mantissa.natAbs < 10 ^ quotientDigits * y.mantissa.natAbs)
    (hone : y.isOne → x.mantissa.natAbs < 10 ^ quotientDigits) :
    (x.div y).value = rounded round round quotientDigits (x.value / y.value) := by
  have hround := roundsToInt_round
  rw [div]
  split
  case isTrue hself =>
    rcases Bool.or_eq_true _ _ ▸ hself with hzero | hone'
    · rw [isZero_iff.mp hzero, zero_div, rounded_zero hround]
    · rw [value_of_isOne hone', div_one, rounded_value_of_lt hround hround (hone hone')]
  case isFalse hself =>
    have hx : x.mantissa ≠ 0 := fun h => hself (by simp [isZero, h])
    have hy : y.mantissa ≠ 0 := fun h => hy (value_eq_zero_iff.mpr h)
    split
    case isTrue heq =>
      rw [← value_of_mantissa_eq heq hy]
      exact (rounded_value_of_lt hround hround (by norm_num [quotientDigits])).symm
    case isFalse =>
      have hquotient : (0 : ℚ) <
          x.mantissa.natAbs * 10 ^ (-(x.scale - y.scale)) / y.mantissa.natAbs := by
        have hdividend : (0 : ℚ) < x.mantissa.natAbs := by exact_mod_cast Int.natAbs_pos.mpr hx
        have hdivisor : (0 : ℚ) < y.mantissa.natAbs := by exact_mod_cast Int.natAbs_pos.mpr hy
        exact div_pos (mul_pos hdividend (ten_zpow_pos _)) hdivisor
      rw [value_div_value x hy, rounded_sign_mul hquotient hx hy,
        ← value_divMagnitudes (Int.natAbs_pos.mpr hx) hlong, value]
      push_cast
      ring

end Quotients

/-! ### A cut to some digits -/

/-- The leading digits of a mantissa, as the whole part of a quotient. -/
theorem pow_le_div_lt_pow {m : ℕ} (h : digits + 1 < digitCount m) :
    (10 : ℚ) ^ digits ≤ m / (10 ^ (digitCount m - (digits + 1)) : ℕ) ∧
      (m : ℚ) / (10 ^ (digitCount m - (digits + 1)) : ℕ) < 10 ^ (digits + 1) := by
  rw [digitCount_eq] at h ⊢
  obtain ⟨dropped, hdropped⟩ := Nat.exists_eq_add_of_lt h
  have hm : m ≠ 0 := by
    rintro rfl
    simp at h
  have hcount : Nat.log 10 m + 1 - (digits + 1) = dropped + 1 := by omega
  have hlow : 10 ^ digits * 10 ^ (dropped + 1) ≤ m := by
    rw [← Nat.pow_add]
    exact Nat.pow_le_of_le_log hm (by omega)
  have hhigh : m < 10 ^ (digits + 1) * 10 ^ (dropped + 1) := by
    rw [← Nat.pow_add]
    exact Nat.lt_pow_of_log_lt (by decide) (by omega)
  have hunit : (0 : ℚ) < (10 ^ (dropped + 1) : ℕ) := by positivity
  rw [hcount, le_div_iff₀ hunit, div_lt_iff₀ hunit]
  exact ⟨by exact_mod_cast hlow, by exact_mod_cast hhigh⟩

/-- What is left of a mantissa of which a power of ten is cut off. -/
theorem cut_eq (m : Int) {unit : ℕ} (hunit : 0 < unit) :
    (if (unit : Int) ≤ 2 * m.tmod unit then m.tdiv unit + 1 else m.tdiv unit) =
      if 0 ≤ m then round ((m.natAbs : ℚ) / unit) else -⌊(m.natAbs : ℚ) / unit⌋ := by
  rcases lt_or_ge m 0 with hneg | hpos
  · obtain ⟨k, rfl⟩ : ∃ k : ℕ, m = -k := ⟨m.natAbs, by omega⟩
    have hrest : ¬(unit : Int) ≤ 2 * (-(k : Int)).tmod unit := by
      have := Int.tmod_nonneg unit (Int.natCast_nonneg k)
      rw [Int.neg_tmod]
      omega
    rw [if_neg hrest, if_neg (not_le.mpr hneg), Int.neg_tdiv, Int.natAbs_neg, Int.natAbs_natCast,
      Rat.floor_natCast_div_natCast, Int.tdiv_eq_ediv_of_nonneg (Int.natCast_nonneg k)]
  · obtain ⟨k, rfl⟩ := Int.eq_ofNat_of_zero_le hpos
    rw [if_pos hpos, Int.natAbs_natCast, round_natCast_div k hunit, ← Int.ofNat_tdiv,
      ← Int.ofNat_tmod]
    norm_cast

/-- A number that is cut has as many digits as it is cut to. Positive ones are rounded to the
nearest, and of negative ones the rest is dropped. -/
theorem value_withPrecision (digits : Nat) (x : Decimal) :
    (x.withPrecision (digits + 1)).value = rounded round Int.floor (digits + 1) x.value := by
  rw [withPrecision]
  split
  case isTrue hlong =>
    obtain ⟨hlow, hhigh⟩ := pow_le_div_lt_pow hlong
    generalize digitCount x.mantissa.natAbs - (digits + 1) = dropped at hlow hhigh ⊢
    change (⟨if (10 : Int) ^ dropped ≤ 2 * x.mantissa.tmod (10 ^ dropped)
      then x.mantissa.tdiv (10 ^ dropped) + 1 else x.mantissa.tdiv (10 ^ dropped),
      x.scale - dropped⟩ : Decimal).value = _
    have hscaled (f : ℚ → ℤ) : significant f (digits + 1) (x.mantissa.natAbs * 10 ^ (-x.scale)) =
        f (x.mantissa.natAbs / (10 ^ dropped : ℕ)) * 10 ^ (-(x.scale - dropped)) := by
      rw [← significant_scaled f hlow hhigh, ten_zpow_neg_sub_natCast]
      push_cast
      field_simp
    have hunit : 0 < 10 ^ dropped := by positivity
    have hcut := cut_eq x.mantissa hunit
    rw [Nat.cast_pow, Nat.cast_ofNat] at hcut
    rw [rounded_value, hscaled, hscaled, value, hcut]
    split
    case isTrue => rfl
    case isFalse => rw [Int.cast_neg, neg_mul]
  case isFalse hshort =>
    have hlt : x.mantissa.natAbs < 10 ^ (digits + 1) :=
      (lt_pow_digitCount _).trans_le (Nat.pow_le_pow_right (by decide) (not_lt.mp hshort))
    rw [rounded_value_of_lt roundsToInt_round roundsToInt_floor hlt]
    exact value_append_zeros x _

end ChainIngest.Decimal
