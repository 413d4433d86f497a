import Mathlib.Algebra.Order.Field.Basic
import Mathlib.Algebra.Order.Field.Rat
import Mathlib.Data.Nat.Log
import Mathlib.Data.Sign.Basic
import Mathlib.Tactic.FieldSimp
import Mathlib.Tactic.Linarith
import Mathlib.Tactic.Ring
import ChainIngest.Decimal.Basic

/-!
The rational numbers that decimals stand for, how long their mantissas are, and relative errors.
-/

namespace ChainIngest.Decimal

/-- The number that `x` stands for. -/
def value (x : Decimal) : ℚ := x.mantissa * 10 ^ (-x.scale)

theorem ten_zpow_pos (n : ℤ) : (0 : ℚ) < 10 ^ n := zpow_pos (by norm_num) n

theorem value_ofInt (n : Int) : (ofInt n).value = n := by simp [value, ofInt]

theorem value_mul (x y : Decimal) : (x.mul y).value = x.value * y.value := by
  have hscale : (10 : ℚ) ^ (-(x.scale + y.scale)) = 10 ^ (-x.scale) * 10 ^ (-y.scale) := by
    rw [neg_add, zpow_add₀ (by norm_num)]
  simp only [value, mul, hscale, Int.cast_mul]
  ring

theorem value_eq_zero_iff {x : Decimal} : x.value = 0 ↔ x.mantissa = 0 := by
  simp [value, (ten_zpow_pos _).ne']

theorem isZero_iff {x : Decimal} : x.isZero = true ↔ x.value = 0 := by
  rw [value_eq_zero_iff, isZero, beq_iff_eq]

theorem value_of_isOne {x : Decimal} (h : x.isOne = true) : x.value = 1 := by
  simp only [isOne, Bool.and_eq_true, decide_eq_true_eq, beq_iff_eq] at h
  obtain ⟨⟨hscale, -⟩, hmantissa⟩ := h
  obtain ⟨n, hn⟩ := Int.eq_ofNat_of_zero_le hscale
  have hpow : x.mantissa = 10 ^ n := by rw [hmantissa, hn]; rfl
  rw [value, hpow, hn, Int.cast_pow, Int.cast_ofNat, zpow_neg, zpow_natCast]
  exact mul_inv_cancel₀ (by positivity)

theorem value_append_zeros (x : Decimal) (added : Nat) :
    (⟨x.mantissa * 10 ^ added, x.scale + added⟩ : Decimal).value = x.value := by
  rw [value, value, neg_add, zpow_add₀ (by norm_num), zpow_neg _ (added : Int), zpow_natCast]
  push_cast
  field_simp

/-! ### Lengths of mantissas -/

theorem digitCount_eq (n : Nat) : digitCount n = Nat.log 10 n + 1 := by
  fun_induction digitCount n with
  | case1 n hlt => rw [Nat.log_of_lt hlt]
  | case2 n hge ih =>
    rw [ih, Nat.log_div_base, Nat.sub_add_cancel]
    exact Nat.log_pos (by decide) (Nat.le_of_not_lt hge)

theorem pow_le_of_digitCount (hn : 0 < n) (h : digitCount n = count + 1) : 10 ^ count ≤ n := by
  rw [digitCount_eq, Nat.add_right_cancel_iff] at h
  exact h ▸ Nat.pow_log_le_self 10 hn.ne'

theorem lt_pow_digitCount (n : Nat) : n < 10 ^ digitCount n := by
  rw [digitCount_eq]
  exact Nat.lt_pow_succ_log_self (by decide) n

theorem digitCount_pos (n : Nat) : 0 < digitCount n := by
  rw [digitCount_eq]
  exact Nat.succ_pos _

/-! ### Relative errors -/

/-- `approx` differs from `exact` by at most the part `error` of it. -/
def Near (error approx exact : ℚ) : Prop := |approx - exact| ≤ error * |exact|

namespace Near

theorem refl (h : 0 ≤ error) (a : ℚ) : Near error a a := by
  rw [Near, sub_self, abs_zero]
  exact mul_nonneg h (abs_nonneg a)

theorem mono (h : Near error a b) (hle : error ≤ error') : Near error' a b :=
  h.trans (mul_le_mul_of_nonneg_right hle (abs_nonneg b))

theorem mul_left (h : Near error a b) (c : ℚ) : Near error (c * a) (c * b) := by
  rw [Near, ← mul_sub, abs_mul, abs_mul, mul_left_comm]
  exact mul_le_mul_of_nonneg_left h (abs_nonneg c)

theorem abs_approx_le (h : Near error a b) : |a| ≤ (1 + error) * |b| := by
  have htriangle : |a| - |b| ≤ |a - b| := abs_sub_abs_le_abs_sub a b
  have hnear : |a - b| ≤ error * |b| := h
  linarith

theorem le_abs_approx (h : Near error a b) : (1 - error) * |b| ≤ |a| := by
  have htriangle : |b| - |a| ≤ |b - a| := abs_sub_abs_le_abs_sub b a
  have hnear : |a - b| ≤ error * |b| := h
  rw [abs_sub_comm] at hnear
  linarith

/-- Errors of two roundings, one after the other. -/
theorem trans (h : Near error a b) (h' : Near error' b c) (hpos : 0 ≤ error) :
    Near (error + error' + error * error') a c :=
  calc |a - c| ≤ |a - b| + |b - c| := abs_sub_le a b c
    _ ≤ error * |b| + error' * |c| := add_le_add h h'
    _ ≤ error * ((1 + error') * |c|) + error' * |c| := by
      gcongr
      exact h'.abs_approx_le
    _ = (error + error' + error * error') * |c| := by ring

/-- Dividing by a rounded number. -/
theorem div_right (h : Near error a b) (hlt : error < 1) (hb : b ≠ 0) (c : ℚ) :
    Near (error / (1 - error)) (c / a) (c / b) := by
  have hroom : 0 < 1 - error := sub_pos.mpr hlt
  have hbpos : 0 < |b| := abs_pos.mpr hb
  have hapos : 0 < |a| := (mul_pos hroom hbpos).trans_le h.le_abs_approx
  have ha : a ≠ 0 := abs_pos.mp hapos
  have hnear : |b - a| ≤ error * |b| := abs_sub_comm a b ▸ h
  have hsplit : c / a - c / b = c / b * ((b - a) / a) := by field_simp
  have herror : |b - a| / |a| ≤ error / (1 - error) := by
    rw [div_le_div_iff₀ hapos hroom]
    calc |b - a| * (1 - error) ≤ error * |b| * (1 - error) := by gcongr
      _ = error * ((1 - error) * |b|) := by ring
      _ ≤ error * |a| := by
        gcongr
        · exact nonneg_of_mul_nonneg_left ((abs_nonneg _).trans hnear) hbpos
        · exact h.le_abs_approx
  calc |c / a - c / b|
      = |b - a| / |a| * |c / b| := by rw [hsplit, abs_mul, abs_div (b - a), mul_comm]
    _ ≤ error / (1 - error) * |c / b| := by gcongr

/-- Rounding by less than the whole keeps the sign. -/
theorem sign_eq (h : Near error a b) (hlt : error < 1) : SignType.sign a = SignType.sign b := by
  obtain ⟨hlow, hhigh⟩ := abs_le.mp h
  rcases lt_trichotomy b 0 with hneg | rfl | hpos
  · rw [abs_of_neg hneg] at hhigh
    have : a < 0 := by nlinarith
    rw [sign_neg hneg, sign_neg this]
  · rw [abs_zero, mul_zero] at hlow hhigh
    rw [show a = 0 by linarith]
  · rw [abs_of_pos hpos] at hlow
    have : 0 < a := by nlinarith
    rw [sign_pos hpos, sign_pos this]

theorem eq_zero_iff (h : Near error a b) (hlt : error < 1) : a = 0 ↔ b = 0 := by
  rw [← sign_eq_zero_iff, h.sign_eq hlt, sign_eq_zero_iff]

end Near

end ChainIngest.Decimal
