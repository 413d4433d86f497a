import Mathlib.Data.Nat.Cast.Order.Field
import Mathlib.Tactic.Convert
import ChainIngest.Decimal.Division
import ChainIngest.Decimal.Precision
import ChainIngest.Proofs.DecimalValues

/-!
How far the results of the two operations that round are from the exact ones: of division
(`Decimal.div_near`) and of a cut to some digits (`Decimal.withPrecision_near`).
-/

namespace ChainIngest.Decimal

/-! ### Division -/

/-- The part by which a quotient of a hundred digits may be off. -/
def quotientError : ℚ := 10 ^ (-99 : ℤ)

theorem quotientError_pos : 0 < quotientError := ten_zpow_pos _

section Division

variable {dividend divisor : Nat} {scale : Int}

namespace LongDivision

/-- What long division keeps: quotient and remainder make up the dividend, and the leading digit
has been produced. -/
structure Divides (dividend divisor : Nat) (scale : Int) (d : LongDivision) : Prop where
  total : ((d.quotient * divisor + d.remainder : Nat) : ℚ) * 10 ^ (-d.scale)
    = dividend * 10 ^ (-scale)
  remainder_lt : d.remainder < divisor
  quotient_pos : 0 < d.quotient

theorem shift_scale (n : ℚ) (scale : Int) : n * 10 * 10 ^ (-(scale + 1)) = n * 10 ^ (-scale) := by
  rw [neg_add, zpow_add₀ (by norm_num), zpow_neg_one, mul_comm (10 ^ (-scale)), ← mul_assoc,
    mul_assoc n, mul_inv_cancel₀ (by norm_num), mul_one]

theorem grow_total (dividend divisor : Nat) (scale : Int) :
    ((grow dividend divisor scale).1 : ℚ) * 10 ^ (-(grow dividend divisor scale).2)
      = dividend * 10 ^ (-scale) := by
  fun_induction grow dividend divisor scale with
  | case1 => rfl
  | case2 dividend scale _ ih => rw [ih, Nat.cast_mul, Nat.cast_ofNat, shift_scale]

theorem le_grow (h : 0 < dividend) : divisor ≤ (grow dividend divisor scale).1 := by
  fun_induction grow dividend divisor scale with
  | case1 dividend scale hdone => exact hdone.resolve_left h.ne'
  | case2 dividend scale _ ih => exact ih (by omega)

theorem start_divides (hdividend : 0 < dividend) (hdivisor : 0 < divisor) :
    Divides dividend divisor scale (start dividend divisor scale) where
  total := by
    simp only [start, Nat.div_add_mod']
    exact grow_total dividend divisor scale
  remainder_lt := Nat.mod_lt _ hdivisor
  quotient_pos := Nat.div_pos (le_grow hdividend) hdivisor

theorem nextDigit_lt {remainder : Nat} (h : remainder < divisor) :
    remainder * 10 / divisor < 10 := by
  rw [Nat.div_lt_iff_lt_mul (Nat.zero_lt_of_lt h)]
  omega

/-- One digit more. -/
theorem Divides.digit (h : Divides dividend divisor scale d) :
    Divides dividend divisor scale ⟨d.quotient * 10 + d.remainder * 10 / divisor,
      d.remainder * 10 % divisor, d.scale + 1⟩ where
  total := by
    have hnat : (d.quotient * 10 + d.remainder * 10 / divisor) * divisor
        + d.remainder * 10 % divisor = (d.quotient * divisor + d.remainder) * 10 := by
      rw [Nat.add_mul, Nat.add_assoc, Nat.div_add_mod']
      ring
    simp only [hnat]
    rw [Nat.cast_mul, Nat.cast_ofNat, shift_scale, h.total]
  remainder_lt := Nat.mod_lt _ (Nat.zero_lt_of_lt h.remainder_lt)
  quotient_pos := by
    have hpos := h.quotient_pos
    exact Nat.add_pos_left (by omega) _

theorem Divides.extend (h : Divides dividend divisor scale d) (room : Nat) :
    Divides dividend divisor scale (d.extend divisor room) := by
  induction room generalizing d with
  | zero => exact h
  | succ room ih =>
    rw [LongDivision.extend]
    split
    · exact h
    · exact ih h.digit

/-- Digits are produced until nothing remains or there is no room. -/
theorem exact_or_long (divisor room : Nat) (d : LongDivision) :
    (d.extend divisor room).remainder = 0 ∨
      d.quotient * 10 ^ room ≤ (d.extend divisor room).quotient := by
  induction room generalizing d with
  | zero => exact .inr (by rw [LongDivision.extend, Nat.pow_zero, Nat.mul_one])
  | succ room ih =>
    rw [LongDivision.extend]
    split
    case isTrue hdone => exact .inl hdone
    case isFalse =>
      refine (ih _).imp_right fun hlong => Nat.le_trans ?_ hlong
      calc d.quotient * 10 ^ (room + 1) = d.quotient * 10 * 10 ^ room := by ring
        _ ≤ _ := Nat.mul_le_mul_right _ (Nat.le_add_right _ _)

theorem rounded_of_exact {d : LongDivision} (h : d.remainder = 0) :
    d.rounded divisor = d.quotient :=
  if_neg fun hup => hup.1 h

/-- The rounded quotient is off by at most half a unit of its last digit. -/
theorem Divides.rounded_half (h : Divides dividend divisor scale d) :
    2 * |(d.rounded divisor * divisor : ℚ) - (d.quotient * divisor + d.remainder : Nat)|
      ≤ divisor := by
  have hlt : (d.remainder : ℚ) < divisor := by exact_mod_cast h.remainder_lt
  have hnonneg : (0 : ℚ) ≤ d.remainder := Nat.cast_nonneg _
  rw [rounded]
  split
  case isTrue hup =>
    have hhalf : (divisor : ℚ) ≤ 2 * d.remainder := by exact_mod_cast hup.2
    push_cast
    rw [abs_of_nonneg] <;> linarith
  case isFalse hdown =>
    have hhalf : 2 * (d.remainder : ℚ) ≤ divisor := by
      have : 2 * d.remainder ≤ divisor := by
        by_contra hlarge
        exact hdown ⟨by omega, by omega⟩
      exact_mod_cast this
    push_cast
    rw [abs_of_nonpos] <;> linarith

theorem Divides.rounded_near (h : Divides dividend divisor scale d)
    (hlong : d.remainder = 0 ∨ 10 ^ 99 ≤ d.quotient) :
    Near quotientError (d.rounded divisor * divisor)
      (d.quotient * divisor + d.remainder : Nat) := by
  rcases hlong with hexact | hlong
  · rw [rounded_of_exact hexact, hexact, Nat.add_zero, Nat.cast_mul]
    exact .refl quotientError_pos.le _
  · have hdigits : (10 : ℚ) ^ 99 ≤ d.quotient := by exact_mod_cast hlong
    have hunit : (divisor : ℚ) ≤ quotientError * (d.quotient * divisor) := by
      have hone : quotientError * 10 ^ 99 = 1 := by norm_num [quotientError]
      calc (divisor : ℚ) = quotientError * (10 ^ 99 * divisor) := by rw [← mul_assoc, hone, one_mul]
        _ ≤ quotientError * (d.quotient * divisor) := by
          gcongr
          exact quotientError_pos.le
    have hrest : quotientError * (d.quotient * divisor)
        ≤ quotientError * (d.quotient * divisor + d.remainder : Nat) := by
      gcongr
      · exact quotientError_pos.le
      · push_cast
        exact le_add_of_nonneg_right (Nat.cast_nonneg _)
    have hhalf := h.rounded_half
    have hnonneg := abs_nonneg
      ((d.rounded divisor * divisor : ℚ) - (d.quotient * divisor + d.remainder : Nat))
    rw [Near, Nat.abs_cast]
    linarith

end LongDivision

/-- The quotient that digits are produced for. -/
def lastDivision (dividend divisor : Nat) (scale : Int) : LongDivision :=
  let first := LongDivision.start dividend divisor scale
  first.extend divisor (quotientDigits - digitCount first.quotient)

theorem divMagnitudes_eq (dividend divisor : Nat) (scale : Int) :
    divMagnitudes dividend divisor scale =
      ((lastDivision dividend divisor scale).rounded divisor,
        (lastDivision dividend divisor scale).scale) := rfl

theorem lastDivision_divides (hdividend : 0 < dividend) (hdivisor : 0 < divisor) :
    (lastDivision dividend divisor scale).Divides dividend divisor scale :=
  (LongDivision.start_divides hdividend hdivisor).extend _

theorem lastDivision_exact_or_long (hdividend : 0 < dividend) (hdivisor : 0 < divisor) :
    (lastDivision dividend divisor scale).remainder = 0 ∨
      10 ^ 99 ≤ (lastDivision dividend divisor scale).quotient := by
  have hstart : (LongDivision.start dividend divisor scale).Divides dividend divisor scale :=
    LongDivision.start_divides hdividend hdivisor
  refine (LongDivision.exact_or_long divisor _ _).imp_right fun hlong => Nat.le_trans ?_ hlong
  obtain ⟨count, hcount⟩ := Nat.exists_eq_add_of_lt (digitCount_pos
    (LongDivision.start dividend divisor scale).quotient)
  rw [Nat.zero_add] at hcount
  calc 10 ^ 99 ≤ 10 ^ (count + (quotientDigits - (count + 1))) :=
        Nat.pow_le_pow_right (by decide) (by simp only [quotientDigits]; omega)
    _ = 10 ^ count * 10 ^ (quotientDigits - (count + 1)) := Nat.pow_add ..
    _ ≤ _ := by
      rw [hcount]
      exact Nat.mul_le_mul_right _ (pow_le_of_digitCount hstart.quotient_pos hcount)

theorem divMagnitudes_near (hdividend : 0 < dividend) (hdivisor : 0 < divisor) :
    Near quotientError
      ((divMagnitudes dividend divisor scale).1 * 10 ^ (-(divMagnitudes dividend divisor scale).2))
      (dividend * 10 ^ (-scale) / divisor) := by
  have hdivides : (lastDivision dividend divisor scale).Divides dividend divisor scale :=
    lastDivision_divides hdividend hdivisor
  have hnear := hdivides.rounded_near (lastDivision_exact_or_long hdividend hdivisor)
  rw [divMagnitudes_eq, ← hdivides.total]
  generalize lastDivision dividend divisor scale = d at hnear
  have hpos : (divisor : ℚ) ≠ 0 := by exact_mod_cast hdivisor.ne'
  have hscaled := hnear.mul_left (10 ^ (-d.scale) / divisor)
  convert hscaled using 1
  · rw [div_mul_eq_mul_div, mul_comm (d.rounded divisor : ℚ), ← mul_assoc,
      mul_div_cancel_right₀ _ hpos, mul_comm]
  · rw [div_mul_eq_mul_div, mul_comm]

end Division

theorem ten_zpow_neg_sub (a b : Int) : (10 : ℚ) ^ (-(a - b)) = 10 ^ (-a) / 10 ^ (-b) := by
  rw [← zpow_sub₀ (by norm_num)]
  congr 1
  omega

theorem cast_eq_sign_mul (m : Int) : (m : ℚ) = m.sign * m.natAbs := by
  rw [← Int.cast_natCast, ← Int.cast_mul, Int.sign_mul_natAbs]

theorem sign_mul_self {m : Int} (h : m ≠ 0) : m.sign * m.sign = 1 := by
  rcases Int.lt_or_gt_of_ne h with hneg | hpos
  · rw [Int.sign_eq_neg_one_of_neg hneg, neg_mul_neg, mul_one]
  · rw [Int.sign_eq_one_of_pos hpos, mul_one]

/-- The quotient of magnitudes, with the sign of the quotient. -/
theorem value_div_value (x : Decimal) {y : Decimal} (hy : y.mantissa ≠ 0) :
    x.value / y.value = (x.mantissa.sign * y.mantissa.sign : Int) *
      (x.mantissa.natAbs * 10 ^ (-(x.scale - y.scale)) / y.mantissa.natAbs) := by
  have hsign : (y.mantissa.sign : ℚ) * y.mantissa.sign = 1 := by
    exact_mod_cast sign_mul_self hy
  have habs : (y.mantissa.natAbs : ℚ) ≠ 0 := by exact_mod_cast Int.natAbs_ne_zero.mpr hy
  have hunit : (10 : ℚ) ^ (-y.scale) ≠ 0 := (ten_zpow_pos _).ne'
  have hsign' : (y.mantissa.sign : ℚ) ≠ 0 := left_ne_zero_of_mul_eq_one hsign
  rw [value, value, ten_zpow_neg_sub, cast_eq_sign_mul x.mantissa, cast_eq_sign_mul y.mantissa]
  push_cast
  field_simp
  rw [sq, hsign, mul_one]

/-- The quotient of equal mantissas is a power of ten. -/
theorem value_of_mantissa_eq {x y : Decimal} (h : x.mantissa = y.mantissa)
    (hy : y.mantissa ≠ 0) : (⟨1, x.scale - y.scale⟩ : Decimal).value = x.value / y.value := by
  have hmantissa : (y.mantissa : ℚ) ≠ 0 := by exact_mod_cast hy
  rw [value, value, value, h, ten_zpow_neg_sub, mul_div_mul_left _ _ hmantissa, Int.cast_one,
    one_mul]

/-- A quotient of decimals is off by at most one part in `10 ^ 99`. -/
theorem div_near (x : Decimal) {y : Decimal} (hy : y.value ≠ 0) :
    Near quotientError (x.div y).value (x.value / y.value) := by
  rw [div]
  split
  case isTrue hself =>
    rcases Bool.or_eq_true _ _ ▸ hself with hzero | hone
    · rw [isZero_iff.mp hzero, zero_div]
      exact .refl quotientError_pos.le 0
    · rw [value_of_isOne hone, div_one]
      exact .refl quotientError_pos.le _
  case isFalse hself =>
    have hx : 0 < x.mantissa.natAbs := Int.natAbs_pos.mpr fun h => hself (by simp [isZero, h])
    have hy : y.mantissa ≠ 0 := fun h => hy (value_eq_zero_iff.mpr h)
    split
    case isTrue heq =>
      rw [value_of_mantissa_eq heq hy]
      exact .refl quotientError_pos.le _
    case isFalse =>
      rw [value_div_value x hy]
      refine (congrArg (Near _ · _) ?_).mp
        ((divMagnitudes_near hx (Int.natAbs_pos.mpr hy)).mul_left
          (x.mantissa.sign * y.mantissa.sign : Int))
      simp only [value]
      push_cast
      ring

/-! ### A cut to some digits -/

/-- Of a mantissa that keeps a leading part of at least `lead`, less than one part in `lead + 1` is
lost: of a negative one all of the rest, of a positive one at most half a unit. -/
theorem cut_le {m unit lead : Int} (hunit : 0 < unit) (hpos : 0 ≤ lead)
    (hlead : lead ≤ |m.tdiv unit|) :
    |(if unit ≤ 2 * m.tmod unit then m.tdiv unit + 1 else m.tdiv unit) * unit - m| * (lead + 1)
      ≤ |m| := by
  have hsplit : unit * m.tdiv unit + m.tmod unit = m := Int.mul_tdiv_add_tmod m unit
  have hlow : -unit < m.tmod unit := Int.lt_tmod_of_pos m hunit
  have hhigh : m.tmod unit < unit := Int.tmod_lt_of_pos m hunit
  rcases le_total 0 m with hm | hm
  · have hkept : 0 ≤ m.tdiv unit := Int.tdiv_nonneg hm hunit.le
    have hrest : 0 ≤ m.tmod unit := Int.tmod_nonneg unit hm
    rw [abs_of_nonneg hkept] at hlead
    rw [abs_of_nonneg hm]
    split
    case isTrue hup =>
      have hgain : (m.tdiv unit + 1) * unit - m = unit - m.tmod unit := by linarith
      rw [hgain, abs_of_pos (sub_pos.mpr hhigh)]
      nlinarith
    case isFalse =>
      have hloss : m.tdiv unit * unit - m = -m.tmod unit := by linarith
      rw [hloss, abs_neg, abs_of_nonneg hrest]
      nlinarith
  · have hkept : m.tdiv unit ≤ 0 := by
      have := Int.tdiv_nonneg (neg_nonneg.mpr hm) hunit.le
      rwa [Int.neg_tdiv, neg_nonneg] at this
    have hrest : m.tmod unit ≤ 0 := by
      have := Int.tmod_nonneg unit (neg_nonneg.mpr hm)
      rwa [Int.neg_tmod, neg_nonneg] at this
    have hloss : m.tdiv unit * unit - m = -m.tmod unit := by linarith
    rw [abs_of_nonpos hkept] at hlead
    rw [abs_of_nonpos hm, if_neg (by linarith), hloss, abs_neg, abs_of_nonpos hrest]
    nlinarith

/-- What is kept of a mantissa of more than `digits` digits has `digits` digits. -/
theorem pow_le_natAbs_tdiv {m : Int} (h : digits + 1 < digitCount m.natAbs) :
    10 ^ digits ≤ (m.tdiv (10 ^ (digitCount m.natAbs - (digits + 1)))).natAbs := by
  obtain ⟨count, hcount⟩ := Nat.exists_eq_add_of_lt (digitCount_pos m.natAbs)
  rw [Nat.zero_add] at hcount
  have hm : 0 < m.natAbs := by
    by_contra hzero
    rw [Nat.eq_zero_of_not_pos hzero, digitCount] at h
    simp at h
  rw [Int.natAbs_tdiv, Int.natAbs_pow]
  refine (Nat.le_div_iff_mul_le (by positivity)).mpr ?_
  calc 10 ^ digits * 10 ^ (digitCount m.natAbs - (digits + 1)) = 10 ^ count := by
        rw [← Nat.pow_add]
        congr 1
        omega
    _ ≤ m.natAbs := pow_le_of_digitCount hm hcount

theorem ten_zpow_neg_sub_natCast (scale : Int) (dropped : Nat) :
    (10 : ℚ) ^ (-(scale - dropped)) = 10 ^ dropped * 10 ^ (-scale) := by
  rw [ten_zpow_neg_sub, zpow_neg _ (dropped : Int), zpow_natCast, div_inv_eq_mul, mul_comm]

/-- A number cut to `digits + 1` digits has lost less than one part in `10 ^ digits + 1`. -/
theorem withPrecision_near (digits : Nat) (x : Decimal) :
    Near (1 / (10 ^ digits + 1)) (x.withPrecision (digits + 1)).value x.value := by
  rw [withPrecision]
  split
  case isTrue hlong =>
    have hlead : (10 ^ digits : Int) ≤
        |x.mantissa.tdiv (10 ^ (digitCount x.mantissa.natAbs - (digits + 1)))| := by
      rw [Int.abs_eq_natAbs]
      exact_mod_cast pow_le_natAbs_tdiv hlong
    have hcut := cut_le (by positivity) (by positivity) hlead
    generalize digitCount x.mantissa.natAbs - (digits + 1) = dropped at hcut ⊢
    have hmantissa : Near (1 / (10 ^ digits + 1))
        ((if (10 : Int) ^ dropped ≤ 2 * x.mantissa.tmod (10 ^ dropped)
          then x.mantissa.tdiv (10 ^ dropped) + 1 else x.mantissa.tdiv (10 ^ dropped) : Int)
          * 10 ^ dropped) x.mantissa := by
      have hparts : (0 : ℚ) < 10 ^ digits + 1 := by positivity
      rw [Near, one_div, ← div_eq_inv_mul, le_div_iff₀ hparts]
      exact_mod_cast hcut
    convert hmantissa.mul_left (10 ^ (-x.scale)) using 1
    · rw [value, ten_zpow_neg_sub_natCast, mul_comm (10 ^ (-x.scale)), ← mul_assoc]
      rfl
    · rw [value, mul_comm]
  case isFalse hshort =>
    generalize digits + 1 - digitCount x.mantissa.natAbs = added
    change Near _ (⟨x.mantissa * 10 ^ added, x.scale + added⟩ : Decimal).value x.value
    rw [value_append_zeros]
    exact .refl (by positivity) _

end ChainIngest.Decimal
