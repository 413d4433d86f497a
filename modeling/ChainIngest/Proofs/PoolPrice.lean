import Mathlib.Logic.Function.Iterate
import ChainIngest.Proofs.PriceOrder

/-!
The price of a pool: how close it is to the exact one, when it is exact, and how long the division
takes (`Price.pool_price_accurate`). The rounds of the division are counted on its two loops, which
run until they are done and know no bound of their own.
-/

namespace ChainIngest.Decimal

/-! ### Rounds of a division -/

theorem digitCount_append_digit (hq : 0 < q) (hdigit : digit < 10) :
    digitCount (q * 10 + digit) = digitCount q + 1 := by
  rw [digitCount, if_neg (by omega)]
  congr 2
  omega

namespace LongDivision

/-- Where a division stands: zeros are appended to the dividend, digits of the quotient are
produced, or neither any more. -/
inductive Stage where
  | growing (dividend : Nat) (scale : Int)
  | producing (d : LongDivision)
  | done (d : LongDivision)

/-- One round of the loop that is under way, or the way out of it. -/
def Stage.next (divisor : Nat) : Stage → Stage
  | .growing dividend scale =>
    if dividend ≠ 0 ∧ dividend < divisor then .growing (dividend * 10) (scale + 1)
    else .producing ⟨dividend / divisor, dividend % divisor, scale⟩
  | .producing d =>
    if d.remainder ≠ 0 ∧ digitCount d.quotient < quotientDigits then
      .producing ⟨d.quotient * 10 + d.remainder * 10 / divisor, d.remainder * 10 % divisor,
        d.scale + 1⟩
    else .done d
  | .done d => .done d

/-- A dividend is grown in as many rounds as it gets zeros. -/
theorem iterate_growing (dividend divisor : Nat) (scale : Int) :
    ∃ zeros : Nat, grow dividend divisor scale = (dividend * 10 ^ zeros, scale + zeros) ∧
      (Stage.next divisor)^[zeros] (.growing dividend scale) =
        .growing (dividend * 10 ^ zeros) (scale + zeros) := by
  fun_induction grow dividend divisor scale with
  | case1 dividend scale => exact ⟨0, by simp, by simp⟩
  | case2 dividend scale hsmall ih =>
    obtain ⟨zeros, hgrow, hrounds⟩ := ih
    have hdividend : dividend * 10 * 10 ^ zeros = dividend * 10 ^ (zeros + 1) := by
      rw [Nat.pow_succ', Nat.mul_assoc]
    have hscale : scale + 1 + (zeros : Int) = scale + (zeros + 1 : Nat) := by omega
    rw [hdividend, hscale] at hgrow hrounds
    refine ⟨zeros + 1, hgrow, ?_⟩
    rw [Function.iterate_succ_apply, Stage.next, if_pos (by omega)]
    exact hrounds

/-- A dividend gets no more zeros than the divisor has digits. -/
theorem zeros_le_digitCount {dividend divisor zeros : Nat} {scale : Int}
    (h : grow dividend divisor scale = (dividend * 10 ^ zeros, scale + zeros)) :
    zeros ≤ digitCount divisor := by
  rcases Nat.eq_zero_or_pos dividend with rfl | hpos
  · rw [grow, if_pos (.inl rfl), Prod.mk.injEq] at h
    omega
  · have hbound : 10 ^ zeros < 10 ^ (digitCount divisor + 1) := by
      have hdivisor : divisor < 10 ^ digitCount divisor := lt_pow_digitCount divisor
      have hsize := grow_eq_or_lt dividend divisor scale
      rw [h] at hsize
      rcases hsize with hsame | hsmall
      · have hone : 10 ^ zeros = 1 := Nat.eq_of_mul_eq_mul_left hpos (hsame.trans (Nat.mul_one _).symm)
        rw [hone]
        exact Nat.one_lt_pow (by omega) (by decide)
      · rw [Nat.pow_succ]
        have := Nat.le_mul_of_pos_left (10 ^ zeros) hpos
        omega
    exact Nat.lt_succ_iff.mp ((Nat.pow_lt_pow_iff_right (by decide)).mp hbound)

/-- Digits are produced until nothing remains or there are enough of them. -/
theorem iterate_producing {d : LongDivision} (hremainder : d.remainder < divisor)
    (hquotient : d.remainder ≠ 0 → 0 < d.quotient)
    (hroom : room = quotientDigits - digitCount d.quotient) :
    ∃ rounds ≤ room + 1, (Stage.next divisor)^[rounds] (.producing d) =
      .done (d.extend divisor room) := by
  induction room generalizing d with
  | zero =>
    refine ⟨1, Nat.le_refl _, ?_⟩
    rw [Function.iterate_one, Stage.next, if_neg (by omega), extend]
  | succ room ih =>
    rw [extend]
    split
    case isTrue hexact =>
      exact ⟨1, by omega, by rw [Function.iterate_one, Stage.next, if_neg (by simp [hexact])]⟩
    case isFalse hrest =>
      have hdivisor : 0 < divisor := Nat.zero_lt_of_lt hremainder
      have hcount := digitCount_append_digit (hquotient hrest) (nextDigit_lt hremainder)
      obtain ⟨rounds, hle, hrounds⟩ := ih (d := ⟨d.quotient * 10 + d.remainder * 10 / divisor,
        d.remainder * 10 % divisor, d.scale + 1⟩) (Nat.mod_lt _ hdivisor)
        (fun _ => Nat.add_pos_left (Nat.mul_pos (hquotient hrest) (by decide)) _)
        (by rw [hcount]; omega)
      refine ⟨rounds + 1, by omega, ?_⟩
      rw [Function.iterate_succ_apply, Stage.next, if_pos ⟨hrest, by omega⟩]
      exact hrounds

/-- A division is done after a number of rounds that the length of its divisor bounds, and its
quotient is the rounded one. -/
theorem division_done (dividend : Nat) (hdivisor : 0 < divisor) (scale : Int) :
    ∃ rounds ≤ digitCount divisor + quotientDigits + 1, ∃ d,
      (Stage.next divisor)^[rounds] (.growing dividend scale) = .done d ∧
      divMagnitudes dividend divisor scale = (d.rounded divisor, d.scale) := by
  obtain ⟨zeros, hgrow, hgrowing⟩ := iterate_growing dividend divisor scale
  have hzeros : zeros ≤ digitCount divisor := zeros_le_digitCount hgrow
  have hstart : start dividend divisor scale =
      ⟨dividend * 10 ^ zeros / divisor, dividend * 10 ^ zeros % divisor, scale + zeros⟩ := by
    rw [start, hgrow]
  have hgrown : dividend * 10 ^ zeros ≠ 0 → divisor ≤ dividend * 10 ^ zeros := by
    intro hne
    have hle : divisor ≤ (grow dividend divisor scale).1 :=
      le_grow (Nat.pos_of_ne_zero (left_ne_zero_of_mul hne))
    rwa [hgrow] at hle
  have hremainder : (start dividend divisor scale).remainder < divisor := by
    rw [hstart]
    exact Nat.mod_lt _ hdivisor
  have hquotient : (start dividend divisor scale).remainder ≠ 0 →
      0 < (start dividend divisor scale).quotient := by
    rw [hstart]
    intro hrest
    refine Nat.div_pos (hgrown fun hzero => hrest ?_) hdivisor
    simp [hzero]
  obtain ⟨rounds, hrounds, hproducing⟩ := iterate_producing hremainder hquotient rfl
  have hcount : 0 < digitCount (start dividend divisor scale).quotient := digitCount_pos _
  have hdigits : 0 < quotientDigits := by decide
  refine ⟨rounds + 1 + zeros, by omega, _, ?_, rfl⟩
  rw [Function.iterate_add_apply, hgrowing, Function.iterate_succ_apply, Stage.next,
    if_neg (by omega), ← hstart]
  exact hproducing

theorem extend_of_exact {d : LongDivision} (h : d.remainder = 0) (room : Nat) :
    d.extend divisor room = d := by
  cases room with
  | zero => rfl
  | succ room => rw [extend, if_pos h]

end LongDivision

/-- A multiple is divided without producing any digits after the first division. -/
theorem divMagnitudes_mul (factor : Nat) (hdivisor : 0 < divisor) (scale : Int) :
    divMagnitudes (factor * divisor) divisor scale = (factor, scale) := by
  have hgrow : LongDivision.grow (factor * divisor) divisor scale = (factor * divisor, scale) := by
    rw [LongDivision.grow]
    refine if_pos ?_
    rcases Nat.eq_zero_or_pos factor with rfl | hpos
    · exact .inl (Nat.zero_mul _)
    · exact .inr (Nat.le_mul_of_pos_left _ hpos)
  have hstart : LongDivision.start (factor * divisor) divisor scale = ⟨factor, 0, scale⟩ := by
    rw [LongDivision.start, hgrow]
    simp only [Nat.mul_div_cancel _ hdivisor, Nat.mul_mod_left]
  rw [divMagnitudes_eq, lastDivision, hstart, LongDivision.extend_of_exact rfl,
    LongDivision.rounded_of_exact rfl]

/-- A quotient by a whole number is the one that the division makes, also where it exits early. -/
theorem div_ofInt (m : Nat) {n : Nat} (hn : 0 < n) (scale : Int) :
    (⟨m, scale⟩ : Decimal).div (ofInt n) =
      ⟨(divMagnitudes m n scale).1, (divMagnitudes m n scale).2⟩ := by
  have hself (factor : Nat) (h : m = factor * n) : divMagnitudes m n scale = (factor, scale) :=
    h ▸ divMagnitudes_mul factor hn scale
  rw [div]
  split
  case isTrue hexit =>
    rcases Bool.or_eq_true _ _ ▸ hexit with hzero | hone
    · obtain rfl : m = 0 := by simpa [isZero] using hzero
      rw [hself 0 (Nat.zero_mul n).symm]
    · have hunit : n = 1 := by exact_mod_cast (value_ofInt n).symm.trans (value_of_isOne hone)
      rw [hself m (by rw [hunit, Nat.mul_one])]
  case isFalse hexit =>
    have hm : 0 < m := Nat.pos_of_ne_zero fun hzero => hexit (by simp [isZero, hzero])
    split
    case isTrue hsame =>
      have hsame : m = n := Int.ofNat.inj hsame
      rw [hself 1 (by rw [hsame, Nat.one_mul]), ofInt, Int.sub_zero]
      rfl
    case isFalse =>
      have hsign : (m : Int).sign * (n : Int).sign = 1 := by
        rw [Int.sign_eq_one_of_pos (by exact_mod_cast hm),
          Int.sign_eq_one_of_pos (by exact_mod_cast hn), one_mul]
      simp only [ofInt, Int.natAbs_natCast, Int.sub_zero, hsign, one_mul]

end ChainIngest.Decimal

namespace ChainIngest.Price

open Decimal (LongDivision rounded_value_of_lt roundsToInt_round quotientDigits)

theorem ofPool_eq_divMagnitudes (s : BitVec 256) :
    ofPool s = ⟨(Decimal.divMagnitudes (s.toNat ^ 2) (2 ^ 192) 0).1,
      (Decimal.divMagnitudes (s.toNat ^ 2) (2 ^ 192) 0).2⟩ := by
  have hsquare : (Decimal.ofInt s.toNat).mul (Decimal.ofInt s.toNat) =
      ⟨(s.toNat ^ 2 : Nat), 0⟩ := by
    simp [Decimal.mul, Decimal.ofInt, sq]
  have hunit : poolUnit = .ofInt (2 ^ 192 : Nat) := rfl
  rw [ofPool, hsquare, hunit, Decimal.div_ofInt _ (by norm_num)]

/-- The price of a pool is within one part in `10 ^ 99` of the exact one. It is zero only for a
root of zero, and exact if the exact one has at most a hundred significant digits. The division
that makes its digits is done after at most 159 rounds. -/
theorem pool_price_accurate (s : BitVec 256) :
    |(ofPool s).value * 2 ^ 192 - s.toNat ^ 2| * 10 ^ 99 ≤ (s.toNat : ℚ) ^ 2 ∧
    ((ofPool s).value = 0 ↔ s = 0) ∧
    ((∃ (digits : ℕ) (place : ℤ), digits < 10 ^ 100 ∧
        (s.toNat : ℚ) ^ 2 / 2 ^ 192 = digits * 10 ^ place) →
      (ofPool s).value = s.toNat ^ 2 / 2 ^ 192) ∧
    ∃ rounds ≤ 159, ∃ d, (LongDivision.Stage.next (2 ^ 192))^[rounds]
        (.growing (s.toNat ^ 2) 0) = .done d ∧
      ofPool s = ⟨d.rounded (2 ^ 192), d.scale⟩ := by
  set price : ℚ := (ofPool s).value
  set square : ℚ := (s.toNat : ℚ) ^ 2
  refine ⟨?_, ofPool_eq_zero_iff, ?_, ?_⟩
  · have hnear : |price - square / 2 ^ 192| ≤ 10 ^ (-99 : ℤ) * |square / 2 ^ 192| := ofPool_near s
    have hsquare : 0 ≤ square := by positivity
    have hscale : price * 2 ^ 192 - square = (price - square / 2 ^ 192) * 2 ^ 192 := by
      field_simp
    rw [abs_of_nonneg (div_nonneg hsquare (by norm_num))] at hnear
    calc |price * 2 ^ 192 - square| * 10 ^ 99
        = |price - square / 2 ^ 192| * 2 ^ 192 * 10 ^ 99 := by
          rw [hscale, abs_mul, abs_of_pos (by norm_num : (0 : ℚ) < 2 ^ 192)]
      _ ≤ 10 ^ (-99 : ℤ) * (square / 2 ^ 192) * 2 ^ 192 * 10 ^ 99 := by gcongr
      _ = square := by
          rw [zpow_neg]
          norm_cast
          field_simp
  · rintro ⟨digits, place, hlt, hdigits⟩
    have hvalue : square / 2 ^ 192 = (⟨digits, -place⟩ : Decimal).value := by
      rw [hdigits, Decimal.value, neg_neg, Int.cast_natCast]
    have hround : price = Decimal.rounded round round quotientDigits (square / 2 ^ 192) :=
      value_ofPool s
    rw [hround, hvalue]
    exact rounded_value_of_lt roundsToInt_round roundsToInt_round hlt
  · have hdivisor : 0 < 2 ^ 192 := by norm_num
    obtain ⟨rounds, hle, d, hdone, hquotient⟩ :=
      LongDivision.division_done (s.toNat ^ 2) hdivisor 0
    have hbound : Decimal.digitCount (2 ^ 192) + quotientDigits + 1 = 159 := by
      rw [Decimal.digitCount_eq, Nat.log_eq_of_pow_le_of_lt_pow (m := 57) (by norm_num)
        (by norm_num), quotientDigits]
    refine ⟨rounds, hbound ▸ hle, d, hdone, ?_⟩
    rw [ofPool_eq_divMagnitudes, hquotient]

/-- Nine over `2 ^ 64` has forty-six digits, and the price that comes to it has all of them. -/
theorem pool_price_exact_for_small_root :
    (9 * 5 ^ 64 < 10 ^ 100 ∧ ((0x30000000000000000#256).toNat : ℚ) ^ 2 / 2 ^ 192 =
      (9 * 5 ^ 64 : ℕ) * 10 ^ (-64 : ℤ)) ∧
    (ofPool 0x30000000000000000).value = ((0x30000000000000000#256).toNat : ℚ) ^ 2 / 2 ^ 192 := by
  have hdigits : 9 * 5 ^ 64 < 10 ^ 100 := by norm_num
  have hexact : ((0x30000000000000000#256).toNat : ℚ) ^ 2 / 2 ^ 192 =
      (9 * 5 ^ 64 : ℕ) * 10 ^ (-64 : ℤ) := by
    have hroot : (0x30000000000000000#256).toNat = 3 * 2 ^ 64 := by decide
    rw [hroot, zpow_neg]
    norm_num
  exact ⟨⟨hdigits, hexact⟩, (pool_price_accurate _).2.2.1 ⟨_, _, hdigits, hexact⟩⟩

end ChainIngest.Price
