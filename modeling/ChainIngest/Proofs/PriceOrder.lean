import ChainIngest.Proofs.SignificantDigits
import ChainIngest.Proofs.TokenPrice

/-!
Prices keep the order of what they are made from, through all roundings
(`Price.prices_keep_order`).
-/

namespace ChainIngest.Price

open Decimal (rounded rounded_mono rounded_zero roundsToInt_floor roundsToInt_round quotientDigits)

/-- The price of a pool has the hundred digits of the exact one. -/
theorem value_ofPool (s : BitVec 256) :
    (ofPool s).value = rounded round round quotientDigits (s.toNat ^ 2 / 2 ^ 192) := by
  have hunit : poolUnit.value ≠ 0 := by
    rw [value_poolUnit]
    positivity
  have hlong : ((Decimal.ofInt s.toNat).mul (Decimal.ofInt s.toNat)).mantissa.natAbs <
      10 ^ quotientDigits * poolUnit.mantissa.natAbs := by
    have hsquare : s.toNat * s.toNat < 2 ^ 256 * 2 ^ 256 := Nat.mul_self_lt_mul_self s.isLt
    have hroom : (2 ^ 256 * 2 ^ 256 : ℕ) ≤ 10 ^ quotientDigits * 2 ^ 192 := by
      norm_num [quotientDigits]
    exact hsquare.trans_le hroom
  have hone : ¬poolUnit.isOne := by
    intro h
    have := Decimal.value_of_isOne h
    rw [value_poolUnit] at this
    norm_num at this
  rw [ofPool, Decimal.value_div hunit hlong fun h => absurd h hone, Decimal.value_mul,
    Decimal.value_ofInt, value_poolUnit, Int.cast_natCast, sq]

/-- A derived price is rounded in the quotient and in the cut to eighteen digits. -/
theorem value_derive (answer : BitVec 256) {pool : Decimal} (hpool : pool.value ≠ 0) :
    (derive (ofOracleAnswer answer) pool).value =
      rounded round Int.floor derivedDigits
        (rounded round round quotientDigits ((ofOracleAnswer answer).value / pool.value)) := by
  by_cases hnative : (ofOracleAnswer answer).value = 0
  · rw [derive_of_zero (.inl hnative), hnative, zero_div, rounded_zero roundsToInt_round,
      rounded_zero roundsToInt_round]
    exact Decimal.value_eq_zero_iff.mpr rfl
  · have hshort : (ofOracleAnswer answer).mantissa.natAbs < 10 ^ quotientDigits := by
      have hlow := BitVec.le_toInt answer
      have hhigh := BitVec.toInt_lt (x := answer)
      have hroom : (2 ^ 255 : ℕ) < 10 ^ quotientDigits := by norm_num [quotientDigits]
      refine lt_of_le_of_lt ?_ hroom
      change answer.toInt.natAbs ≤ _
      omega
    have hpos : 0 < pool.mantissa.natAbs :=
      Int.natAbs_pos.mpr (mt Decimal.value_eq_zero_iff.mpr hpool)
    have hlong := hshort.trans_le (Nat.le_mul_of_pos_right _ hpos)
    rw [derive_of_ne_zero hnative hpool, derivedDigits, Decimal.value_withPrecision,
      Decimal.value_div hpool hlong fun _ => hshort]

theorem ofPool_mono {s t : BitVec 256} (h : s ≤ t) : (ofPool s).value ≤ (ofPool t).value := by
  rw [value_ofPool, value_ofPool]
  apply rounded_mono roundsToInt_round roundsToInt_round (by decide)
  have hroot : (s.toNat : ℚ) ≤ t.toNat := by exact_mod_cast BitVec.le_def.mp h
  gcongr

theorem ofPool_nonneg (s : BitVec 256) : 0 ≤ (ofPool s).value := by
  have hempty : (ofPool 0).value = 0 := ofPool_eq_zero_iff.mpr rfl
  exact hempty ▸ ofPool_mono (BitVec.le_def.mpr (Nat.zero_le _))

theorem ofPool_pos {s : BitVec 256} (hs : 0 < s) : 0 < (ofPool s).value := by
  refine lt_of_le_of_ne (ofPool_nonneg s) fun hzero => ?_
  rw [ofPool_eq_zero_iff.mp hzero.symm] at hs
  exact absurd hs (by decide)

/-- Two roundings, of the quotient and of the cut, that both keep the order. -/
theorem derive_mono {answer answer' : BitVec 256} {pool pool' : Decimal} (hpool : pool.value ≠ 0)
    (hpool' : pool'.value ≠ 0)
    (h : (ofOracleAnswer answer).value / pool.value ≤
      (ofOracleAnswer answer').value / pool'.value) :
    (derive (ofOracleAnswer answer) pool).value ≤
      (derive (ofOracleAnswer answer') pool').value := by
  rw [value_derive answer hpool, value_derive answer' hpool']
  apply rounded_mono roundsToInt_round roundsToInt_floor (by decide)
  exact rounded_mono roundsToInt_round roundsToInt_round (by decide) h

theorem ofOracleAnswer_mono {a b : BitVec 256} (h : a.toInt ≤ b.toInt) :
    (ofOracleAnswer a).value ≤ (ofOracleAnswer b).value := by
  have hcast : (a.toInt : ℚ) ≤ b.toInt := by exact_mod_cast h
  rw [value_ofOracleAnswer, value_ofOracleAnswer]
  gcongr

/-- A pool's price grows with its square root. The token's price grows with the oracle's answer and,
for an answer that is not negative, falls as the pool's price grows. -/
theorem prices_keep_order :
    (∀ s t : BitVec 256, s ≤ t → (ofPool s).value ≤ (ofPool t).value) ∧
    (∀ a b s : BitVec 256, a.toInt ≤ b.toInt →
      (derive (ofOracleAnswer a) (ofPool s)).value ≤
        (derive (ofOracleAnswer b) (ofPool s)).value) ∧
    (∀ a s t : BitVec 256, 0 ≤ a.toInt → 0 < s → s ≤ t →
      (derive (ofOracleAnswer a) (ofPool t)).value ≤
        (derive (ofOracleAnswer a) (ofPool s)).value) := by
  refine ⟨fun s t => ofPool_mono, fun a b s h => ?_, fun a s t ha hs hst => ?_⟩
  · by_cases hpool : (ofPool s).value = 0
    · rw [derive_of_zero (.inr hpool), derive_of_zero (.inr hpool)]
    · exact derive_mono hpool hpool
        (div_le_div_of_nonneg_right (ofOracleAnswer_mono h) (ofPool_nonneg s))
  · have hpool : 0 < (ofPool s).value := ofPool_pos hs
    have hgrows : (ofPool s).value ≤ (ofPool t).value := ofPool_mono hst
    have hnative : 0 ≤ (ofOracleAnswer a).value := by
      rw [value_ofOracleAnswer]
      exact mul_nonneg (Int.cast_nonneg ha) (Decimal.ten_zpow_pos _).le
    exact derive_mono (hpool.trans_le hgrows).ne' hpool.ne'
      (div_le_div_of_nonneg_left hnative hpool hgrows)

/-- Neighbouring answers, and neighbouring square roots at a price of one and just below it. -/
theorem prices_keep_order_at_neighbours :
    (0xffffffffffffffffffffffff#256 ≤ 0x1000000000000000000000000#256 ∧
      (ofPool 0xffffffffffffffffffffffff).value ≤ (ofPool 0x1000000000000000000000000).value) ∧
    ((-350000000001 : BitVec 256).toInt ≤ (-350000000000 : BitVec 256).toInt ∧
      (derive (ofOracleAnswer (-350000000001)) (ofPool 0x1000000000000000000000000)).value ≤
        (derive (ofOracleAnswer (-350000000000)) (ofPool 0x1000000000000000000000000)).value) ∧
    (0 ≤ (350000000000 : BitVec 256).toInt ∧ 0 < 0xffffffffffffffffffffffff#256 ∧
      (derive (ofOracleAnswer 350000000000) (ofPool 0x1000000000000000000000000)).value ≤
        (derive (ofOracleAnswer 350000000000) (ofPool 0xffffffffffffffffffffffff)).value) := by
  obtain ⟨hpool, hanswer, hroot⟩ := prices_keep_order
  have hroots : 0xffffffffffffffffffffffff#256 ≤ 0x1000000000000000000000000#256 := by decide
  have hanswers : (-350000000001 : BitVec 256).toInt ≤ (-350000000000 : BitVec 256).toInt := by
    decide
  have hpositive : 0 ≤ (350000000000 : BitVec 256).toInt := by decide
  have hpriced : 0 < 0xffffffffffffffffffffffff#256 := by decide
  exact ⟨⟨hroots, hpool _ _ hroots⟩, ⟨hanswers, hanswer _ _ _ hanswers⟩,
    hpositive, hpriced, hroot _ _ _ hpositive hpriced hroots⟩

end ChainIngest.Price
