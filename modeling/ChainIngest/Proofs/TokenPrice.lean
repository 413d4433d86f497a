import Mathlib.Data.Int.ConditionallyCompleteOrder
import ChainIngest.Price
import ChainIngest.Proofs.DecimalRounding

/-!
The token's price: how close it is to the exact one, and when it vanishes
(`Price.derived_price_accurate`).
-/

namespace ChainIngest.Price

open Decimal (Near quotientError)

theorem value_ofOracleAnswer (answer : BitVec 256) :
    (ofOracleAnswer answer).value = answer.toInt * 10 ^ (-6 : ℤ) := rfl

theorem value_poolUnit : poolUnit.value = 2 ^ 192 := by
  rw [poolUnit, Decimal.value_ofInt]
  change ((2 ^ 192 : Int) : ℚ) = 2 ^ 192
  push_cast
  rfl

/-- The price of a pool, unless it is exact, is rounded once. -/
theorem ofPool_near (s : BitVec 256) :
    Near quotientError (ofPool s).value (s.toNat ^ 2 / 2 ^ 192) := by
  have hunit : poolUnit.value ≠ 0 := by
    rw [value_poolUnit]
    positivity
  have hsquare : ((Decimal.ofInt s.toNat).mul (Decimal.ofInt s.toNat)).value = s.toNat ^ 2 := by
    rw [Decimal.value_mul, Decimal.value_ofInt, Int.cast_natCast, sq]
  have hnear := Decimal.div_near ((Decimal.ofInt s.toNat).mul (Decimal.ofInt s.toNat)) hunit
  rwa [hsquare, value_poolUnit] at hnear

theorem quotientError_lt_one : quotientError < 1 := by norm_num [quotientError]

theorem ofPool_eq_zero_iff {s : BitVec 256} : (ofPool s).value = 0 ↔ s = 0 := by
  rw [(ofPool_near s).eq_zero_iff quotientError_lt_one, div_eq_zero_iff]
  simp [BitVec.toNat_eq]

theorem ofOracleAnswer_eq_zero_iff {answer : BitVec 256} :
    (ofOracleAnswer answer).value = 0 ↔ answer = 0 := by
  rw [Decimal.value_eq_zero_iff]
  exact (BitVec.toInt_inj : answer.toInt = (0#256).toInt ↔ answer = 0#256)

theorem derive_of_zero {native pool : Decimal} (h : native.value = 0 ∨ pool.value = 0) :
    derive native pool = .zero :=
  if_pos (by simpa [Decimal.isZero_iff] using h.symm)

theorem derive_of_ne_zero {native pool : Decimal} (hnative : native.value ≠ 0)
    (hpool : pool.value ≠ 0) :
    derive native pool = (native.div pool).withPrecision derivedDigits :=
  if_neg (by simp [Decimal.isZero_iff, hnative, hpool])

/-- A derived price is rounded three times: in the pool's price, in the quotient by it and in the
cut to eighteen digits. -/
theorem derive_near {native : Decimal} (hnative : native.value ≠ 0) (hs : s ≠ 0) :
    Near (10 ^ (-17 : ℤ)) (derive native (ofPool s)).value
      (native.value * 2 ^ 192 / s.toNat ^ 2) := by
  have hpool : (ofPool s).value ≠ 0 := fun h => hs (ofPool_eq_zero_iff.mp h)
  have hexact : (s.toNat ^ 2 / 2 ^ 192 : ℚ) ≠ 0 := fun h =>
    hpool (((ofPool_near s).eq_zero_iff quotientError_lt_one).mpr h)
  have hroot := (ofPool_near s).div_right quotientError_lt_one hexact native.value
  have hquotient := (Decimal.div_near native hpool).trans hroot Decimal.quotientError_pos.le
  have hcut := Decimal.withPrecision_near 17 (native.div (ofPool s))
  rw [derive_of_ne_zero hnative hpool, ← div_div_eq_mul_div]
  exact (hcut.trans hquotient (by positivity)).mono (by norm_num [quotientError])

/-- A price that is derived from what is not zero is not zero. -/
theorem derive_value_ne_zero {native : Decimal} (hnative : native.value ≠ 0) {s : BitVec 256}
    (hs : s ≠ 0) : (derive native (ofPool s)).value ≠ 0 := by
  have hpos : 0 < s.toNat := Nat.pos_of_ne_zero fun h => hs (BitVec.toNat_inj.mp h)
  rw [Ne, (derive_near hnative hs).eq_zero_iff (by norm_num)]
  positivity

/-- The fallback takes the place of a derived price only if there is nothing to derive it from. -/
theorem orFallback_derive (answer s : BitVec 256) (fallback : Decimal) :
    orFallback fallback (derive (ofOracleAnswer answer) (ofPool s)) =
      if answer = 0 ∨ s = 0 then fallback else derive (ofOracleAnswer answer) (ofPool s) := by
  split
  case isTrue hzero =>
    rw [derive_of_zero (hzero.imp ofOracleAnswer_eq_zero_iff.mpr ofPool_eq_zero_iff.mpr)]
    rfl
  case isFalse hpriced =>
    obtain ⟨hanswer, hs⟩ := not_or.mp hpriced
    have hprice := derive_value_ne_zero (mt ofOracleAnswer_eq_zero_iff.mp hanswer) hs
    exact if_neg (mt Decimal.isZero_iff.mp hprice)

theorem sign_exact (answer : BitVec 256) {s : BitVec 256} (hs : s ≠ 0) :
    SignType.sign ((ofOracleAnswer answer).value * 2 ^ 192 / s.toNat ^ 2)
      = SignType.sign answer.toInt := by
  have hpos : 0 < s.toNat := Nat.pos_of_ne_zero fun h => hs (BitVec.toNat_inj.mp h)
  have hfactor : (0 : ℚ) < 10 ^ (-6 : ℤ) * 2 ^ 192 / s.toNat ^ 2 := by positivity
  calc SignType.sign ((ofOracleAnswer answer).value * 2 ^ 192 / s.toNat ^ 2)
      = SignType.sign ((answer.toInt : ℚ) * (10 ^ (-6 : ℤ) * 2 ^ 192 / s.toNat ^ 2)) := by
        rw [value_ofOracleAnswer, mul_assoc, mul_div_assoc]
    _ = SignType.sign answer.toInt := by rw [sign_mul, sign_pos hfactor, mul_one, sign_intCast]

/-- The token's price has the sign of the oracle's answer and eighteen right digits. It is zero, and
the fallback takes its place, only for an answer of zero or an empty pool. -/
theorem derived_price_accurate (answer s : BitVec 256) (fallback : Decimal) :
    let native := ofOracleAnswer answer
    let price := derive native (ofPool s)
    let exact : ℚ := answer.toInt * 10 ^ (-6 : ℤ) * 2 ^ 192 / s.toNat ^ 2
    native.value = answer.toInt * 10 ^ (-6 : ℤ) ∧
      if answer = 0 ∨ s = 0 then price.value = 0 ∧ orFallback fallback price = fallback
      else price.value ≠ 0 ∧ orFallback fallback price = price ∧
        SignType.sign price.value = SignType.sign answer.toInt ∧
        |price.value - exact| ≤ 10 ^ (-17 : ℤ) * |exact| := by
  intro native price exact
  refine ⟨value_ofOracleAnswer answer, ?_⟩
  split
  case isTrue hzero =>
    have hprice : price = .zero := derive_of_zero
      (hzero.imp ofOracleAnswer_eq_zero_iff.mpr ofPool_eq_zero_iff.mpr)
    rw [hprice]
    exact ⟨Decimal.value_eq_zero_iff.mpr rfl, rfl⟩
  case isFalse hpriced =>
    obtain ⟨hanswer, hs⟩ := not_or.mp hpriced
    have hnative : native.value ≠ 0 := fun h => hanswer (ofOracleAnswer_eq_zero_iff.mp h)
    have hnear : Near (10 ^ (-17 : ℤ)) price.value exact := derive_near hnative hs
    have hsign : SignType.sign price.value = SignType.sign answer.toInt :=
      (hnear.sign_eq (by norm_num)).trans (sign_exact answer hs)
    have hprice : price.value ≠ 0 := by
      intro h
      rw [h, sign_zero, eq_comm, sign_eq_zero_iff] at hsign
      exact hanswer (BitVec.toInt_inj.mp hsign)
    exact ⟨hprice, if_neg (fun h => hprice (Decimal.isZero_iff.mp h)), hsign, hnear⟩

end ChainIngest.Price
