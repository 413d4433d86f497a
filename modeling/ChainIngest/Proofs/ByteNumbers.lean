import Mathlib.Algebra.Group.Nat.Defs
import Mathlib.Data.List.Induction
import ChainIngest.Bytes

/-! Byte strings are the bytes in them, and numbers written as bytes are read back. -/

namespace ChainIngest.Bytes

theorem ext {a b : Bytes n} (h : a.toList = b.toList) : a = b := by
  cases a
  cases b
  cases h
  rfl

theorem natOf_append_singleton (bytes : List UInt8) (byte : UInt8) :
    natOf (bytes ++ [byte]) = natOf bytes * 256 + byte.toNat := by
  rw [natOf, List.foldl_append]
  rfl

theorem natOf_lt (bytes : List UInt8) : natOf bytes < 256 ^ bytes.length := by
  induction bytes using List.reverseRecOn with
  | nil => decide
  | append_singleton bytes byte ih =>
    have hbyte : byte.toNat < 256 := byte.toNat_lt
    rw [natOf_append_singleton, List.length_append, List.length_singleton, Nat.pow_succ]
    omega

theorem natOf_natBytes (h : value < 256 ^ count) : natOf (natBytes count value) = value := by
  induction count generalizing value with
  | zero =>
    rw [Nat.pow_zero, Nat.lt_one_iff] at h
    rw [h]
    rfl
  | succ count ih =>
    have hdiv : value / 256 < 256 ^ count := by
      rw [Nat.pow_succ] at h
      exact Nat.div_lt_of_lt_mul (Nat.mul_comm .. ▸ h)
    rw [natBytes, natOf_append_singleton, ih hdiv, UInt8.toNat_ofNat']
    exact Nat.div_add_mod' value 256

theorem toNat_ofNat (h : value < 256 ^ n) : (ofNat n value).toNat = value := natOf_natBytes h

end ChainIngest.Bytes
