/-
# `int` and `size_t`

An `int` is a word of 32 bits read with a sign, a `size_t` a word of 64 bits
read without. A number that both can hold is the same in both.
-/
import Mathlib.Algebra.Group.Nat.Defs
import Mathlib.Data.Int.Basic

namespace Ints

variable {x : BitVec 32}

theorem msb_false_of_nonneg (h : 0 ≤ x.toInt) : x.msb = false := by
  rw [BitVec.msb_eq_false_iff_two_mul_lt]
  rw [BitVec.toInt_eq_toNat_cond] at h
  split at h <;> omega

theorem toInt_of_nonneg (h : 0 ≤ x.toInt) : x.toInt = x.toNat :=
  BitVec.toInt_eq_toNat_of_msb (msb_false_of_nonneg h)

/-- A non-negative `int` converted to `size_t`. -/
theorem toNat_signExtend (h : 0 ≤ x.toInt) : (x.signExtend 64).toNat = x.toNat := by
  rw [BitVec.signExtend_eq_setWidth_of_msb_false (msb_false_of_nonneg h), BitVec.toNat_setWidth]
  have := x.isLt
  omega

/-- A negative one becomes a very large `size_t`. -/
theorem le_toNat_signExtend (h : x.toInt < 0) : 2 ^ 64 - 2 ^ 31 ≤ (x.signExtend 64).toNat := by
  have hmsb : x.msb = true := by
    rw [BitVec.msb_eq_true_iff_two_mul_ge]
    rw [BitVec.toInt_eq_toNat_cond] at h
    split at h <;> omega
  have hx : 2 ^ 31 ≤ x.toNat := by
    have := BitVec.msb_eq_true_iff_two_mul_ge.mp hmsb
    omega
  rw [BitVec.toNat_signExtend, if_pos hmsb, BitVec.toNat_setWidth]
  omega

/-- An `int` survives `size_t`. -/
theorem setWidth_signExtend (x : BitVec 32) : (x.signExtend 64).setWidth 32 = x := by
  apply BitVec.eq_of_toNat_eq
  rw [BitVec.toNat_setWidth, BitVec.toNat_signExtend, BitVec.toNat_setWidth]
  have := x.isLt
  split <;> omega

theorem toInt_ofNat_of_lt {n : ℕ} (h : n < 2 ^ 31) : (BitVec.ofNat 32 n).toInt = n := by
  rw [BitVec.toInt_ofNat', Int.bmod_eq_of_le] <;> omega

/-- What a shorter word keeps of a number it keeps of a longer one. -/
theorem setWidth_ofInt {m n : ℕ} (h : m ≤ n) (z : ℤ) : (BitVec.ofInt n z).setWidth m = BitVec.ofInt m z := by
  apply BitVec.eq_of_toNat_eq
  have hdvd : ((2 ^ m : ℕ) : ℤ) ∣ ((2 ^ n : ℕ) : ℤ) := Int.natCast_dvd_natCast.mpr (Nat.pow_dvd_pow 2 h)
  have hpos : (0 : ℤ) ≤ z % ((2 ^ n : ℕ) : ℤ) := Int.emod_nonneg _ (by have := Nat.two_pow_pos n; omega)
  have hpos' : (0 : ℤ) ≤ z % ((2 ^ m : ℕ) : ℤ) := Int.emod_nonneg _ (by have := Nat.two_pow_pos m; omega)
  rw [BitVec.toNat_setWidth, BitVec.toNat_ofInt, BitVec.toNat_ofInt]
  apply Int.ofNat.inj
  show (((z % ((2 ^ n : ℕ) : ℤ)).toNat % 2 ^ m : ℕ) : ℤ) = _
  rw [Int.natCast_emod, Int.toNat_of_nonneg hpos, Int.emod_emod_of_dvd z hdvd]
  exact (Int.toNat_of_nonneg hpos').symm

end Ints
