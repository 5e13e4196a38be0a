/-
# Integer types and their shifts

An integer type is a size in bytes, with a sign or without. Its values are
words, and a conversion keeps a value modulo what the target can hold. An
operation on a type smaller than `int` is made in `int` and converted back; for
a shift that makes no difference: it is the shift of the word, to the right with
the sign or with zeros (`shl_eq`, `shr_eq`).
-/
import Mathlib.Algebra.Group.Nat.Defs

structure IntType where
  size : ℕ
  signed : Bool
  size_pos : 0 < size := by decide
  deriving DecidableEq, Repr

namespace IntType

variable (F G : IntType)

def width : ℕ := 8 * F.size

abbrev Value : Type := BitVec F.width

def convert (x : F.Value) : G.Value := if F.signed then x.signExtend G.width else x.setWidth G.width

def int : IntType where
  size := 4
  signed := true

/-- The type in which an operation on values of `F` is made. -/
def promoted : IntType := if F.size < int.size then int else F

/-- `x <<= n`; undefined unless `n` is less than the width of the promoted type. -/
def shl (x : F.Value) (n : ℕ) : F.Value := F.promoted.convert F (F.convert F.promoted x <<< n)

/-- `x >>= n`, likewise. -/
def shr (x : F.Value) (n : ℕ) : F.Value :=
  let y := F.convert F.promoted x
  F.promoted.convert F (if F.promoted.signed then y.sshiftRight n else y >>> n)

/-! ### Conversion -/

variable {F G}

theorem convert_self (x : F.Value) : F.convert F x = x := by
  unfold convert
  split
  · exact BitVec.signExtend_eq x
  · exact BitVec.setWidth_eq x

/-- A bit of the source stays where it is. -/
theorem getLsbD_convert {x : F.Value} {i : ℕ} (hF : i < F.width) (hG : i < G.width) :
    (F.convert G x).getLsbD i = x.getLsbD i := by
  unfold convert
  split
  · rw [BitVec.getLsbD_signExtend, decide_eq_true hG, Bool.true_and, if_pos hF]
  · rw [BitVec.getLsbD_setWidth, decide_eq_true hG, Bool.true_and]

/-- Above the source stands its sign. -/
theorem getLsbD_convert_of_ge {x : F.Value} {i : ℕ} (hF : F.width ≤ i) (hG : i < G.width) :
    (F.convert G x).getLsbD i = (F.signed && x.msb) := by
  unfold convert
  split
  · next hs =>
    rw [BitVec.getLsbD_signExtend, decide_eq_true hG, if_neg (Nat.not_lt.mpr hF), hs]
  · next hs =>
    rw [BitVec.getLsbD_setWidth, BitVec.getLsbD_of_ge x i hF, Bool.and_false, eq_false_of_ne_true hs,
      Bool.false_and]

/-! ### Shifts -/

theorem promoted_of_lt (h : F.size < int.size) : F.promoted = int := if_pos h

theorem promoted_of_ge (h : int.size ≤ F.size) : F.promoted = F := if_neg (Nat.not_lt.mpr h)

theorem width_lt (h : F.size < int.size) : F.width < int.width := by
  unfold width
  omega

theorem width_le_promoted : F.width ≤ F.promoted.width := by
  rcases Nat.lt_or_ge F.size int.size with h | h
  · rw [promoted_of_lt h]
    exact Nat.le_of_lt (width_lt h)
  · exact Nat.le_of_eq (congrArg width (promoted_of_ge h).symm)

/-- What is shifted in comes from the right, and what is above the word is cut off. -/
theorem shl_eq (x : F.Value) (n : ℕ) : F.shl x n = x <<< n := by
  unfold shl
  rcases Nat.lt_or_ge F.size int.size with h | h
  · have hw := width_lt h
    rw [promoted_of_lt h]
    apply BitVec.eq_of_getLsbD_eq
    intro i hi
    rw [getLsbD_convert (by omega) hi, BitVec.getLsbD_shiftLeft, BitVec.getLsbD_shiftLeft]
    by_cases hn : i < n
    · simp [hn]
    · rw [getLsbD_convert (by omega) (by omega), decide_eq_true hi, decide_eq_true (by omega : i < int.width)]
  · rw [promoted_of_ge h, convert_self, convert_self]

theorem getLsbD_sshiftRight_int (h : F.size < int.size) {x : F.Value} {n i : ℕ} (hi : i < F.width) :
    ((F.convert int x).sshiftRight n).getLsbD i =
      if n + i < F.width then x.getLsbD (n + i) else (F.signed && x.msb) := by
  have hw := width_lt h
  rw [BitVec.getLsbD_sshiftRight, decide_eq_false (by omega), Bool.not_false, Bool.true_and]
  by_cases hn : n + i < F.width
  · rw [if_pos (by omega), if_pos hn, getLsbD_convert hn (by omega)]
  · rw [if_neg hn]
    split
    · next hi => exact getLsbD_convert_of_ge (Nat.not_lt.mp hn) hi
    · rw [BitVec.msb_eq_getLsbD_last]
      exact getLsbD_convert_of_ge (by omega) (by omega)

/-- Above a word that is shorter than `int` the bits shifted in are its sign
already. -/
theorem shr_eq (x : F.Value) (n : ℕ) : F.shr x n = if F.signed then x.sshiftRight n else x >>> n := by
  unfold shr
  rcases Nat.lt_or_ge F.size int.size with h | h
  · have hw := width_lt h
    rw [promoted_of_lt h]
    apply BitVec.eq_of_getLsbD_eq
    intro i hi
    show (int.convert F ((F.convert int x).sshiftRight n)).getLsbD i = _
    rw [getLsbD_convert (by omega) hi, getLsbD_sshiftRight_int h hi]
    by_cases hs : F.signed
    · rw [if_pos hs, BitVec.getLsbD_sshiftRight, decide_eq_false (by omega), hs]
      simp only [Bool.not_false, Bool.true_and]
    · rw [if_neg hs, BitVec.getLsbD_ushiftRight, eq_false_of_ne_true hs, Bool.false_and]
      split
      · rfl
      · next hn => exact (BitVec.getLsbD_of_ge x _ (Nat.not_lt.mp hn)).symm
  · rw [promoted_of_ge h, convert_self, convert_self]

end IntType
