/-
# A byte range of an integer

`integral<T>::at<position>` moves byte `position` of a value to the top, moves
what is then the top down again, and converts. It is meant to give the bytes of
`T` that end at that byte, as a value with zeros above them (`bytesAt`). It does
so for an unsigned source; from a signed one the way down brings copies of the
top bit along, which show in the result when `T` is wider than the bytes there
are below `position` (`getLsbD_integralAt`).

Key definitions: `integralAt`, `bytesAt`.
Key theorems: `getLsbD_integralAt`, `getLsbD_bytesAt`, `integralAt_eq_bytesAt_iff`.
-/
import Viu.Lib.Bytes
import Viu.Lib.Integers

namespace Viu

/-- `std::uint8_t`. -/
def uint8 : IntType where
  size := 1
  signed := false

/-- `std::uint16_t`. -/
def uint16 : IntType where
  size := 2
  signed := false

/-- `std::int16_t`. -/
def int16 : IntType where
  size := 2
  signed := true

variable (F T : IntType)

/-- `std::numeric_limits<std::uint8_t>::digits`. -/
def bits : ℕ := 8

/-- `integral<T>::at<position>(from)` for a `from` of type `F`. That `T` is not
larger than `F`, and `position` a byte of it, is asserted when it is compiled. -/
def integralAt (position : ℕ) (value : F.Value) : T.Value :=
  let byteLeftShiftCount := F.size - (position + 1)
  let byteRightShiftCount := F.size - min T.size (position + 1)
  F.convert T (F.shr (F.shl value (byteLeftShiftCount * bits)) (byteRightShiftCount * bits))

/-- The bytes of `T` that end at byte `position`, as many as there are, with
zeros above them. -/
def bytesAt (position : ℕ) (value : F.Value) : T.Value :=
  Bytes.load .little T.width <|
    ((Bytes.store .little value).take (position + 1)).drop (position + 1 - min T.size (position + 1))

variable {F T}

/-- Neither shift is by the width of the type it is made in, or by more. -/
theorem shift_lt_width {position size : ℕ} (hp : position < F.size) (hs : 0 < size) :
    (F.size - (position + 1)) * bits < F.promoted.width ∧
      (F.size - min size (position + 1)) * bits < F.promoted.width := by
  have hw : F.width ≤ F.promoted.width := F.width_le_promoted
  unfold IntType.width bits at *
  omega

/-- What `at` returns, bit by bit: the bytes, and above them the top bit of the
last if the source is signed. -/
theorem getLsbD_integralAt (hT : T.size ≤ F.size) {position : ℕ} (hp : position < F.size)
    (x : F.Value) {j : ℕ} (hj : j < T.width) :
    (integralAt F T position x).getLsbD j =
      if j < 8 * min T.size (position + 1) then
        x.getLsbD (8 * (position + 1 - min T.size (position + 1)) + j)
      else (F.signed && x.getLsbD (8 * position + 7)) := by
  have hw : F.width = 8 * F.size := rfl
  have hF : j < F.width := by
    unfold IntType.width at *
    omega
  let l := (F.size - (position + 1)) * bits
  let r := (F.size - min T.size (position + 1)) * bits
  have hl : l = 8 * (F.size - (position + 1)) := Nat.mul_comm ..
  have hr : r = 8 * (F.size - min T.size (position + 1)) := Nat.mul_comm ..
  -- the bit that comes down to `j`, and the one that stands at the top in between
  have hdown : r + j < F.width →
      (x <<< l).getLsbD (r + j) = x.getLsbD (8 * (position + 1 - min T.size (position + 1)) + j) := by
    intro h
    rw [BitVec.getLsbD_shiftLeft, decide_eq_true h, decide_eq_false (by omega), Bool.not_false,
      Bool.true_and, Bool.true_and]
    congr 1
    omega
  have htop : (x <<< l).msb = x.getLsbD (8 * position + 7) := by
    rw [BitVec.msb_eq_getLsbD_last, BitVec.getLsbD_shiftLeft, decide_eq_true (by omega),
      decide_eq_false (by omega), Bool.not_false, Bool.true_and, Bool.true_and]
    congr 1
    omega
  show (F.convert T (F.shr (F.shl x l) r)).getLsbD j = _
  rw [IntType.getLsbD_convert hF hj, IntType.shl_eq, IntType.shr_eq]
  by_cases hs : F.signed
  · rw [if_pos hs, BitVec.getLsbD_sshiftRight, decide_eq_false (Nat.not_le.mpr hF), htop, hs]
    by_cases hm : j < 8 * min T.size (position + 1)
    · rw [if_pos (by omega), if_pos hm, hdown (by omega), Bool.not_false, Bool.true_and]
    · rw [if_neg (by omega), if_neg hm, Bool.not_false]
  · rw [if_neg hs, BitVec.getLsbD_ushiftRight, eq_false_of_ne_true hs, Bool.false_and]
    by_cases hm : j < 8 * min T.size (position + 1)
    · rw [if_pos hm, hdown (by omega)]
    · rw [if_neg hm]
      exact BitVec.getLsbD_of_ge _ _ (by omega)

theorem getLsbD_bytesAt {position : ℕ} (hp : position < F.size) (x : F.Value) {j : ℕ} (hj : j < T.width) :
    (bytesAt F T position x).getLsbD j =
      if j < 8 * min T.size (position + 1) then
        x.getLsbD (8 * (position + 1 - min T.size (position + 1)) + j)
      else false := by
  have hs : F.width / 8 = F.size := Nat.mul_div_cancel_left _ (by decide)
  have hm : position + 1 - (position + 1 - min T.size (position + 1)) = min T.size (position + 1) := by
    omega
  show (BitVec.ofNat T.width (Bytes.leNat (((Bytes.leBytes (F.width / 8) x.toNat).take _).drop _))).getLsbD j = _
  rw [hs, Bytes.take_leBytes, Nat.min_eq_left hp, Bytes.drop_leBytes, hm, BitVec.getLsbD_ofNat,
    decide_eq_true hj, Bytes.testBit_leNat_leBytes, Bool.true_and]
  by_cases h : j < 8 * min T.size (position + 1)
  · rw [if_pos h, decide_eq_true h, Bool.true_and, BitVec.testBit_toNat]
  · rw [if_neg h, decide_eq_false h, Bool.false_and]

/-- **Byte extraction.** `at` gives the bytes of the target that end at
`position`, with zeros above them, exactly from an unsigned source, or when the
target has no room above them, or when the last of them is below `0x80`. -/
theorem integralAt_eq_bytesAt_iff (hT : T.size ≤ F.size) {position : ℕ} (hp : position < F.size)
    (x : F.Value) :
    integralAt F T position x = bytesAt F T position x ↔
      F.signed = false ∨ T.size ≤ position + 1 ∨ x.getLsbD (8 * position + 7) = false := by
  have hw : T.width = 8 * T.size := rfl
  constructor
  · intro h
    by_cases hs : T.size ≤ position + 1
    · exact .inr (.inl hs)
    -- the lowest bit above the bytes
    have hj : 8 * (position + 1) < T.width := by omega
    have hm : ¬ 8 * (position + 1) < 8 * min T.size (position + 1) := by omega
    have hbit := congrArg (BitVec.getLsbD · (8 * (position + 1))) h
    simp only [getLsbD_integralAt hT hp x hj, getLsbD_bytesAt hp x hj, if_neg hm] at hbit
    rcases Bool.and_eq_false_iff.mp hbit with h | h
    · exact .inl h
    · exact .inr (.inr h)
  · intro h
    apply BitVec.eq_of_getLsbD_eq
    intro j hj
    rw [getLsbD_integralAt hT hp x hj, getLsbD_bytesAt hp x hj]
    by_cases hm : j < 8 * min T.size (position + 1)
    · rw [if_pos hm, if_pos hm]
    · rw [if_neg hm, if_neg hm]
      rcases h with h | h | h
      · rw [h, Bool.false_and]
      · omega
      · rw [h, Bool.and_false]

/-- The two bytes of a signed word. -/
theorem integralAt_int16_high : integralAt int16 int16 1 0xfe70 = bytesAt int16 int16 1 0xfe70 :=
  (integralAt_eq_bytesAt_iff (Nat.le_refl 2) (by decide) _).mpr (.inr (.inl (Nat.le_refl 2)))

/-- The low byte of a signed word, from `0x80` on: it comes with its sign. -/
theorem integralAt_int16_low :
    integralAt int16 int16 0 0x0080 = 0xff80 ∧ bytesAt int16 int16 0 0x0080 = 0x0080 ∧
      integralAt int16 int16 0 0x0080 ≠ bytesAt int16 int16 0 0x0080 := by
  decide

end Viu
