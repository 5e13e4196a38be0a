/-
# Number tokens

`io::text::stream::in` reads a word and converts it to the type of the member
it fills. For the wider types that is a checked conversion. A `char` is
converted to an `int32_t`, checked as that, and then cut down to its eight bits.
Of what a configuration says in place of a member, then, a wide type refuses
what it cannot hold, while a `char` refuses only what an `int32_t` cannot hold.

A JSON configuration comes through `read_u32` first, which cuts an integer down
to 32 bits, so that what the conversion sees is only its remainder. Of the members
that the parser takes apart into bytes no byte is out of range any more; they are
not covered here.

Key definitions: `NumberType.streamIn`, `NumberType.fieldIn`, `decimalValue`,
`integerValue`, `NumberType.Refuses`, `NumberType.RefusesField`.
Key theorems: `NumberType.convert_eq`, `NumberType.readU32_eq`, `numberTokens_iff`.
-/
import Viu.JsonMeaning
import Viu.Lib.Ints

namespace Viu

open Bytes Text Tokens Json Ints

/-- The unsigned types of a saved configuration. -/
inductive NumberType
  | u8
  | u16
  | u32
  | u64
  deriving DecidableEq, Repr

namespace NumberType

def bits : NumberType → ℕ
  | u8 => 8
  | u16 => 16
  | u32 => 32
  | u64 => 64

/-- What `in` makes of the word it has read. -/
def convert : (T : NumberType) → Word → Except LoadExn (BitVec T.bits)
  | u8, number => (lexicalCastInt32 number).map (·.setWidth 8)
  | u16, number => lexicalCastUnsigned 16 number
  | u32, number => lexicalCastUnsigned 32 number
  | u64, number => lexicalCastUnsigned 64 number

/-- `io::text::stream::in`. -/
def streamIn (T : NumberType) : In (BitVec T.bits) := Reader.next .badLexicalCast T.convert

/-- `in` of the number that the parser leaves in the stream for a field. The members
that it writes byte by byte, `wBytesPerInterval` and those of a device capability,
are cut to bytes before they are written, and are not meant. -/
def fieldIn (T : NumberType) (field : Json) : Except LoadExn (BitVec T.bits × List Word) :=
  T.streamIn ((Parser.writeRead (Parser.readU32 field)).items.map out)

theorem inU8_eq : inU8 = u8.streamIn := rfl

theorem inU16_eq : inU16 = u16.streamIn := rfl

theorem inSize_eq (number : Word) (ws : List Word) :
    inSize (number :: ws) = ((u64.convert number).map (·.toNat)).map (·, ws) := rfl

end NumberType

/-! ### What a configuration says -/

/-- The integer that a word denotes in decimal. -/
def decimalValue (w : Word) : Option ℤ := (magnitude (signed w).2).map (withSign (signed w).1)

/-- The integer that a JSON value denotes, as a number or as a string. -/
def integerValue : Json → Option ℤ
  | int64 n => some n
  | uint64 n => some n
  | double q => if q.den = 1 then some q.num else none
  | string s => literalValue s.toList
  | _ => none

namespace NumberType

variable (T : NumberType) (z : ℤ)

def InRange : Prop := 0 ≤ z ∧ z < 2 ^ T.bits

/-- What the conversion throws on. -/
def Refuses : Prop :=
  match T with
  | u8 => z < -2 ^ 31 ∨ 2 ^ 31 ≤ z
  | T => z ≤ -2 ^ T.bits ∨ 2 ^ T.bits ≤ z

/-- What `read_u32` throws on. -/
def ReadRefuses (field : Json) : Prop :=
  match field with
  | int64 _ => False
  | string _ => 2 ^ 64 ≤ z.natAbs
  | _ => True

/-- The conversion sees a field modulo `2 ^ 32`. -/
def RefusesField (field : Json) : Prop := ReadRefuses z field ∨ T.Refuses (z % 2 ^ 32)

end NumberType

/-! ### Words -/

theorem decimalValue_eq_some {w : Word} {z : ℤ} (h : decimalValue w = some z) :
    ∃ m, magnitude (signed w).2 = some m ∧ withSign (signed w).1 m = z := Option.map_eq_some_iff.mp h

theorem lexicalCastUnsigned_eq (k : ℕ) {w : Word} {z : ℤ} (h : decimalValue w = some z) :
    lexicalCastUnsigned k w =
      if z ≤ -2 ^ k ∨ 2 ^ k ≤ z then .error .badLexicalCast else .ok (BitVec.ofInt k z) := by
  obtain ⟨m, hm, rfl⟩ := decimalValue_eq_some h
  have hcast : ((2 ^ k : ℕ) : ℤ) = 2 ^ k := by push_cast; rfl
  have hpos := Nat.two_pow_pos k
  have hrange : (withSign (signed w).1 m ≤ -2 ^ k ∨ 2 ^ k ≤ withSign (signed w).1 m) ↔ ¬ m < 2 ^ k := by
    unfold withSign
    rw [← hcast]
    split <;> omega
  unfold lexicalCastUnsigned
  rw [hm, withSign_ofInt]
  dsimp only
  by_cases hlt : m < 2 ^ k
  · rw [if_pos hlt, if_neg (mt hrange.mp (not_not_intro hlt))]
  · rw [if_neg hlt, if_pos (hrange.mpr hlt)]

theorem lexicalCastInt32_eq {w : Word} {z : ℤ} (h : decimalValue w = some z) :
    lexicalCastInt32 w =
      if z < -2 ^ 31 ∨ 2 ^ 31 ≤ z then .error .badLexicalCast else .ok (BitVec.ofInt 32 z) := by
  obtain ⟨m, hm, rfl⟩ := decimalValue_eq_some h
  unfold lexicalCastInt32
  rw [hm, withSign_ofInt]
  dsimp only
  unfold withSign
  by_cases hneg : (signed w).1 = true
  · rw [if_pos hneg, if_pos hneg, if_pos hneg]
    by_cases hle : m ≤ 2 ^ 31
    · rw [if_pos hle, if_neg (by omega)]
    · rw [if_neg hle, if_pos (by omega)]
  · rw [if_neg hneg, if_neg hneg, if_neg hneg]
    by_cases hlt : m < 2 ^ 31
    · rw [if_pos hlt, if_neg (by omega)]
    · rw [if_neg hlt, if_pos (by omega)]

/-- A `char` keeps the low bits of an `int32_t`. -/
theorem char_eq {w : Word} {z : ℤ} (h : decimalValue w = some z) :
    (lexicalCastInt32 w).map (·.setWidth 8) =
      if z < -2 ^ 31 ∨ 2 ^ 31 ≤ z then .error .badLexicalCast else .ok (BitVec.ofInt 8 z) := by
  rw [lexicalCastInt32_eq h]
  by_cases hz : z < -2 ^ 31 ∨ 2 ^ 31 ≤ z
  · rw [if_pos hz, if_pos hz]
    rfl
  · rw [if_neg hz, if_neg hz]
    exact congrArg Except.ok (setWidth_ofInt (by decide) z)

theorem decimalValue_out {k : ℕ} (v : BitVec k) : decimalValue (out v) = some (v.toNat : ℤ) := by
  unfold decimalValue out
  rw [signed_toDigits, magnitude_toDigits]
  rfl

namespace NumberType

variable {T : NumberType}

instance (z : ℤ) : Decidable (T.InRange z) := inferInstanceAs (Decidable (_ ∧ _))

instance (z : ℤ) : Decidable (T.Refuses z) := by
  unfold Refuses
  split <;> infer_instance

/-- `in` throws on what its conversion refuses, and stores the low bits of the rest. -/
theorem convert_eq {w : Word} {z : ℤ} (h : decimalValue w = some z) :
    T.convert w = if T.Refuses z then .error .badLexicalCast else .ok (BitVec.ofInt T.bits z) := by
  cases T with
  | u8 => exact char_eq h
  | u16 => exact lexicalCastUnsigned_eq 16 h
  | u32 => exact lexicalCastUnsigned_eq 32 h
  | u64 => exact lexicalCastUnsigned_eq 64 h

theorem convert_error_iff {w : Word} {z : ℤ} (h : decimalValue w = some z) :
    (∃ e, T.convert w = .error e) ↔ T.Refuses z := by
  rw [convert_eq h]
  by_cases hz : T.Refuses z
  · rw [if_pos hz]
    exact iff_of_true ⟨_, rfl⟩ hz
  · rw [if_neg hz]
    exact iff_of_false (by rintro ⟨e, he⟩; cases he) hz

theorem not_refuses_of_inRange {z : ℤ} (h : T.InRange z) : ¬ T.Refuses z := by
  obtain ⟨h0, hlt⟩ := h
  cases T <;> simp only [Refuses, bits] at hlt ⊢ <;> omega

/-- What `out` writes is read back. -/
theorem convert_out (v : BitVec T.bits) : T.convert (out v) = .ok v := by
  have hlt : (v.toNat : ℤ) < 2 ^ T.bits := by exact_mod_cast v.isLt
  rw [convert_eq (decimalValue_out v), if_neg (not_refuses_of_inRange ⟨Int.natCast_nonneg _, hlt⟩),
    BitVec.ofInt_natCast, BitVec.ofNat_toNat, BitVec.setWidth_eq]

theorem streamIn_out (v : BitVec T.bits) (rest : List Char) :
    T.streamIn (words (out v ++ ' ' :: rest)) = .ok (v, words rest) := by
  have hword : IsWord (out v) := isWord_toDigits v.toNat
  rw [words_cons hword]
  show (T.convert (out v)).map (·, words rest) = _
  rw [convert_out]
  rfl

end NumberType

/-! ### A word in its place -/

theorem isWord_of_decimalValue {w : Word} {z : ℤ} (h : decimalValue w = some z) : IsWord w := by
  obtain ⟨m, hm, -⟩ := decimalValue_eq_some h
  have hds : (signed w).2 ≠ [] ∧ (signed w).2.all Char.isDigit := by
    by_contra hno
    rw [magnitude, if_neg hno] at hm
    cases hm
  have hspace : ∀ c ∈ (signed w).2, isSpace c = false := fun c hc =>
    not_isSpace_of_isDigit (List.all_eq_true.mp hds.2 c hc)
  rcases signed_cases w with ⟨c, hc, hw⟩ | hw
  · rw [hw]
    refine ⟨List.cons_ne_nil _ _, ?_⟩
    intro d hd
    rcases List.mem_cons.mp hd with rfl | hd
    · exact isSpace_sign hc
    · exact hspace d hd
  · rw [hw] at hds hspace
    exact ⟨hds.1, hspace⟩

/-! ### A field of a JSON document -/

namespace NumberType

/-- `read_u32` of an integer: its value modulo `2 ^ 32`, or it throws. -/
theorem readU32_eq {field : Json} {z : ℤ} (h : integerValue field = some z) :
    (Parser.readU32 field = .ok (BitVec.ofInt 32 z) ∧ ¬ ReadRefuses z field) ∨
      ((∃ e, Parser.readU32 field = .error e) ∧ ReadRefuses z field) := by
  cases field with
  | int64 n =>
    obtain rfl : n = z := Option.some.inj h
    exact .inl ⟨rfl, id⟩
  | string s =>
    have hstoul := stoul_eq h
    by_cases hlt : z.natAbs < 2 ^ 64
    · refine .inl ⟨?_, Nat.not_le.mpr hlt⟩
      show (stoul s).map (·.setWidth 32) = _
      rw [hstoul, if_pos hlt]
      exact congrArg Except.ok (setWidth_ofInt (by decide) z)
    · refine .inr ⟨⟨.outOfRange, ?_⟩, Nat.not_lt.mp hlt⟩
      show (stoul s).map (·.setWidth 32) = _
      rw [hstoul, if_neg hlt]
      rfl
  | _ => exact .inr ⟨⟨_, rfl⟩, trivial⟩

variable {T : NumberType}

theorem streamIn_cons {w : Word} (ws : List Word) :
    (∃ e, T.streamIn (w :: ws) = .error e) ↔ ∃ e, T.convert w = .error e := by
  show (∃ e, (T.convert w).map (·, ws) = .error e) ↔ _
  cases T.convert w with
  | error e => exact iff_of_true ⟨e, rfl⟩ ⟨e, rfl⟩
  | ok v => exact iff_of_false (by rintro ⟨e, he⟩; cases he) (by rintro ⟨e, he⟩; cases he)

theorem fieldIn_error_iff {field : Json} {z : ℤ} (h : integerValue field = some z) :
    (∃ e, T.fieldIn field = .error e) ↔ T.RefusesField z field := by
  rcases readU32_eq h with ⟨hread, hno⟩ | ⟨⟨e, hread⟩, hyes⟩
  · have hitems : (Parser.writeRead (Parser.readU32 field)).items = [BitVec.ofInt 32 z] := by
      rw [hread]
      rfl
    have hmod : ((BitVec.ofInt 32 z).toNat : ℤ) = z % 2 ^ 32 := by
      rw [BitVec.toNat_ofInt]
      exact Int.toNat_of_nonneg (Int.emod_nonneg z (by decide))
    have hvalue := decimalValue_out (BitVec.ofInt 32 z)
    rw [hmod] at hvalue
    unfold fieldIn
    rw [hitems]
    show (∃ e, T.streamIn [out (BitVec.ofInt 32 z)] = .error e) ↔ _
    rw [streamIn_cons, convert_error_iff hvalue]
    exact ⟨.inr, fun h => h.resolve_left hno⟩
  · have hitems : (Parser.writeRead (Parser.readU32 field)).items = [] := by
      rw [hread]
      rfl
    unfold fieldIn
    rw [hitems]
    exact iff_of_true ⟨.badLexicalCast, rfl⟩ (.inl hyes)

end NumberType

/-- **Number tokens.** A value that is written is read back. What is written in
its place by hand, as a word or as a JSON value, and does not fit the type, is
refused exactly when the conversion refuses it: of a word what a `char` shares
with an `int32_t` is not, nor of a JSON value what fits modulo `2 ^ 32`. The value
is one of a member that the parser writes as a number of its own. -/
theorem numberTokens_iff (T : NumberType) (v : BitVec T.bits) (rest : List Char)
    {w : Word} {z : ℤ} (hw : decimalValue w = some z) {field : Json} {y : ℤ} (hy : integerValue field = some y) :
    T.streamIn (words (out v ++ ' ' :: rest)) = .ok (v, words rest) ∧
      ((¬ T.InRange z → ∃ e, T.streamIn (words (w ++ ' ' :: rest)) = .error e) ↔ T.InRange z ∨ T.Refuses z) ∧
      ((¬ T.InRange y → ∃ e, T.fieldIn field = .error e) ↔ T.InRange y ∨ T.RefusesField y field) := by
  refine ⟨NumberType.streamIn_out v rest, ?_, ?_⟩
  · rw [words_cons (isWord_of_decimalValue hw), NumberType.streamIn_cons, NumberType.convert_error_iff hw]
    exact or_iff_not_imp_left.symm
  · rw [NumberType.fieldIn_error_iff hy]
    exact or_iff_not_imp_left.symm

/-- 65536 is no 16-bit number, as a word and as a JSON value. -/
theorem numberTokens_refused :
    (∃ e, NumberType.u16.streamIn (words ['6', '5', '5', '3', '6', ' ']) = .error e) ∧
      ∃ e, NumberType.u16.fieldIn (int64 65536) = .error e :=
  have h := @numberTokens_iff .u16 0 [] ['6', '5', '5', '3', '6'] 65536 rfl (int64 65536) 65536 rfl
  ⟨h.2.1.mpr (.inr (.inr (by decide))) (by decide), h.2.2.mpr (.inr (.inr (.inr (by decide)))) (by decide)⟩

/-- A `char` takes 256 for 0, and a 16-bit field takes 2 ^ 32 + 1 for 1. -/
theorem numberTokens_changed :
    decimalValue ['2', '5', '6'] = some 256 ∧ ¬ NumberType.u8.InRange 256 ∧
      NumberType.u8.streamIn (words ['2', '5', '6', ' ']) = .ok (0, []) ∧
      ¬ NumberType.u16.InRange (2 ^ 32 + 1) ∧
      NumberType.u16.fieldIn (int64 (2 ^ 32 + 1)) = .ok (1, []) :=
  ⟨rfl, by decide, rfl, by decide, rfl⟩

end Viu
