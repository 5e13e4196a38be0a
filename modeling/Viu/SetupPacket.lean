/-
# The setup packet of a command

`command::control_setup` reads the three words of the setup packet with
`load_little_u16`, which gives their value on any machine, and then once more
passes each through `endian::from_little`. On a little-endian machine that
changes nothing; on a big-endian one it swaps the two bytes, so that what is
decoded there is right only for packets that look the same either way round
(`decodes_iff`).

Key definitions: `Command.Decodes`, `Mirrored`.
Key theorems: `toNat_setupU16_eq_iff`, `integralAt_one`, `integralAt_zero`, `decodes_iff`.
-/
import Viu.Integral
import Viu.Proxy
import Viu.Stream

namespace Viu

open Bytes

/-- What `control_setup()` gives, and the bytes the descriptor handlers take from
`wValue`, are those of the packet `b`. -/
structure Command.Decodes (cmd : Command) (E : Order) (b : Vector U8 8) : Prop where
  bmRequestType : (cmd.controlSetup E).bmRequestType = b.get 0
  bRequest : (cmd.controlSetup E).bRequest = b.get 1
  wValue : (cmd.controlSetup E).wValue.toNat = (b.get 2).toNat + 256 * (b.get 3).toNat
  wIndex : (cmd.controlSetup E).wIndex.toNat = (b.get 4).toNat + 256 * (b.get 5).toNat
  wLength : (cmd.controlSetup E).wLength.toNat = (b.get 6).toNat + 256 * (b.get 7).toNat
  descriptorType : typeFromValue (cmd.controlSetup E).wValue = b.get 3
  descriptorIndex : indexFromValue (cmd.controlSetup E).wValue = b.get 2

/-- Each of the packet's words has two equal bytes. -/
def Mirrored (b : Vector U8 8) : Prop := b.get 2 = b.get 3 ∧ b.get 4 = b.get 5 ∧ b.get 6 = b.get 7

/-! ### A word of two bytes -/

theorem toNat_load_little (lo hi : U8) : (load .little 16 [lo, hi]).toNat = lo.toNat + 256 * hi.toNat := by
  have hlo := lo.isLt
  have hhi := hi.isLt
  show (BitVec.ofNat 16 (leNat [lo, hi])).toNat = _
  rw [BitVec.toNat_ofNat]
  simp only [leNat]
  omega

/-- The other byte order reads the bytes the other way round. -/
theorem endianReverse_load_little (lo hi : U8) :
    endianReverse (load .little 16 [lo, hi]) = load .little 16 [hi, lo] := by
  rw [endianReverse, store_load (by decide) .little [lo, hi] rfl]
  rfl

theorem toNat_fromLittle_load (E : Order) (lo hi : U8) :
    (fromLittle E (load .little 16 [lo, hi])).toNat =
      match E with
      | .little => lo.toNat + 256 * hi.toNat
      | .big => hi.toNat + 256 * lo.toNat := by
  cases E with
  | little => exact toNat_load_little lo hi
  | big =>
    show (endianReverse (load .little 16 [lo, hi])).toNat = _
    rw [endianReverse_load_little, toNat_load_little]

theorem pair_eq_swap_iff (lo hi : U8) : hi.toNat + 256 * lo.toNat = lo.toNat + 256 * hi.toNat ↔ lo = hi := by
  have hlo := lo.isLt
  have hhi := hi.isLt
  constructor
  · intro h
    apply BitVec.eq_of_toNat_eq
    omega
  · rintro rfl
    rfl

/-- Byte 1 of a word: `type_from_value`. -/
theorem integralAt_one (value : uint16.Value) : integralAt uint16 uint8 1 value = typeFromValue value := by
  show uint16.convert uint8 (uint16.shr (uint16.shl value 0) 8) = _
  rw [IntType.shl_eq, IntType.shr_eq, BitVec.shiftLeft_zero]
  rfl

/-- Byte 0 of a word: `index_from_value`. -/
theorem integralAt_zero (value : uint16.Value) : integralAt uint16 uint8 0 value = indexFromValue value := by
  apply BitVec.eq_of_getLsbD_eq
  intro j hj
  rw [getLsbD_integralAt (by decide) (by decide) value hj]
  have hj : j < 8 := hj
  show (if j < 8 then value.getLsbD (0 + j) else _) = (BitVec.setWidth 8 value).getLsbD j
  rw [if_pos hj, BitVec.getLsbD_setWidth, decide_eq_true hj, Nat.zero_add, Bool.true_and]

theorem toNat_typeFromValue (value : U16) : (typeFromValue value).toNat = value.toNat / 256 := by
  have h := value.isLt
  unfold typeFromValue
  rw [BitVec.toNat_setWidth, BitVec.toNat_ushiftRight, Nat.shiftRight_eq_div_pow]
  omega

theorem toNat_indexFromValue (value : U16) : (indexFromValue value).toNat = value.toNat % 256 := by
  unfold indexFromValue
  rw [BitVec.toNat_setWidth]

/-! ### The packet of a command -/

variable {E : Order} {cmd : Command} {b : Vector U8 8}

/-- Swapping the words of a header leaves the packet alone. -/
theorem setup_fromBigEndian {buffer : List U8} (h : Command.fromBigEndian E buffer = .ok cmd) :
    cmd.header.cmdSubmit.setup = (UsbipHeader.ofBytes E buffer).cmdSubmit.setup := by
  unfold Command.fromBigEndian at h
  dsimp only at h
  split at h
  · obtain rfl := Except.ok.inj h
    rfl
  · split at h
    · obtain rfl := Except.ok.inj h
      rfl
    · simp at h

theorem setupU16_eq (h : cmd.header.cmdSubmit.setup = b) {i : ℕ} {k l : Fin 8} (hk : k.val = i)
    (hl : l.val = i + 1) : cmd.setupU16 E i = fromLittle E (load .little 16 [b.get k, b.get l]) := by
  have hget : ∀ k : Fin 8, b.toList.getD k 0 = b.get k := fun k => by
    simp [List.getD_eq_getElem?_getD]
    rfl
  unfold Command.setupU16
  rw [h, ← hl, ← hk]
  simp only [hget]

/-- A word decoded on a machine of order `E` is the word of the packet there, or
has two equal bytes. -/
theorem toNat_setupU16_eq_iff (h : cmd.header.cmdSubmit.setup = b) {i : ℕ} {k l : Fin 8} (hk : k.val = i)
    (hl : l.val = i + 1) :
    (cmd.setupU16 E i).toNat = (b.get k).toNat + 256 * (b.get l).toNat ↔ E = .little ∨ b.get k = b.get l := by
  rw [setupU16_eq h hk hl, toNat_fromLittle_load]
  cases E with
  | little => exact iff_of_true rfl (.inl rfl)
  | big =>
    show (b.get l).toNat + 256 * (b.get k).toNat = _ ↔ _
    rw [pair_eq_swap_iff]
    simp

theorem decodes_iff_words (h : cmd.header.cmdSubmit.setup = b) :
    cmd.Decodes E b ↔
      (cmd.setupU16 E 2).toNat = (b.get 2).toNat + 256 * (b.get 3).toNat ∧
        (cmd.setupU16 E 4).toNat = (b.get 4).toNat + 256 * (b.get 5).toNat ∧
        (cmd.setupU16 E 6).toNat = (b.get 6).toNat + 256 * (b.get 7).toNat := by
  constructor
  · intro hd
    exact ⟨hd.wValue, hd.wIndex, hd.wLength⟩
  · rintro ⟨hv, hi, hl⟩
    have h2 := (b.get 2).isLt
    refine ⟨by rw [← h]; rfl, by rw [← h]; rfl, hv, hi, hl, ?_, ?_⟩
    · apply BitVec.eq_of_toNat_eq
      show (typeFromValue (cmd.setupU16 E 2)).toNat = _
      rw [toNat_typeFromValue, hv]
      omega
    · apply BitVec.eq_of_toNat_eq
      show (indexFromValue (cmd.setupU16 E 2)).toNat = _
      rw [toNat_indexFromValue, hv]
      omega

/-- **The setup packet is decoded to its own fields** exactly on a little-endian
machine, or where swapping its words makes no difference. -/
theorem decodes_iff (E : Order) {words : List U8} (hw : words.length = 40) (b : Vector U8 8) (tail : List U8)
    {cmd : Command} (h : Command.fromBigEndian E (words ++ b.toList ++ tail) = .ok cmd) :
    cmd.Decodes E b ↔ E = .little ∨ Mirrored b := by
  have hb : cmd.header.cmdSubmit.setup = b := by
    rw [setup_fromBigEndian h, setup_ofBytes_append E hw]
  have hvalue := @toNat_setupU16_eq_iff E cmd b hb 2 2 3 rfl rfl
  have hindex := @toNat_setupU16_eq_iff E cmd b hb 4 4 5 rfl rfl
  have hlength := @toNat_setupU16_eq_iff E cmd b hb 6 6 7 rfl rfl
  rw [decodes_iff_words hb, hvalue, hindex, hlength, Mirrored, or_and_left, or_and_left]

/-- GET_DESCRIPTOR for the device descriptor, as a command's setup packet. -/
def deviceDescriptorSetup : Vector U8 8 := #v[0x80, 0x06, 0x00, 0x01, 0x00, 0x00, 0x12, 0x00]

/-- The words before it: CMD_SUBMIT number 1 for endpoint 0, IN, 18 bytes. -/
def deviceDescriptorHeader : List U8 :=
  ([1, 1, 0x10002, 1, 0, 0, 18, 0, 0, 0] : List U32).flatMap (store .big)

theorem decodes_deviceDescriptorSetup : ∃ cmd : Command,
    Command.fromBigEndian .little (deviceDescriptorHeader ++ deviceDescriptorSetup.toList ++ []) = .ok cmd ∧
      cmd.Decodes .little deviceDescriptorSetup :=
  ⟨_, rfl, (@decodes_iff .little deviceDescriptorHeader rfl deviceDescriptorSetup [] _ rfl).mpr (.inl rfl)⟩

/-- A big-endian machine takes it for a request for descriptor 1 of type 0. -/
theorem misread_deviceDescriptorSetup : ∃ cmd : Command,
    Command.fromBigEndian .big (deviceDescriptorHeader ++ deviceDescriptorSetup.toList) = .ok cmd ∧
      (cmd.controlSetup .big).wValue = 0x0001 ∧
      typeFromValue (cmd.controlSetup .big).wValue = 0 ∧ indexFromValue (cmd.controlSetup .big).wValue = 1 ∧
      ¬ cmd.Decodes .big deviceDescriptorSetup := by
  refine ⟨_, rfl, by decide, by decide, by decide, ?_⟩
  intro h
  exact absurd h.descriptorIndex (by decide)

end Viu
