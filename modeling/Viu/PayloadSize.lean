/-
# The size of a payload

`payload_size` is a sum of two header fields, made in `size_t` and stored in an
`int`. `transfer_buffer_size` only asserts that the length is not negative, and
`is_iso` takes every packet count but 0 and -1 for one, so a header may announce
a size that no transfer has; `read_command` asks the socket for it all the same.

The size is the sum of the fields exactly when that sum fits in an `int` and a
negative count adds nothing modulo 2^32 (`payload_size_iff`).
-/
import Viu.Stream

namespace Viu

open Bytes Ints

/-- The bytes of a CMD_SUBMIT header. -/
structure SubmitHeader where
  bytes : List U8
  length_eq : bytes.length = Command.headerSize
  command_eq : load .big 32 (bytes.take 4) = USBIP_CMD_SUBMIT

namespace SubmitHeader

variable (h : SubmitHeader)

/-- Word `i` as the host wrote it. -/
def word (i : ℕ) : U32 := load .big 32 ((h.bytes.drop (4 * i)).take 4)

def direction : U32 := h.word 3
def transferBufferLength : I32 := h.word 6
def numberOfPackets : I32 := h.word 8

/-- The data of an OUT and 16 bytes for each packet. -/
def exactSize : ℤ :=
  (if h.direction = USBIP_DIR_OUT then h.transferBufferLength.toInt else 0) +
    if 0 < h.numberOfPackets.toInt then 16 * h.numberOfPackets.toInt else 0

end SubmitHeader

/-- What `read_command` asks the driver for behind a header. -/
def payloadRequest (E : Order) (buffer : List U8) : Except Exn ℕ := do
  let cmd ← Command.fromBigEndian E buffer
  return (cmd.payloadSize.signExtend 64).toNat

/-- Caught in `command_produce_thread`: the end of the stream is a `system_error`. -/
def Exn.handled : Exn → Bool
  | .eof => true
  | .lengthError | .outOfRange | .runtimeError _ => false

/-- The size of the header is exact, or the header is refused. -/
structure ExactOrRefused (E : Order) (h : SubmitHeader) : Prop where
  exact : ∀ cmd, Command.fromBigEndian E h.bytes = .ok cmd → cmd.payloadSize.toInt = h.exactSize ∧ 0 ≤ h.exactSize
  requested : ∀ n, payloadRequest E h.bytes = .ok n → (n : ℤ) = h.exactSize
  handled : ∀ rest e, readCommand E (h.bytes ++ rest) = .error e → e.handled = true

/-- The sum fits in an `int`, and a negative packet count is the sentinel or vanishes
modulo 2^32. -/
def SubmitHeader.InRange (h : SubmitHeader) : Prop :=
  0 ≤ h.exactSize ∧ h.exactSize < 2 ^ 31 ∧
    (h.numberOfPackets.toInt < 0 → h.numberOfPackets.toInt = -1 ∨ (2 ^ 28 : ℤ) ∣ h.numberOfPackets.toInt)

instance (h : SubmitHeader) : Decidable h.InRange := inferInstanceAs (Decidable (_ ∧ _ ∧ (_ → _)))

variable {E : Order} {h : SubmitHeader}

/-! ### The fields of the header -/

theorem SubmitHeader.fromBig_word (h : SubmitHeader) {i : ℕ} (hi : i < 12) :
    fromBig E (UsbipHeader.word E h.bytes i) = h.word i := by
  have hlen := h.length_eq
  rw [UsbipHeader.word, fromBig_load (by decide), SubmitHeader.word]
  rw [List.length_take, List.length_drop, hlen, Command.headerSize]
  omega

/-- The header is read as the host's words. -/
theorem fromBigEndian_submit (E : Order) (h : SubmitHeader) :
    ∃ cmd, Command.fromBigEndian E h.bytes = .ok cmd ∧ cmd.payload = [] ∧ cmd.request = USBIP_CMD_SUBMIT ∧
      cmd.direction = h.direction ∧ cmd.header.cmdSubmit.transferBufferLength = h.transferBufferLength ∧
      cmd.isoPacketCount = h.numberOfPackets := by
  have h0 : fromBig E (UsbipHeader.word E h.bytes 0) = USBIP_CMD_SUBMIT := by
    rw [h.fromBig_word (by decide), SubmitHeader.word, Nat.mul_zero, List.drop_zero, h.command_eq]
  have h3 : fromBig E (UsbipHeader.word E h.bytes 3) = h.direction := h.fromBig_word (by decide)
  have h6 : fromBig E (UsbipHeader.word E h.bytes 6) = h.transferBufferLength := h.fromBig_word (by decide)
  have h8 : fromBig E (UsbipHeader.word E h.bytes 8) = h.numberOfPackets := h.fromBig_word (by decide)
  unfold Command.fromBigEndian
  simp only [UsbipHeader.ofBytes, Command.request, h0, h3, h6, h8, ↓reduceIte]
  exact ⟨_, rfl, rfl, rfl, rfl, rfl, rfl⟩

/-! ### The sum -/

/-- A sum in `size_t`, stored in an `int`. -/
theorem toInt_size_sum (a n : I32) :
    ((a.signExtend 64 + n.signExtend 64 * BitVec.ofNat 64 sizeofIsoDescriptor).setWidth 32).toInt =
      (a.toInt + 16 * n.toInt).bmod (2 ^ 32) := by
  have hlow : (a.signExtend 64 + n.signExtend 64 * BitVec.ofNat 64 sizeofIsoDescriptor).setWidth 32 =
      a + n * 16#32 := by
    rw [BitVec.setWidth_add _ _ (by decide), BitVec.setWidth_mul _ _ (by decide), setWidth_signExtend,
      setWidth_signExtend]
    rfl
  have h16 : (16#32).toInt = 16 := rfl
  rw [hlow, BitVec.toInt_add, BitVec.toInt_mul, h16, Int.add_bmod_bmod, Int.mul_comm]

/-- What `payload_size` makes of the fields: their sum modulo 2^32, where a negative
packet count is taken for one as well. -/
theorem toInt_payloadSize {cmd : Command} (hs : cmd.request = USBIP_CMD_SUBMIT) :
    cmd.payloadSize.toInt =
      ((if cmd.isOut then cmd.header.cmdSubmit.transferBufferLength.toInt else 0) +
        if cmd.isIso then 16 * cmd.isoPacketCount.toInt else 0).bmod (2 ^ 32) := by
  have hun : cmd.isUnlink = false := by simp [Command.isUnlink, hs, USBIP_CMD_SUBMIT, USBIP_CMD_UNLINK]
  have hself : ∀ x : I32, x.toInt.bmod (2 ^ 32) = x.toInt := fun x => BitVec.toInt_bmod_cancel x
  unfold Command.payloadSize
  simp only [hun, Bool.false_eq_true, ↓reduceIte, transferBufferSize_setWidth]
  by_cases hiso : cmd.isIso = true
  · rw [if_pos hiso, if_pos hiso, Command.isoDescriptorSize, toInt_size_sum]
    split <;> rfl
  · rw [if_neg hiso, if_neg hiso, Int.add_zero]
    split
    · rw [hself]
    · rfl

/-- The sum is exact just in range. -/
theorem payloadSize_exact_iff {cmd : Command} (hs : cmd.request = USBIP_CMD_SUBMIT) (hd : cmd.direction = h.direction)
    (hl : cmd.header.cmdSubmit.transferBufferLength = h.transferBufferLength)
    (hn : cmd.isoPacketCount = h.numberOfPackets) :
    cmd.payloadSize.toInt = h.exactSize ∧ 0 ≤ h.exactSize ↔ h.InRange := by
  have hout : cmd.isOut = true ↔ h.direction = USBIP_DIR_OUT := by simp [Command.isOut, hd]
  have hiso : cmd.isIso = true ↔ h.numberOfPackets.toInt ≠ 0 ∧ h.numberOfPackets.toInt ≠ -1 := by
    have h0 : h.numberOfPackets = 0#32 ↔ h.numberOfPackets.toInt = 0 := by rw [← BitVec.toInt_inj]; rfl
    have hm : h.numberOfPackets = 0xffffffff#32 ↔ h.numberOfPackets.toInt = -1 := by rw [← BitVec.toInt_inj]; rfl
    simp [Command.isIso, hn, h0, hm]
  have hlo := BitVec.le_toInt h.numberOfPackets
  have hhi := BitVec.toInt_lt (x := h.numberOfPackets)
  rw [toInt_payloadSize hs, hl, hn]
  simp only [hout, hiso, SubmitHeader.InRange, SubmitHeader.exactSize]
  set base := if h.direction = USBIP_DIR_OUT then h.transferBufferLength.toInt else 0
  set n := h.numberOfPackets.toInt
  rw [Int.bmod_def]
  split_ifs <;> omega

/-! ### What the reader does about it -/

/-- Behind the header `read_command` asks for the payload, if there is one. -/
theorem readCommand_header {cmd : Command} (hcmd : Command.fromBigEndian E h.bytes = .ok cmd) (rest : List U8) :
    readCommand E (h.bytes ++ rest) =
      if cmd.payloadSize ≠ 0 then
        (driverRead (cmd.payloadSize.signExtend 64).toNat rest).map
          fun p => ({ cmd with payload := cmd.payload ++ p.1 }, p.2)
      else .ok (cmd, rest) := by
  have hread := driverRead_append h.bytes rest (by rw [h.length_eq]; decide)
  rw [h.length_eq] at hread
  unfold readCommand
  rw [hread]
  simp only [bind, Except.bind, hcmd]
  by_cases hz : cmd.payloadSize ≠ 0
  · rw [if_pos hz, if_pos hz]
    cases driverRead (cmd.payloadSize.signExtend 64).toNat rest <;> rfl
  · rw [if_neg hz, if_neg hz]
    rfl

/-- A size that an `int` holds is asked for as it is, and fails only at the end of the
stream. -/
theorem driverRead_handled {size : I32} (hsize : 0 ≤ size.toInt) {rest : List U8} {e : Exn}
    (he : driverRead (size.signExtend 64).toNat rest = .error e) : e.handled = true := by
  have hlt := size.isLt
  unfold driverRead at he
  rw [toNat_signExtend hsize, if_neg (by unfold streambufMaxSize; omega)] at he
  split at he
  · cases he
    rfl
  · cases he

/-- **The size of a payload** is exact, and nothing else is asked for, exactly when the
sum of the fields is in range. -/
theorem payload_size_iff (E : Order) (h : SubmitHeader) : ExactOrRefused E h ↔ h.InRange := by
  obtain ⟨cmd, hcmd, -, hs, hd, hl, hn⟩ := fromBigEndian_submit E h
  have hiff := payloadSize_exact_iff hs hd hl hn
  refine ⟨fun hexact => hiff.mp (hexact.exact cmd hcmd), fun hrange => ?_⟩
  obtain ⟨hsize, hnonneg⟩ := hiff.mpr hrange
  have hint : 0 ≤ cmd.payloadSize.toInt := by rwa [hsize]
  refine ⟨fun cmd' hcmd' => ?_, fun n hreq => ?_, fun rest e he => ?_⟩
  · rw [hcmd] at hcmd'
    exact Except.ok.inj hcmd' ▸ ⟨hsize, hnonneg⟩
  · simp only [payloadRequest, hcmd, bind, Except.bind, pure, Except.pure, Except.ok.injEq] at hreq
    rw [← hsize, ← hreq, toNat_signExtend hint, toInt_of_nonneg hint]
  · rw [readCommand_header hcmd] at he
    split at he
    · cases hread : driverRead (cmd.payloadSize.signExtend 64).toNat rest with
      | error e' =>
        rw [hread] at he
        cases he
        exact driverRead_handled hint hread
      | ok p =>
        rw [hread] at he
        cases he
    · cases he

/-- A CMD_SUBMIT to device to endpoint 1 with this direction, length and packet count. -/
def SubmitHeader.of (direction transferBufferLength numberOfPackets : U32) : SubmitHeader where
  bytes :=
    [USBIP_CMD_SUBMIT, 1, 0, direction, 1, 0, transferBufferLength, 0, numberOfPackets, 0].flatMap (store .big) ++
      List.replicate 8 0
  length_eq := by
    rw [List.length_append, length_flatMap_store]
    rfl
  command_eq := rfl

/-- An OUT of -1 bytes. -/
def SubmitHeader.negativeOut : SubmitHeader := .of USBIP_DIR_OUT 0xffffffff 0

/-- The reader asks for 2^64 - 1 bytes, and `prepare` throws. -/
theorem payload_size_negative : payloadRequest .little SubmitHeader.negativeOut.bytes = .ok (2 ^ 64 - 1) ∧
    readCommand .little SubmitHeader.negativeOut.bytes = .error .lengthError ∧
    ¬ ∀ h : SubmitHeader, ExactOrRefused .little h := by
  refine ⟨rfl, rfl, fun h => ?_⟩
  have hhandled := (h .negativeOut).handled [] .lengthError rfl
  cases hhandled

end Viu
