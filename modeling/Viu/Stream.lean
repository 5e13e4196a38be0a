/-
# The request stream

`basic::read_command` and the loop of `basic::command_produce_thread`, on the
bytes the host writes: a 48-byte header, swapped in place, then the payload
its fields announce. The host's side is `HostCommand.serialise`, what the
kernel writes for a command; `request_stream` says the loop makes of any
sequence of them exactly these commands.
-/
import Viu.Lib.Framing
import Viu.Lib.Ints
import Viu.Usbip

namespace Viu

open Bytes Ints

/-- The most a `streambuf` can hold, `std::vector<char>::max_size()`. -/
def streambufMaxSize : ℕ := 2 ^ 63 - 1

/-- `driver::read`: `length` bytes of the stream, or `eof` when it ends before. -/
def driverRead (length : ℕ) (stream : List U8) : Except Exn (List U8 × List U8) :=
  if streambufMaxSize < length then .error .lengthError
  else if stream.length < length then .error .eof
  else .ok (stream.take length, stream.drop length)

/-- The payload size is an `int`; `driver::read` takes a `size_t`. -/
def readCommand (E : Order) (stream : List U8) : Except Exn (Command × List U8) := do
  let (buffer, stream) ← driverRead Command.headerSize stream
  let cmd ← Command.fromBigEndian E buffer
  let payloadSize := cmd.payloadSize
  if payloadSize ≠ 0 then
    let (payload, stream) ← driverRead (payloadSize.signExtend 64).toNat stream
    return ({ cmd with payload := cmd.payload ++ payload }, stream)
  return (cmd, stream)

theorem driverRead_eq {length : ℕ} {stream bs rest : List U8}
    (h : driverRead length stream = .ok (bs, rest)) :
    length ≤ stream.length ∧ bs = stream.take length ∧ rest = stream.drop length := by
  unfold driverRead at h
  split at h
  · cases h
  · split at h
    · cases h
    · obtain ⟨rfl, rfl⟩ := Prod.mk.inj (Except.ok.inj h)
      exact ⟨by omega, rfl, rfl⟩

theorem driverRead_append (bs rest : List U8) (h : bs.length ≤ streambufMaxSize) :
    driverRead bs.length (bs ++ rest) = .ok (bs, rest) := by
  unfold driverRead
  rw [if_neg (by omega), if_neg (by simp)]
  simp

theorem driverRead_length {length : ℕ} {stream bs rest : List U8}
    (h : driverRead length stream = .ok (bs, rest)) : rest.length = stream.length - length := by
  rw [(driverRead_eq h).2.2, List.length_drop]

/-- What a successful `readCommand` did. -/
theorem readCommand_eq {E : Order} {stream rest : List U8} {cmd : Command}
    (h : readCommand E stream = .ok (cmd, rest)) :
    ∃ c stream', driverRead Command.headerSize stream = .ok (stream.take Command.headerSize, stream') ∧
      Command.fromBigEndian E (stream.take Command.headerSize) = .ok c ∧
      rest.length ≤ stream'.length := by
  unfold readCommand at h
  cases h1 : driverRead Command.headerSize stream with
  | error e => rw [h1] at h; cases h
  | ok p =>
    obtain ⟨buffer, stream'⟩ := p
    obtain ⟨-, rfl, -⟩ := driverRead_eq h1
    rw [h1] at h
    cases h2 : Command.fromBigEndian E (stream.take Command.headerSize) with
    | error e =>
      simp only [bind, Except.bind, h2] at h
      cases h
    | ok c =>
      simp only [bind, Except.bind, h2, ne_eq, ite_not] at h
      refine ⟨c, stream', rfl, rfl, ?_⟩
      split at h
      · obtain ⟨-, rfl⟩ := Prod.mk.inj (Except.ok.inj h)
        exact le_rfl
      · cases h3 : driverRead (c.payloadSize.signExtend 64).toNat stream' with
        | error e => rw [h3] at h; cases h
        | ok q =>
          rw [h3] at h
          obtain ⟨-, rfl⟩ := Prod.mk.inj (Except.ok.inj h)
          rw [driverRead_length h3]
          omega

/-- The loop of `command_produce_thread`: commands until an exception ends it. -/
def commandReader (E : Order) : Framing.Reader Command U8 Exn where
  read := readCommand E
  shorter := fun {bs a rest} h => by
    obtain ⟨c, stream', h1, -, h3⟩ := readCommand_eq h
    have hle := (driverRead_eq h1).1
    have hlen := driverRead_length h1
    have : 0 < Command.headerSize := by decide
    omega

def commandProduce (E : Order) (stream : List U8) : List Command × Exn × List U8 :=
  (commandReader E).all stream

/-! ### What the host writes -/

/-- A CMD_SUBMIT as the kernel sends it: the data of an OUT, and the
descriptors of an iso transfer, follow the header. -/
structure HostSubmit where
  seqnum : U32
  devid : U32
  direction : U32
  ep : U32
  transferFlags : U32
  transferBufferLength : I32
  startFrame : I32
  numberOfPackets : I32
  interval : I32
  setup : Vector U8 8
  data : List U8
  isoDescriptors : List U8
  direction_ok : direction = USBIP_DIR_IN ∨ direction = USBIP_DIR_OUT
  length_nonneg : 0 ≤ transferBufferLength.toInt
  packets_ok : -1 ≤ numberOfPackets.toInt
  size_lt : transferBufferLength.toInt + 16 * numberOfPackets.toInt < 2 ^ 31
  data_length : data.length = if direction = USBIP_DIR_OUT then transferBufferLength.toInt.toNat else 0
  iso_length : isoDescriptors.length = 16 * numberOfPackets.toInt.toNat

inductive HostCommand
  | submit (s : HostSubmit)
  | unlink (seqnum devid direction ep unlinkSeqnum : U32)

namespace HostCommand

/-- The header in the host's own values. -/
def header : HostCommand → UsbipHeader
  | .submit s => ⟨⟨USBIP_CMD_SUBMIT, s.seqnum, s.devid, s.direction, s.ep⟩,
      ⟨s.transferFlags, s.transferBufferLength, s.startFrame, s.numberOfPackets, s.interval, s.setup⟩⟩
  | .unlink seqnum devid direction ep unlinkSeqnum =>
      ⟨⟨USBIP_CMD_UNLINK, seqnum, devid, direction, ep⟩,
        ⟨unlinkSeqnum, 0, 0, 0, 0, Vector.replicate 8 0⟩⟩

def payload : HostCommand → List U8
  | .submit s => s.data ++ s.isoDescriptors
  | .unlink .. => []

def command (c : HostCommand) : Command := ⟨c.header, c.payload⟩

/-- Big-endian words, raw setup bytes, payload. -/
def serialise (c : HostCommand) : List U8 :=
  c.header.words.flatMap (store .big) ++ c.header.cmdSubmit.setup.toList ++ c.payload

end HostCommand

/-! ### The header in place -/

theorem length_flatMap_store (E : Order) : ∀ ws : List U32, (ws.flatMap (store E)).length = 4 * ws.length
  | [] => rfl
  | w :: ws => by
    rw [List.flatMap_cons, List.length_append, length_store, length_flatMap_store E ws, List.length_cons]
    omega

/-- Word `i` of a row of words. -/
theorem drop_take_flatMap (E : Order) (tail : List U8) : ∀ (ws : List U32) (i : ℕ) (hi : i < ws.length),
    ((ws.flatMap (store E) ++ tail).drop (4 * i)).take 4 = store E ws[i]
  | [], i, hi => by simp at hi
  | w :: ws, 0, _ => by
    have h4 : (store E w).length = 4 := by simp
    simp [List.take_left' h4]
  | w :: ws, i + 1, hi => by
    have h4 : (store E w).length = 4 := by simp
    have hi' : i < ws.length := by simpa using hi
    have hd : (store E w ++ (ws.flatMap (store E) ++ tail)).drop (4 * (i + 1)) =
        (ws.flatMap (store E) ++ tail).drop (4 * i) := by
      rw [show 4 * (i + 1) = (store E w).length + 4 * i by omega, List.drop_length_add_append]
    rw [List.flatMap_cons, List.append_assoc, hd, drop_take_flatMap E tail ws i hi']
    rfl

/-- What the machine reads where the host wrote the big-endian word `ws[i]`. -/
theorem fromBig_word (E : Order) (ws : List U32) (tail : List U8) (i : ℕ) (hi : i < ws.length) :
    fromBig E (UsbipHeader.word E (ws.flatMap (store .big) ++ tail) i) = ws[i] := by
  rw [UsbipHeader.word, drop_take_flatMap .big tail ws i hi, fromBig_load (by decide) E _ (by simp),
    load_store (by decide)]

/-- The setup packet is the eight bytes after the words. -/
theorem setup_ofBytes_append (E : Order) {ws : List U8} (hws : ws.length = 40) (setup : Vector U8 8)
    (tail : List U8) : (UsbipHeader.ofBytes E (ws ++ setup.toList ++ tail)).cmdSubmit.setup = setup := by
  apply Vector.ext
  intro i hi
  simp [UsbipHeader.ofBytes, List.getD_eq_getElem?_getD, List.getElem?_append, hws]

theorem setup_ofBytes (E : Order) (ws : List U32) (hws : ws.length = 10) (setup : Vector U8 8) :
    (UsbipHeader.ofBytes E (ws.flatMap (store .big) ++ setup.toList)).cmdSubmit.setup = setup := by
  have hlen : (ws.flatMap (store .big)).length = 40 := by rw [length_flatMap_store, hws]
  simpa using setup_ofBytes_append E hlen setup []

theorem load_zero (E : Order) : load E 32 (store .big 0#32) = 0#32 := by cases E <;> rfl

/-- Zero padding stays zero, swapped or not. -/
theorem word_zero (E : Order) (ws : List U32) (tail : List U8) (i : ℕ) (hi : i < ws.length)
    (h : ws[i] = 0) : UsbipHeader.word E (ws.flatMap (store .big) ++ tail) i = 0 := by
  rw [UsbipHeader.word, drop_take_flatMap .big tail ws i hi, h]
  exact load_zero E

/-- The header of any command the kernel sends is decoded to the host's values. -/
theorem fromBigEndian_header (E : Order) (c : HostCommand) :
    Command.fromBigEndian E (c.header.words.flatMap (store .big) ++ c.header.cmdSubmit.setup.toList) =
      .ok ⟨c.header, []⟩ := by
  have hs := setup_ofBytes E c.header.words rfl c.header.cmdSubmit.setup
  set bs := c.header.words.flatMap (store .big) ++ c.header.cmdSubmit.setup.toList with hbs
  have hw : ∀ i (hi : i < c.header.words.length), fromBig E (UsbipHeader.word E bs i) = c.header.words[i] :=
    fun i hi => fromBig_word E c.header.words c.header.cmdSubmit.setup.toList i hi
  have h0 : fromBig E (UsbipHeader.word E bs 0) = c.header.base.command := hw 0 (by simp)
  have h1 : fromBig E (UsbipHeader.word E bs 1) = c.header.base.seqnum := hw 1 (by simp)
  have h2 : fromBig E (UsbipHeader.word E bs 2) = c.header.base.devid := hw 2 (by simp)
  have h3 : fromBig E (UsbipHeader.word E bs 3) = c.header.base.direction := hw 3 (by simp)
  have h4 : fromBig E (UsbipHeader.word E bs 4) = c.header.base.ep := hw 4 (by simp)
  have h5 : fromBig E (UsbipHeader.word E bs 5) = c.header.cmdSubmit.transferFlags :=
    hw 5 (by simp)
  cases c with
  | submit s =>
    have h6 : fromBig E (UsbipHeader.word E bs 6) = s.transferBufferLength := hw 6 (by simp)
    have h7 : fromBig E (UsbipHeader.word E bs 7) = s.startFrame := hw 7 (by simp)
    have h8 : fromBig E (UsbipHeader.word E bs 8) = s.numberOfPackets := hw 8 (by simp)
    have h9 : fromBig E (UsbipHeader.word E bs 9) = s.interval := hw 9 (by simp)
    unfold Command.fromBigEndian
    simp only [UsbipHeader.ofBytes] at hs ⊢
    simp only [h0, h1, h2, h3, h4, h5, h6, h7, h8, h9, hs, Command.request, HostCommand.header, ↓reduceIte]
  | unlink seqnum devid direction ep unlinkSeqnum =>
    have h6 : UsbipHeader.word E bs 6 = 0 := word_zero E _ _ 6 (by simp) rfl
    have h7 : UsbipHeader.word E bs 7 = 0 := word_zero E _ _ 7 (by simp) rfl
    have h8 : UsbipHeader.word E bs 8 = 0 := word_zero E _ _ 8 (by simp) rfl
    have h9 : UsbipHeader.word E bs 9 = 0 := word_zero E _ _ 9 (by simp) rfl
    have hne : USBIP_CMD_UNLINK ≠ USBIP_CMD_SUBMIT := by decide
    unfold Command.fromBigEndian
    simp only [UsbipHeader.ofBytes] at hs ⊢
    simp only [h0, h1, h2, h3, h4, h5, h6, h7, h8, h9, hs, Command.request, Command.unlinkSeqnum,
      HostCommand.header, UsbipHeader.cmdUnlink, UsbipHeader.setCmdUnlink, if_neg hne, ↓reduceIte]

/-- A header with any other command word is refused. -/
theorem fromBigEndian_invalid (E : Order) (buffer : List U8)
    (h1 : load .big 32 (buffer.take 4) ≠ USBIP_CMD_SUBMIT)
    (h2 : load .big 32 (buffer.take 4) ≠ USBIP_CMD_UNLINK) (hlen : 4 ≤ buffer.length) :
    Command.fromBigEndian E buffer =
      .error (.runtimeError (makeString "Invalid usbip command:" (load .big 32 (buffer.take 4)))) := by
  have h0 : fromBig E (UsbipHeader.ofBytes E buffer).base.command = load .big 32 (buffer.take 4) := by
    show fromBig E (load E 32 ((buffer.drop 0).take 4)) = _
    rw [List.drop_zero, fromBig_load (by decide) E _ (by simpa using hlen)]
  unfold Command.fromBigEndian
  simp only [h0, Command.request, if_neg h1, if_neg h2]

/-! ### The payload -/

theorem payloadSize_unlink (c : Command) (h : c.isUnlink = true) : c.payloadSize = 0 := by
  simp [Command.payloadSize, h]

theorem transferBufferSize_setWidth (cmd : Command) :
    cmd.transferBufferSize.setWidth 32 = cmd.header.cmdSubmit.transferBufferLength := setWidth_signExtend _

/-- The OUT part of a payload. -/
def HostSubmit.outLength (s : HostSubmit) : I32 :=
  if s.direction = USBIP_DIR_OUT then s.transferBufferLength else 0

theorem HostSubmit.outLength_nonneg (s : HostSubmit) : 0 ≤ s.outLength.toInt := by
  unfold outLength
  split
  · exact s.length_nonneg
  · decide

theorem HostSubmit.outLength_le (s : HostSubmit) : s.outLength.toInt ≤ s.transferBufferLength.toInt := by
  unfold outLength
  split
  · exact le_rfl
  · exact s.length_nonneg

theorem HostSubmit.length_data (s : HostSubmit) : (s.data.length : ℤ) = s.outLength.toInt := by
  rw [s.data_length]
  unfold outLength
  split
  · exact Int.toNat_of_nonneg s.length_nonneg
  · rfl

theorem HostSubmit.isIso_iff (s : HostSubmit) :
    (HostCommand.submit s).command.isIso = true ↔ 0 < s.numberOfPackets.toInt := by
  have h1 := s.packets_ok
  have h0 : s.numberOfPackets.toInt = 0 ↔ s.numberOfPackets = 0 := by
    rw [← BitVec.toInt_inj]; rfl
  have hm : s.numberOfPackets.toInt = -1 ↔ s.numberOfPackets = 0xffffffff#32 := by
    rw [← BitVec.toInt_inj]; rfl
  simp only [Command.isIso, Command.isoPacketCount, HostCommand.command, HostCommand.header,
    decide_eq_true_eq, ← h0, ← hm, ne_eq]
  omega

/-- The sum made in `size_t` and stored in an `int` is the sum of the parts. -/
theorem toInt_payload_sum {a n : I32} (ha : 0 ≤ a.toInt) (hn : 0 ≤ n.toInt)
    (hs : a.toInt + 16 * n.toInt < 2 ^ 31) :
    ((a.signExtend 64 + n.signExtend 64 * BitVec.ofNat 64 sizeofIsoDescriptor).setWidth 32).toInt =
      a.toInt + 16 * n.toInt := by
  have hA := toInt_of_nonneg ha
  have hN := toInt_of_nonneg hn
  have hsum : ((a.signExtend 64 + n.signExtend 64 * BitVec.ofNat 64 sizeofIsoDescriptor).setWidth 32).toNat =
      a.toNat + 16 * n.toNat := by
    have h16 : (BitVec.ofNat 64 sizeofIsoDescriptor).toNat = 16 := rfl
    rw [BitVec.toNat_setWidth, BitVec.toNat_add, BitVec.toNat_mul, h16, toNat_signExtend ha,
      toNat_signExtend hn]
    omega
  rw [BitVec.toInt_eq_toNat_of_lt (by omega), hsum]
  omega

/-- The announced size is the size sent. -/
theorem payloadSize_submit (s : HostSubmit) :
    (Command.payloadSize ⟨(HostCommand.submit s).header, []⟩).toInt =
      (HostCommand.submit s).payload.length := by
  have hlen : ((HostCommand.submit s).payload.length : ℤ) =
      s.outLength.toInt + 16 * (s.numberOfPackets.toInt.toNat : ℤ) := by
    rw [HostCommand.payload, List.length_append, s.iso_length]
    push_cast
    rw [s.length_data]
  have hsize : (if (Command.isOut ⟨(HostCommand.submit s).header, []⟩) then
      (Command.transferBufferSize ⟨(HostCommand.submit s).header, []⟩).setWidth 32 else (0 : I32)) = s.outLength := by
    rw [transferBufferSize_setWidth]
    show (if decide (s.direction = USBIP_DIR_OUT) = true then s.transferBufferLength else 0) = _
    simp only [decide_eq_true_eq]
    rfl
  have hun : (Command.isUnlink ⟨(HostCommand.submit s).header, []⟩) = false := by
    simp [Command.isUnlink, Command.request, HostCommand.header, USBIP_CMD_SUBMIT, USBIP_CMD_UNLINK]
  have hiso := s.isIso_iff
  unfold Command.payloadSize
  simp only [hun, Bool.false_eq_true, ↓reduceIte, hsize]
  by_cases hp : 0 < s.numberOfPackets.toInt
  · have hi : Command.isIso ⟨(HostCommand.submit s).header, []⟩ = true := hiso.mpr hp
    have hle := s.outLength_le
    have hlt := s.size_lt
    rw [if_pos hi, Command.isoDescriptorSize]
    rw [show Command.isoPacketCount ⟨(HostCommand.submit s).header, []⟩ = s.numberOfPackets from rfl,
      toInt_payload_sum s.outLength_nonneg (by omega) (by omega), hlen]
    omega
  · have hi : ¬ Command.isIso ⟨(HostCommand.submit s).header, []⟩ = true := fun h => hp (hiso.mp h)
    rw [if_neg hi, hlen]
    omega

/-- A command is read back, whatever follows it. -/
theorem readCommand_serialise (E : Order) (c : HostCommand) (rest : List U8) :
    readCommand E (c.serialise ++ rest) = .ok (c.command, rest) := by
  have hhdr : (c.header.words.flatMap (store .big) ++ c.header.cmdSubmit.setup.toList).length =
      Command.headerSize := by
    rw [List.length_append, length_flatMap_store]
    simp [Command.headerSize]
  have hread := driverRead_append (c.header.words.flatMap (store .big) ++ c.header.cmdSubmit.setup.toList)
    (c.payload ++ rest) (by rw [hhdr]; decide)
  rw [hhdr] at hread
  have hsize : ((Command.payloadSize ⟨c.header, []⟩).toInt : ℤ) = c.payload.length := by
    cases c with
    | submit s => exact payloadSize_submit s
    | unlink seqnum devid direction ep unlinkSeqnum =>
      rw [payloadSize_unlink]
      · rfl
      · simp [Command.isUnlink, Command.request, HostCommand.header]
  unfold readCommand
  rw [HostCommand.serialise, List.append_assoc, hread]
  simp only [bind, Except.bind, fromBigEndian_header]
  by_cases hz : Command.payloadSize ⟨c.header, []⟩ = 0
  · have hp : c.payload = [] := by
      rw [hz] at hsize
      exact List.eq_nil_of_length_eq_zero (by simpa using hsize.symm)
    simp [hz, hp, HostCommand.command, pure, Except.pure]
  · have hnn : 0 ≤ (Command.payloadSize ⟨c.header, []⟩).toInt := by omega
    have hn : ((Command.payloadSize ⟨c.header, []⟩).signExtend 64).toNat = c.payload.length := by
      rw [toNat_signExtend hnn]
      have := toInt_of_nonneg hnn
      omega
    have hmax : c.payload.length ≤ streambufMaxSize := by
      have := (Command.payloadSize ⟨c.header, []⟩).isLt
      rw [toNat_signExtend hnn] at hn
      unfold streambufMaxSize
      omega
    rw [if_pos hz, hn, driverRead_append c.payload rest hmax]
    simp [HostCommand.command, pure, Except.pure]

theorem readCommand_invalid (E : Order) (stream : List U8) (hlen : Command.headerSize ≤ stream.length)
    (h1 : load .big 32 (stream.take 4) ≠ USBIP_CMD_SUBMIT)
    (h2 : load .big 32 (stream.take 4) ≠ USBIP_CMD_UNLINK) :
    readCommand E stream =
      .error (.runtimeError (makeString "Invalid usbip command:" (load .big 32 (stream.take 4)))) := by
  have ht : (stream.take Command.headerSize).take 4 = stream.take 4 := by
    rw [List.take_take]
    rfl
  have hread : driverRead Command.headerSize stream =
      .ok (stream.take Command.headerSize, stream.drop Command.headerSize) := by
    unfold driverRead
    rw [if_neg (by decide), if_neg (by omega)]
  have hbad := fromBigEndian_invalid E (stream.take Command.headerSize) (by rwa [ht]) (by rwa [ht])
    (by rw [List.length_take]; unfold Command.headerSize at *; omega)
  rw [ht] at hbad
  unfold readCommand
  rw [hread]
  simp only [bind, Except.bind, hbad]

/-- **The request stream.** The reader makes of the kernel's bytes exactly
the commands it sent, down to the last byte, and refuses a header whose
command word is neither of the two. -/
theorem request_stream (E : Order) :
    (∀ cmds : List HostCommand,
      commandProduce E (cmds.flatMap HostCommand.serialise) = (cmds.map HostCommand.command, .eof, [])) ∧
    (∀ stream : List U8, Command.headerSize ≤ stream.length →
      load .big 32 (stream.take 4) ≠ USBIP_CMD_SUBMIT → load .big 32 (stream.take 4) ≠ USBIP_CMD_UNLINK →
      ∃ what, readCommand E stream = .error (.runtimeError what)) :=
  ⟨fun cmds => (commandReader E).all_frames _ _ cmds rfl fun c _ rest => readCommand_serialise E c rest,
    fun stream hlen h1 h2 => ⟨_, readCommand_invalid E stream hlen h1 h2⟩⟩

end Viu
