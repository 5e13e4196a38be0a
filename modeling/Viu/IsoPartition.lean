/-
# The packets of an isochronous OUT transfer

The host cuts the buffer of an iso OUT submit into packets and says where in
the descriptors behind the data. `prepare_transfer` keeps the descriptors in
the transfer's info, but `fill_iso` does not read them: it gives every packet
the buffer's size divided by their number. The data arrives whole and in
order; the packets are the host's just when the host's are all of one length
(`iso_partition_iff`).
-/
import Viu.IsoLayout

namespace Viu

open Bytes Ints

variable {d : Device} {s : HostSubmit} {lengths : List ℕ}

/-- The descriptors of the submit cut its buffer into packets of these lengths. -/
structure HostSubmit.Partitions (s : HostSubmit) (lengths : List ℕ) : Prop where
  count : lengths.length = s.numberOfPackets.toNat
  offset : ∀ i < lengths.length, isoWord s.isoDescriptors i 0 = (lengths.take i).sum
  length : ∀ i, (hi : i < lengths.length) → isoWord s.isoDescriptors i 1 = lengths[i]
  total : lengths.sum = s.transferBufferLength.toNat

/-- The transfer handed to libusb has the host's data, and packets of these lengths
that leave no byte out. -/
def HandsOver (d : Device) (s : HostSubmit) (lengths : List ℕ) : Prop :=
  ∃ cb x, Proxy.submitTransfer d (HostCommand.submit s).command = .ok (some (some (cb, x))) ∧
    x.buffer = s.data ∧ x.length = s.data.length ∧ x.numIsoPackets = s.numberOfPackets.toNat ∧
    x.isoPacketDesc.map (·.length) = lengths ∧ (x.isoPacketDesc.map (·.length)).sum = x.length

theorem isOut_of_direction (hout : s.direction = USBIP_DIR_OUT) : (HostCommand.submit s).command.isOut = true := by
  exact decide_eq_true hout

theorem length_data_out (hout : s.direction = USBIP_DIR_OUT) : s.data.length = s.transferBufferLength.toNat := by
  rw [s.data_length, if_pos hout, toInt_of_nonneg s.length_nonneg]
  rfl

/-- Cutting the descriptors off leaves the data. -/
theorem prepareBuffer_iso_out (hout : s.direction = USBIP_DIR_OUT) (hn : 0 < s.numberOfPackets.toInt) :
    Proxy.prepareBuffer (HostCommand.submit s).command = .ok s.data := by
  have hcount := toInt_of_nonneg hn.le
  have hlen := toInt_of_nonneg s.length_nonneg
  have hdata := length_data_out hout
  have hlt := s.size_lt
  have hpayload : (HostCommand.submit s).command.payload = s.data ++ s.isoDescriptors := rfl
  have hdesc : (HostCommand.submit s).command.isoDescriptorSize.toNat = s.isoDescriptors.length := by
    change (s.numberOfPackets.signExtend 64 * BitVec.ofNat 64 sizeofIsoDescriptor).toNat = _
    have h16 : (BitVec.ofNat 64 sizeofIsoDescriptor).toNat = 16 := rfl
    rw [BitVec.toNat_mul, h16, toNat_signExtend hn.le, s.iso_length, hcount]
    omega
  have hsize : (BitVec.ofNat 64 (HostCommand.submit s).command.payload.length -
      (HostCommand.submit s).command.isoDescriptorSize).toNat = s.data.length := by
    have hiso := s.iso_length
    rw [BitVec.toNat_sub, hdesc, BitVec.toNat_ofNat, hpayload, List.length_append]
    omega
  unfold Proxy.prepareBuffer
  rw [if_pos (isOut_of_direction hout), if_pos ((HostSubmit.isIso_iff s).mpr hn)]
  dsimp only
  rw [hsize, if_neg (by unfold Proxy.vectorMaxSize; omega), hpayload, resize_of_le (by simp), List.take_left]

/-- What `submit_iso_transfer` makes of the submit. -/
theorem submitTransfer_iso_out (hout : s.direction = USBIP_DIR_OUT) (hn : 0 < s.numberOfPackets.toInt)
    (htype : d.epTransferType (HostCommand.submit s).command.epAddress = some .isochronous) :
    ∃ cb x, Proxy.submitTransfer d (HostCommand.submit s).command = .ok (some (some (cb, x))) ∧
      x.buffer = s.data ∧ x.length = s.data.length ∧
      x.isoPacketDesc = List.replicate s.numberOfPackets.toNat
        ⟨s.data.length / s.numberOfPackets.toNat, 0, .completed⟩ := by
  have hiso := (HostSubmit.isIso_iff s).mpr hn
  have hcount : (HostCommand.submit s).command.isoPacketCount = s.numberOfPackets := rfl
  unfold Proxy.submitTransfer Proxy.prepareTransfer
  rw [htype, prepareBuffer_iso_out hout hn]
  simp only [bind, Except.bind, hiso, ↓reduceIte, pure, Except.pure, Except.map, fillIso, Option.getD_some, hcount,
    if_neg (not_lt.mpr hn.le), Option.map_some]
  exact ⟨_, _, rfl, rfl, rfl, rfl⟩

/-- **The packets of an iso OUT submit** are the host's just when those are all of
one length. -/
theorem iso_partition_iff (hout : s.direction = USBIP_DIR_OUT) (hn : 0 < s.numberOfPackets.toInt)
    (hp : s.Partitions lengths)
    (htype : d.epTransferType (HostCommand.submit s).command.epAddress = some .isochronous) :
    HandsOver d s lengths ↔ ∀ a ∈ lengths, ∀ b ∈ lengths, a = b := by
  obtain ⟨cb, x, hx, hbuffer, hlength, hpackets⟩ := submitTransfer_iso_out hout hn htype
  have hpos : 0 < s.numberOfPackets.toNat := by
    have := toInt_of_nonneg hn.le
    omega
  have hdata : lengths.sum = s.data.length := by rw [hp.total, length_data_out hout]
  have hmap : x.isoPacketDesc.map (·.length) =
      List.replicate s.numberOfPackets.toNat (s.data.length / s.numberOfPackets.toNat) := by
    rw [hpackets, List.map_replicate]
  refine ⟨fun h a ha b hb => ?_, fun hall => ?_⟩
  · obtain ⟨cb', y, hy, -, -, -, hl, -⟩ := h
    rw [hx] at hy
    cases hy
    rw [← hl, hmap] at ha hb
    rw [List.eq_of_mem_replicate ha, List.eq_of_mem_replicate hb]
  · obtain ⟨a, ha⟩ := List.exists_mem_of_length_pos (hp.count ▸ hpos)
    have hsame : lengths = List.replicate s.numberOfPackets.toNat a :=
      List.eq_replicate_iff.mpr ⟨hp.count, fun b hb => hall b hb a ha⟩
    have hsum : s.data.length = s.numberOfPackets.toNat * a := by
      rw [← hdata, hsame, List.sum_replicate_nat]
    have hdiv : s.data.length / s.numberOfPackets.toNat = a := by
      rw [hsum, Nat.mul_div_cancel_left _ hpos]
    rw [hdiv, ← hsame] at hmap
    refine ⟨cb, x, hx, hbuffer, hlength, ?_, hmap, ?_⟩
    · rw [LibusbTransfer.numIsoPackets, hpackets, List.length_replicate]
    · rw [hmap, hdata, hlength]

/-- A mock device with an isochronous endpoint 1 in each direction. -/
def isoDevice : Device := .mock [⟨⟨7, 5, 0x01, 1, 64, 1, 0, 0⟩, []⟩, ⟨⟨7, 5, 0x81, 1, 64, 1, 0, 0⟩, []⟩]

/-- An OUT submit of four bytes in two packets, which begin at 0 and at `second`. -/
def twoPackets (second : U8) : HostSubmit where
  seqnum := 1
  devid := 0
  direction := USBIP_DIR_OUT
  ep := 1
  transferFlags := 0
  transferBufferLength := 4
  startFrame := 0
  numberOfPackets := 2
  interval := 0
  setup := Vector.replicate 8 0
  data := [1, 2, 3, 4]
  isoDescriptors := [0, 0, 0, 0, 0, 0, 0, second, 0, 0, 0, 0, 0, 0, 0, 0,
    0, 0, 0, second, 0, 0, 0, 4 - second, 0, 0, 0, 0, 0, 0, 0, 0]
  direction_ok := .inr rfl
  length_nonneg := by decide
  packets_ok := by decide
  size_lt := by decide
  data_length := rfl
  iso_length := rfl

/-- Packets of one and of three bytes become two of two. -/
theorem iso_partition_lost : ¬ ∀ (d : Device) (s : HostSubmit) (lengths : List ℕ), s.direction = USBIP_DIR_OUT →
    0 < s.numberOfPackets.toInt → s.Partitions lengths →
    d.epTransferType (HostCommand.submit s).command.epAddress = some .isochronous → HandsOver d s lengths := by
  intro h
  have hp : (twoPackets 1).Partitions [1, 3] := ⟨rfl, by decide, by decide, by decide⟩
  obtain ⟨cb, x, hx, -, -, -, hl, -⟩ := h isoDevice (twoPackets 1) [1, 3] rfl (by decide) hp (by decide)
  obtain ⟨cb', y, hy, -, -, hpackets⟩ := submitTransfer_iso_out (d := isoDevice) (s := twoPackets 1) rfl (by decide)
    (by decide)
  rw [hx] at hy
  cases hy
  rw [hpackets] at hl
  revert hl
  decide

theorem iso_partition_equal : HandsOver isoDevice (twoPackets 2) [2, 2] :=
  have hp : (twoPackets 2).Partitions [2, 2] := ⟨rfl, by decide, by decide, by decide⟩
  (iso_partition_iff rfl (by decide) hp (by decide)).mpr (by decide)

end Viu
