/-
# What a reply carries

The sizes behind a reply: the data and the descriptors of a completed
transfer (`inBytes`, `isoBytes`), the buffer its command asked for
(`prepareBuffer_in`), its packets (`Done.Made.numIsoPackets`), and the header
and payload that `queueReplyToHost` makes of a request (`reply_retSubmit`,
`reply_payload`). `Reply.From.inn_payload` puts them together for the reply
of an IN submit.
-/
import Viu.Held

namespace Viu

open Bytes

variable {E : Order} {d : Device}

/-! ### A completed transfer -/

/-- The data of a completed IN transfer. -/
def inBytes (E : Order) (transfer : LibusbTransfer) : List U8 :=
  if transfer.isIso then resize (isoData transfer) (isoDescriptors E transfer).dataSize
  else transfer.buffer.take transfer.actualLength

/-- Its iso descriptors, as the host reads them. -/
def isoBytes (E : Order) (transfer : LibusbTransfer) : List U8 :=
  if transfer.isIso then (isoDescriptors E transfer).bytes E else []

theorem length_isoBytes (E : Order) (x : LibusbTransfer) : (isoBytes E x).length = 16 * x.numIsoPackets := by
  unfold isoBytes
  by_cases h : x.isIso = true
  · rw [if_pos h, length_isoDescriptors_bytes, LibusbTransfer.isoDescriptorSize, sizeofIsoDescriptor, mul_comm]
  · have h0 : x.numIsoPackets = 0 := by simpa [LibusbTransfer.isIso] using h
    rw [if_neg h, h0]
    rfl

theorem queueDataForHost_buffer (E : Order) (x : LibusbTransfer) :
    (queueDataForHost E x).buffer = inBytes E x ++ isoBytes E x := by
  unfold queueDataForHost inBytes isoBytes
  split <;> simp

theorem queueDataForHost_isoDescriptorSize (E : Order) (x : LibusbTransfer) :
    (queueDataForHost E x).isoDescriptorSize = (isoBytes E x).length := by
  unfold queueDataForHost isoBytes
  split
  · exact (length_isoDescriptors_bytes E x).symm
  · rfl

theorem size_sendDataToHost (E : Order) (cmd : Command) (x : LibusbTransfer) :
    (sendDataToHost cmd (queueDataForHost E x)).size = (inBytes E x).length := by
  show (queueDataForHost E x).buffer.length - (queueDataForHost E x).isoDescriptorSize = _
  rw [queueDataForHost_buffer, queueDataForHost_isoDescriptorSize, List.length_append, Nat.add_sub_cancel]

/-! ### The transfer a command asks for -/

theorem Command.not_isOut_of_isIn {cmd : Command} (h : cmd.isIn = true) : cmd.isOut = false := by
  have h' : cmd.direction = USBIP_DIR_IN := by simpa [Command.isIn] using h
  simp [Command.isOut, h', USBIP_DIR_IN, USBIP_DIR_OUT]

theorem Command.not_isIn_of_isOut {cmd : Command} (h : cmd.isOut = true) : ¬ cmd.isIn = true := fun hin => by
  rw [Command.not_isOut_of_isIn hin] at h
  cases h

/-- A buffer that could be made is as long as the `int` says. -/
theorem transferBufferSize_lt {cmd : Command} (h : cmd.transferBufferSize.toNat ≤ Proxy.vectorMaxSize) :
    cmd.transferBufferSize.toNat < 2 ^ 31 := by
  unfold Command.transferBufferSize at h ⊢
  have hlt := cmd.header.cmdSubmit.transferBufferLength.isLt
  rw [BitVec.toNat_signExtend, BitVec.toNat_setWidth] at h ⊢
  unfold Proxy.vectorMaxSize at h
  cases hm : cmd.header.cmdSubmit.transferBufferLength.msb with
  | true =>
    rw [hm] at h
    simp only [↓reduceIte] at h
    omega
  | false =>
    have := BitVec.msb_eq_false_iff_two_mul_lt.mp hm
    simp only [Bool.false_eq_true, ↓reduceIte]
    omega

theorem prepareBuffer_in {cmd : Command} {buffer : List U8} (hin : cmd.isIn = true)
    (h : Proxy.prepareBuffer cmd = .ok buffer) :
    buffer.length = cmd.transferBufferSize.toNat ∧ cmd.transferBufferSize.toNat < 2 ^ 31 := by
  unfold Proxy.prepareBuffer at h
  rw [Command.not_isOut_of_isIn hin] at h
  simp only [Bool.false_eq_true, ↓reduceIte] at h
  split at h
  · cases h
  · rename_i hle
    cases h
    exact ⟨length_resize _ _, transferBufferSize_lt (by omega)⟩

/-- The packets of an iso transfer share the buffer evenly. -/
theorem fillIso_eq {info : Info} {x : LibusbTransfer} (h : fillIso info = some x) :
    0 ≤ (info.iso.getD ⟨1, []⟩).packetCount.toInt ∧ x.length = info.buffer.length ∧
      x.buffer = info.buffer ∧ x.isoPacketDesc = List.replicate (info.iso.getD ⟨1, []⟩).packetCount.toNat
        ⟨info.buffer.length / (info.iso.getD ⟨1, []⟩).packetCount.toNat, 0, .completed⟩ := by
  unfold fillIso at h
  dsimp only at h
  split at h
  · cases h
  · rename_i hn
    cases h
    exact ⟨by omega, rfl, rfl, rfl⟩

/-- The lengths of the packets fit the buffer. -/
theorem sum_length_le {x : LibusbTransfer} {n size : ℕ}
    (h : x.isoPacketDesc.map (·.length) = List.replicate n (size / n)) :
    (x.isoPacketDesc.map (·.length)).sum ≤ size := by
  rw [h, List.sum_replicate_nat]
  exact Nat.mul_div_le size n

/-- What is known of the transfer of an IN submit that completed. -/
structure Done.Filled (x : Done) : Prop where
  size : x.job.cmd.transferBufferSize.toNat < 2 ^ 31
  length : x.transfer.length = x.job.cmd.transferBufferSize.toNat
  buffer : x.transfer.buffer.length = x.job.cmd.transferBufferSize.toNat
  actualLength : x.transfer.actualLength ≤ x.job.cmd.transferBufferSize.toNat
  packets : (x.transfer.isoPacketDesc.map (·.actualLength)).sum ≤ x.job.cmd.transferBufferSize.toNat

theorem Done.Made.filled {x : Done} (h : x.Made d) (hin : x.job.isEpIn = true) : x.Filled := by
  obtain ⟨p, hp, hj, hc⟩ := h.completes
  obtain ⟨info, type, hinfo, -, -, hfill⟩ := Proxy.submitTransfer_eq hp.submitted
  rw [hj] at hinfo
  obtain ⟨hbuf, -, -, -⟩ := Proxy.prepareTransfer_eq hinfo
  obtain ⟨hlen, hlt⟩ := prepareBuffer_in (Job.isEpIn_eq hin).2.2.1 hbuf
  obtain ⟨hxl, hxb, hxp⟩ : p.transfer.length = info.buffer.length ∧ p.transfer.buffer = info.buffer ∧
      (p.transfer.isoPacketDesc.map (·.length)).sum ≤ info.buffer.length := by
    rcases hfill with ⟨-, hf⟩ | ⟨-, hf⟩
    · obtain ⟨-, h1, h2, h3⟩ := fillIso_eq hf
      refine ⟨h1, h2, sum_length_le (n := (info.iso.getD ⟨1, []⟩).packetCount.toNat) ?_⟩
      rw [h3, List.map_replicate]
    · rw [hf]
      exact ⟨rfl, rfl, Nat.zero_le _⟩
  have hsum := sum_actualLength_le _ hc.packetLengths
  rw [hc.packets] at hsum
  exact ⟨hlt, by rw [hc.length, hxl, hlen], by rw [hc.buffer, hxb, hlen], by have := hc.actualLength; omega,
    by omega⟩

/-- The data of a completed IN transfer fits the buffer the host has for it. -/
theorem Done.Filled.length_inBytes_le {x : Done} (h : x.Filled) (E : Order) :
    (inBytes E x.transfer).length ≤ x.job.cmd.transferBufferSize.toNat := by
  unfold inBytes
  split
  · rw [length_resize]
    exact h.packets
  · rw [List.length_take, h.buffer]
    exact min_le_right _ _

/-- Off the iso endpoints it is exactly what the device reported. -/
theorem Done.Filled.length_inBytes {x : Done} (h : x.Filled) (E : Order) (hi : x.transfer.isIso = false) :
    (inBytes E x.transfer).length = x.transfer.actualLength := by
  unfold inBytes
  rw [hi]
  simp only [Bool.false_eq_true, ↓reduceIte]
  rw [List.length_take, h.buffer]
  exact min_eq_left h.actualLength

/-- The endpoint of the command is isochronous. -/
def Job.isIsoEp (d : Device) (j : Job) : Bool := d.epTransferType j.cmd.epAddress = some .isochronous

/-- The address of IN endpoint `e`. -/
def inAddress (e : ℕ) : U8 := (BitVec.ofNat 32 e ||| 0x80#32).setWidth 8

theorem epAddress_of_at {e : ℕ} {j : Job} (h : j.At e) : j.cmd.epAddress = inAddress e := by
  unfold Command.epAddress inAddress
  rw [(Job.isEpIn_eq h.1).2.2.1, ← h.2, BitVec.ofNat_toNat, BitVec.setWidth_eq]
  rfl

/-- IN endpoint `e` is bulk or interrupt. -/
def Device.IsBulkOrInterruptIn (d : Device) (e : ℕ) : Prop :=
  d.epTransferType (inAddress e) = some .bulk ∨ d.epTransferType (inAddress e) = some .interrupt

theorem isIsoEp_of_at {j : Job} {e : ℕ} (h : d.IsBulkOrInterruptIn e) (hat : j.At e) : j.isIsoEp d = false := by
  unfold Job.isIsoEp
  rw [epAddress_of_at hat]
  rcases h with h | h <;> rw [h] <;> rfl

/-- A completed transfer has the packets its command asked for, and none off
the iso endpoints. -/
theorem Done.Made.numIsoPackets {x : Done} (h : x.Made d) :
    (x.job.isIsoEp d = false → x.transfer.numIsoPackets = 0) ∧
    (x.job.isIsoEp d = true → x.job.cmd.isIso = true →
      0 ≤ x.job.cmd.isoPacketCount.toInt ∧ x.transfer.numIsoPackets = x.job.cmd.isoPacketCount.toNat) := by
  obtain ⟨p, hp, hj, hc⟩ := h.completes
  obtain ⟨info, type, hinfo, -, htype, hfill⟩ := Proxy.submitTransfer_eq hp.submitted
  rw [hj] at hinfo htype
  rw [hc.numIsoPackets]
  unfold Job.isIsoEp
  rw [htype]
  rcases hfill with ⟨rfl, hf⟩ | ⟨hty, hf⟩
  · refine ⟨fun h => by simp at h, fun _ hi => ?_⟩
    obtain ⟨hnn, -, -, hpk⟩ := fillIso_eq hf
    obtain ⟨-, -, -, hiso⟩ := Proxy.prepareTransfer_eq hinfo
    rw [hi] at hiso
    obtain ⟨iso, hio, hpc⟩ := Option.map_eq_some_iff.mp (hiso.trans (if_pos rfl))
    rw [hio, Option.getD_some, hpc] at hnn hpk
    exact ⟨hnn, by rw [LibusbTransfer.numIsoPackets, hpk, List.length_replicate]⟩
  · refine ⟨fun _ => by rw [hf]; rfl, fun h => ?_⟩
    rcases hty with rfl | rfl <;> simp at h

/-! ### The reply of a request -/

theorem retSubmit_setRetSubmit (h : UsbipHeader) (r : UsbipHeaderRetSubmit) :
    (h.setRetSubmit r).retSubmit = r := rfl

theorem reply_retSubmit {req : QueueReplyRequest} {rep : Command} (hs : req.cmd.isSubmit = true)
    (h : queueReplyToHost E req = .ok rep) :
    rep.header.retSubmit =
      req.cmd.makeRetSubmitHeader E req.size req.status (BitVec.ofNat 32 req.errorCount) := by
  rw [queueReplyToHost_submit E hs] at h
  rw [← Except.ok.inj h, retSubmit_setRetSubmit]

theorem reply_payload {req : QueueReplyRequest} {rep : Command} (hs : req.cmd.isSubmit = true)
    (h : queueReplyToHost E req = .ok rep) :
    rep.payload = (req.data.map (resize · req.payloadSize)).getD [] := by
  rw [queueReplyToHost_submit E hs] at h
  rw [← Except.ok.inj h]

/-- The length and status in a reply's header, as the host reads them. -/
def Command.actualLength (E : Order) (rep : Command) : U32 := fromBig E rep.header.retSubmit.actualLength
def Command.status (E : Order) (rep : Command) : I32 := fromBig E rep.header.retSubmit.status
def Command.numberOfPackets (E : Order) (rep : Command) : I32 := fromBig E rep.header.retSubmit.numberOfPackets

section reply

variable {req : QueueReplyRequest} {rep : Command} (hs : req.cmd.isSubmit = true)
  (h : queueReplyToHost E req = .ok rep)
include hs h

theorem reply_actualLength : rep.actualLength E = BitVec.ofNat 32 req.size := by
  rw [Command.actualLength, reply_retSubmit hs h]
  exact fromBig_toBig (by decide) E _

theorem reply_status : rep.status E = req.status := by
  rw [Command.status, reply_retSubmit hs h]
  exact fromBig_toBig (by decide) E _

theorem reply_numberOfPackets : rep.numberOfPackets E = req.cmd.isoPacketCount := by
  rw [Command.numberOfPackets, reply_retSubmit hs h]
  exact fromBig_toBig (by decide) E _

end reply

/-- The reply a transfer thread makes of a command and a block: the data of the
transfer, and its descriptors if the command is iso. -/
theorem inn_payload {cmd : Command} {x : LibusbTransfer} {rep : Command} (hs : cmd.isSubmit = true)
    (hin : cmd.isIn = true) (h : queueReplyToHost E (sendDataToHost cmd (queueDataForHost E x)) = .ok rep) :
    rep.payload = inBytes E x ++ if cmd.isIso then isoBytes E x else [] := by
  have hsize : (sendDataToHost cmd (queueDataForHost E x)).payloadSize =
      (inBytes E x).length + if cmd.isIso then (isoBytes E x).length else 0 := by
    unfold QueueReplyRequest.payloadSize
    rw [size_sendDataToHost]
    simp only [sendDataToHost, Command.not_isOut_of_isIn hin, queueDataForHost_isoDescriptorSize,
      Bool.false_eq_true, ↓reduceIte]
  rw [reply_payload hs h, hsize]
  show resize (queueDataForHost E x).buffer _ = _
  rw [queueDataForHost_buffer]
  split
  · rw [← List.length_append, resize_length]
  · rw [Nat.add_zero, resize_of_le (by rw [List.length_append]; omega), List.take_left, List.append_nil]

end Viu
