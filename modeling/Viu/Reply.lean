/-
# Replies

`basic::queue_reply_to_host` and the two ends of the IN data queues,
`queue_data_for_host` and `send_data_to_host`. The functions return what the
source pushes: `queueReplyToHost` the reply for `replies_queue_`,
`queueDataForHost` the block for `in_data_`.
-/
import Viu.Transfer

namespace Viu

open Bytes

/-- The value of ECONNRESET. -/
def ECONNRESET : ℤ := 104

/-- `data` is a pointer: `none` is null, `some` the memory behind it. -/
structure QueueReplyRequest where
  cmd : Command
  data : Option (List U8) := none
  size : ℕ := 0
  status : I32 := 0
  isoDescriptorSize : ℕ := 0
  errorCount : ℕ := 0
  deriving DecidableEq, Repr

/-- The size of the reply's payload before it is filled. -/
def QueueReplyRequest.payloadSize (req : QueueReplyRequest) : ℕ :=
  (if req.cmd.isOut then 0 else req.size) + if req.cmd.isIso then req.isoDescriptorSize else 0

/-- `std::memcpy` of `size` bytes; what lies past the end of `data` is
unspecified, 0 here. -/
def queueReplyToHost (E : Order) (req : QueueReplyRequest) : Except Exn Command :=
  let cmd := req.cmd
  let header := { UsbipHeader.zero with base := cmd.replyHeader E }
  if cmd.request = USBIP_CMD_SUBMIT then
    let header := header.setRetSubmit
      (cmd.makeRetSubmitHeader E req.size req.status (BitVec.ofNat 32 req.errorCount))
    .ok ⟨header, (req.data.map (resize · req.payloadSize)).getD []⟩
  else if cmd.request = USBIP_CMD_UNLINK then
    .ok ⟨header.setRetUnlink (Command.makeRetUnlinkHeader E req.status), []⟩
  else .error (.runtimeError (makeString "Invalid request:" cmd.request))

/-- `basic::transfer_data`. -/
structure TransferData where
  buffer : List U8
  isoDescriptorSize : ℕ
  errorCount : ℕ
  deriving DecidableEq, Repr

/-- The block of a completed IN transfer. For an iso transfer the packets'
data is cut or padded to the sum of the actual lengths, and the descriptors
follow. -/
def queueDataForHost (E : Order) (transfer : LibusbTransfer) : TransferData :=
  if transfer.isIso then
    let isoDesc := isoDescriptors E transfer
    { buffer := resize (isoData transfer) isoDesc.dataSize ++ isoDesc.bytes E
      isoDescriptorSize := transfer.isoDescriptorSize
      errorCount := isoDesc.errorCount }
  else
    { buffer := transfer.buffer.take transfer.actualLength
      isoDescriptorSize := 0
      errorCount := 0 }

/-- The request `send_data_to_host` makes of the command and the block it pulled. -/
def sendDataToHost (cmd : Command) (data : TransferData) : QueueReplyRequest where
  cmd := cmd
  data := some data.buffer
  size := data.buffer.length - data.isoDescriptorSize
  status := 0
  isoDescriptorSize := data.isoDescriptorSize
  errorCount := data.errorCount

/-- The request of `unlink_command`. -/
def unlinkReply (cmd : Command) (status : I32) : QueueReplyRequest := { cmd := cmd, status := status }

/-! ### What a reply is -/

theorem queueReplyToHost_submit (E : Order) {req : QueueReplyRequest} (h : req.cmd.isSubmit = true) :
    queueReplyToHost E req = .ok
      ⟨{ UsbipHeader.zero with base := req.cmd.replyHeader E }.setRetSubmit
        (req.cmd.makeRetSubmitHeader E req.size req.status (BitVec.ofNat 32 req.errorCount)),
        (req.data.map (resize · req.payloadSize)).getD []⟩ := by
  have h' : req.cmd.request = USBIP_CMD_SUBMIT := by simpa [Command.isSubmit] using h
  unfold queueReplyToHost
  simp only [h', ↓reduceIte]

theorem isSubmit_eq_false_of_isUnlink {cmd : Command} (h : cmd.isUnlink = true) : cmd.isSubmit = false := by
  have h' : cmd.request = USBIP_CMD_UNLINK := by simpa [Command.isUnlink] using h
  simp [Command.isSubmit, h', USBIP_CMD_UNLINK, USBIP_CMD_SUBMIT]

theorem queueReplyToHost_unlink (E : Order) {req : QueueReplyRequest} (h : req.cmd.isUnlink = true) :
    queueReplyToHost E req = .ok
      ⟨{ UsbipHeader.zero with base := req.cmd.replyHeader E }.setRetUnlink
        (Command.makeRetUnlinkHeader E req.status), []⟩ := by
  have h' : req.cmd.request = USBIP_CMD_UNLINK := by simpa [Command.isUnlink] using h
  have hne : USBIP_CMD_UNLINK ≠ USBIP_CMD_SUBMIT := by decide
  unfold queueReplyToHost
  simp only [h', if_neg hne, ↓reduceIte]

/-- Whatever the reply, its header's base is the command's reply header. -/
theorem queueReplyToHost_base {E : Order} {req : QueueReplyRequest} {rep : Command}
    (h : queueReplyToHost E req = .ok rep) : rep.header.base = req.cmd.replyHeader E := by
  unfold queueReplyToHost at h
  dsimp only at h
  split at h
  · rw [← Except.ok.inj h]; rfl
  · split at h
    · rw [← Except.ok.inj h]; rfl
    · cases h

end Viu
