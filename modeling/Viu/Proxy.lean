/-
# The proxy

`viu::device::proxy`: the control handlers, the transfer a command is turned
into, and the completion callbacks. Every control handler ends in one
`queue_reply_to_host(req)`; the definitions return that `req`, with the
device as the call left it where the call can change it.
-/
import Viu.Device
import Viu.Reply

namespace Viu

open Bytes

def LIBUSB_REQUEST_TYPE_STANDARD : U8 := 0x00#8
def LIBUSB_RECIPIENT_DEVICE : U8 := 0x00#8
def LIBUSB_RECIPIENT_INTERFACE : U8 := 0x01#8
def LIBUSB_REQUEST_GET_STATUS : U8 := 0x00#8
def LIBUSB_REQUEST_GET_DESCRIPTOR : U8 := 0x06#8
def LIBUSB_REQUEST_SET_CONFIGURATION : U8 := 0x09#8
def LIBUSB_REQUEST_GET_INTERFACE : U8 := 0x0a#8
def LIBUSB_REQUEST_SET_INTERFACE : U8 := 0x0b#8
def LIBUSB_SET_ISOCH_DELAY : U8 := 0x31#8
def LIBUSB_DT_DEVICE : U8 := 0x01#8
def LIBUSB_DT_CONFIG : U8 := 0x02#8
def LIBUSB_DT_STRING : U8 := 0x03#8
def LIBUSB_DT_BOS : U8 := 0x0f#8
def LIBUSB_DT_REPORT : U8 := 0x22#8

/-- `integral<std::uint8_t>::at<1>` and `at<0>` of `wValue`. -/
def typeFromValue (value : U16) : U8 := (value >>> 8).setWidth 8
def indexFromValue (value : U16) : U8 := value.setWidth 8

namespace Proxy

variable (E : Order) (io : Io) (d : Device) (cmd : Command)

/-! ### Control transfers, device to host -/

/-- The forwarding reply of the IN handlers: the data the device or plugin
returned, whole. -/
def submitCtrlSetupIn : QueueReplyRequest :=
  match d.submitControlSetup io (cmd.controlSetup E) [] with
  | .ok data => { cmd := cmd, data := some data, size := data.length }
  | .error result => { cmd := cmd, status := result }

/-- The end of `descriptor`: nothing to send is status 1. -/
def descriptorReply (descriptorData : List U8) : QueueReplyRequest where
  cmd := cmd
  data := some descriptorData
  size := min descriptorData.length (cmd.controlSetup E).wLength.toNat
  status := if descriptorData.isEmpty then 1 else 0

def descriptor : Except Exn QueueReplyRequest :=
  let controlSetup := cmd.controlSetup E
  let descriptorType := typeFromValue controlSetup.wValue
  let descriptorIndex := indexFromValue controlSetup.wValue
  if descriptorType = LIBUSB_DT_DEVICE then .ok (descriptorReply E cmd d.packDeviceDescriptor)
  else if descriptorType = LIBUSB_DT_CONFIG then
    .ok (descriptorReply E cmd (d.packConfigDescriptor descriptorIndex))
  else if descriptorType = LIBUSB_DT_STRING then
    (d.packStringDescriptor controlSetup.wIndex descriptorIndex).map (descriptorReply E cmd)
  else if descriptorType = LIBUSB_DT_BOS then .ok (descriptorReply E cmd d.packBosDescriptor)
  else if descriptorType = LIBUSB_DT_REPORT then .ok (descriptorReply E cmd d.packReportDescriptor)
  else
    match d.submitControlSetup io controlSetup [] with
    | .ok data => .ok (descriptorReply E cmd data)
    | .error result => .ok { cmd := cmd, status := result }

def getStatusReply : QueueReplyRequest where
  cmd := cmd
  data := some (store E (if d.isSelfPowered then 1#16 else 0#16))
  size := 2

def executeStdInDeviceControlCommand : Except Exn QueueReplyRequest :=
  let controlSetup := cmd.controlSetup E
  if controlSetup.bRequest = LIBUSB_REQUEST_GET_STATUS then .ok (getStatusReply E d cmd)
  else if controlSetup.bRequest = LIBUSB_REQUEST_GET_DESCRIPTOR then descriptor E io d cmd
  else .ok (submitCtrlSetupIn E io d cmd)

def executeStdInInterfaceControlCommand : Except Exn QueueReplyRequest :=
  let controlSetup := cmd.controlSetup E
  if controlSetup.bRequest = LIBUSB_REQUEST_GET_DESCRIPTOR then descriptor E io d cmd
  else .ok (submitCtrlSetupIn E io d cmd)

def executeInControlCommand : Except Exn QueueReplyRequest :=
  if cmd.requestType E ≠ LIBUSB_REQUEST_TYPE_STANDARD then .ok (submitCtrlSetupIn E io d cmd)
  else if cmd.recipient E = LIBUSB_RECIPIENT_DEVICE then executeStdInDeviceControlCommand E io d cmd
  else if cmd.recipient E = LIBUSB_RECIPIENT_INTERFACE then executeStdInInterfaceControlCommand E io d cmd
  else .ok (submitCtrlSetupIn E io d cmd)

/-! ### Control transfers, host to device -/

/-- The forwarding reply of the OUT handlers. -/
def submitCtrlSetupOut : QueueReplyRequest where
  cmd := cmd
  size := (cmd.controlSetup E).wLength.toNat
  status :=
    match d.submitControlSetup io (cmd.controlSetup E) cmd.payload with
    | .ok _ => 0
    | .error result => result

/-- The device's answer is only asserted on. -/
def setConfiguration : QueueReplyRequest where
  cmd := cmd
  size := cmd.transferBufferSize.toNat

def interface : QueueReplyRequest where
  cmd := cmd
  data := some [d.currentAltsetting ((cmd.controlSetup E).wIndex.setWidth 8)]
  size := 1

def executeStdOutDeviceControlCommand : QueueReplyRequest :=
  let controlSetup := cmd.controlSetup E
  if controlSetup.bRequest = LIBUSB_REQUEST_SET_CONFIGURATION then setConfiguration cmd
  else if controlSetup.bRequest = LIBUSB_SET_ISOCH_DELAY then { cmd := cmd }
  else submitCtrlSetupOut E io d cmd

/-- The answer to SET_INTERFACE is only asserted on. -/
def executeStdOutInterfaceControlCommand : QueueReplyRequest × Device :=
  let controlSetup := cmd.controlSetup E
  if controlSetup.bRequest = LIBUSB_REQUEST_GET_INTERFACE then (interface E d cmd, d)
  else if controlSetup.bRequest = LIBUSB_REQUEST_SET_INTERFACE then
    let (_, d) := d.setInterface io (controlSetup.wIndex.setWidth 8) (controlSetup.wValue.setWidth 8)
    ({ cmd := cmd, size := controlSetup.wLength.toNat }, d)
  else (submitCtrlSetupOut E io d cmd, d)

def executeOutControlCommand : QueueReplyRequest × Device :=
  if cmd.requestType E ≠ LIBUSB_REQUEST_TYPE_STANDARD then (submitCtrlSetupOut E io d cmd, d)
  else if cmd.recipient E = LIBUSB_RECIPIENT_DEVICE then (executeStdOutDeviceControlCommand E io d cmd, d)
  else if cmd.recipient E = LIBUSB_RECIPIENT_INTERFACE then executeStdOutInterfaceControlCommand E io d cmd
  else (submitCtrlSetupOut E io d cmd, d)

/-- `basic::execute_control_command` on the proxy's handlers. -/
def executeControlCommand : Except Exn (QueueReplyRequest × Device) :=
  if cmd.isIn then (executeInControlCommand E io d cmd).map (·, d)
  else if cmd.isOut then .ok (executeOutControlCommand E io d cmd)
  else .error (.runtimeError "Invalid command direction")

/-! ### Endpoint transfers -/

/-- The most a `std::vector<std::uint8_t>` can hold. -/
def vectorMaxSize : ℕ := 2 ^ 63 - 1

/-- The iso descriptors at the end of an OUT payload are cut off in `size_t`. -/
def prepareBuffer : Except Exn (List U8) :=
  if cmd.isOut then
    if cmd.isIso then
      let size := (BitVec.ofNat 64 cmd.payload.length - cmd.isoDescriptorSize).toNat
      if vectorMaxSize < size then .error .lengthError else .ok (resize cmd.payload size)
    else .ok cmd.payload
  else if vectorMaxSize < cmd.transferBufferSize.toNat then .error .lengthError
  else .ok (resize [] cmd.transferBufferSize.toNat)

def prepareIsoDescriptorsBuffer : List U8 :=
  if cmd.isOut then cmd.payload.drop (cmd.payload.length - cmd.isoDescriptorSize.toNat) else []

def prepareTransfer : Except Exn Info := do
  let buffer ← prepareBuffer cmd
  if cmd.isIso then
    return { epAddress := cmd.epAddress
             buffer := buffer
             callback := if cmd.isIn then .inIso else .outIso cmd
             iso := some ⟨cmd.isoPacketCount, prepareIsoDescriptorsBuffer cmd⟩ }
  return { epAddress := cmd.epAddress
           buffer := buffer
           callback := if cmd.isIn then .inn else .out cmd
           iso := none }

/-- `submit_transfer`, down to what `device::submit_transfer_impl` attaches to
the pending map: the callback and the transfer, or nothing on an endpoint
whose type is control. An address without endpoint, and an iso command with a
negative packet count, are undefined behaviour: `none`. -/
def submitTransfer : Except Exn (Option (Option (Callback × LibusbTransfer))) :=
  match d.epTransferType cmd.epAddress with
  | none => .ok none
  | some .control => .ok (some none)
  | some .isochronous =>
    (prepareTransfer cmd).map fun info => (fillIso info).map fun transfer => some (info.callback, transfer)
  | some .bulk => (prepareTransfer cmd).map fun info => some (some (info.callback, fillBulk info))
  | some .interrupt => (prepareTransfer cmd).map fun info => some (some (info.callback, fillInterrupt info))

def onOutIsoTransferComplete (transfer : LibusbTransfer) : QueueReplyRequest :=
  let isoDesc := isoDescriptors E transfer
  { cmd := cmd
    data := some (isoDesc.bytes E)
    size := isoDesc.dataSize
    status := 0
    isoDescriptorSize := transfer.isoDescriptorSize
    errorCount := isoDesc.errorCount }

/-- No status is set. -/
def onOutTransferComplete (transfer : LibusbTransfer) : QueueReplyRequest where
  cmd := cmd
  size := transfer.actualLength

/-- What a completion leaves in a queue: a block for the host in `in_data_`, or
a reply. -/
inductive Completion
  | data (ep : ℕ) (block : TransferData)
  | reply (req : QueueReplyRequest)
  deriving DecidableEq, Repr

def callback (cb : Callback) (transfer : LibusbTransfer) : Completion :=
  match cb with
  | .inIso | .inn => .data (transfer.endpoint &&& 0x0f#8).toNat (queueDataForHost E transfer)
  | .outIso cmd => .reply (onOutIsoTransferComplete E cmd transfer)
  | .out cmd => .reply (onOutTransferComplete cmd transfer)

/-- `pending_map::on_transfer_completed_impl`: a transfer that timed out or was
cancelled is released without its callback. -/
def onTransferCompletedImpl (cb : Callback) (transfer : LibusbTransfer) : Option Completion :=
  if transfer.status = .timedOut ∨ transfer.status = .cancelled then none
  else some (callback E cb transfer)

/-! ### What the handlers keep -/

variable {E : Order} {io : Io} {d d' : Device} {cmd : Command} {req : QueueReplyRequest}

/-- What `submit_control_setup` returns: data as long as the result says, or
the negative result. -/
theorem submitControlSetup_cases (setup : LibusbControlSetup) (data : List U8) :
    (∃ out : List U8, d.submitControlSetup io setup data = .ok out ∧ out.length < 2 ^ 31 ∧
      (out.length : ℤ) = (d.controlSetupResult io setup (resize data setup.wLength.toNat)).1.toInt) ∨
    d.submitControlSetup io setup data =
        .error (d.controlSetupResult io setup (resize data setup.wLength.toNat)).1 ∧
      (d.controlSetupResult io setup (resize data setup.wLength.toNat)).1.toInt < 0 := by
  unfold Device.submitControlSetup
  obtain ⟨result, out⟩ := d.controlSetupResult io setup (resize data setup.wLength.toNat)
  dsimp only
  by_cases hr : 0 ≤ result.toInt
  · rw [if_pos hr]
    have hlt := result.isLt
    have heq : result.toInt = result.toNat := by rw [BitVec.toInt_eq_toNat_cond] at hr ⊢; split at hr <;> omega
    refine .inl ⟨_, rfl, ?_, ?_⟩
    · have := BitVec.toInt_lt (x := result)
      rw [length_resize]
      omega
    · rw [length_resize, heq]
  · rw [if_neg hr]
    exact .inr ⟨rfl, by omega⟩

/-- The ways an IN control handler can answer. -/
inductive InReply (E : Order) (io : Io) (d : Device) (cmd : Command) : QueueReplyRequest → Prop
  | status : InReply E io d cmd (getStatusReply E d cmd)
  | descriptor (data : List U8) : InReply E io d cmd (descriptorReply E cmd data)
  | forwarded {data : List U8} (h : d.submitControlSetup io (cmd.controlSetup E) [] = .ok data) :
      InReply E io d cmd { cmd := cmd, data := some data, size := data.length }
  | failed {result : I32} (h : d.submitControlSetup io (cmd.controlSetup E) [] = .error result) :
      InReply E io d cmd { cmd := cmd, status := result }

theorem submitCtrlSetupIn_cases : InReply E io d cmd (submitCtrlSetupIn E io d cmd) := by
  unfold submitCtrlSetupIn
  split
  · rename_i h
    exact .forwarded h
  · rename_i h
    exact .failed h

/-- Every way through `descriptor` clips the data, or reports a failure. -/
theorem descriptor_clips (h : descriptor E io d cmd = .ok req) :
    (∃ data, req = descriptorReply E cmd data) ∨
      ∃ result, d.submitControlSetup io (cmd.controlSetup E) [] = .error result ∧
        req = { cmd := cmd, status := result } := by
  unfold descriptor at h
  dsimp only at h
  split_ifs at h
  · exact .inl ⟨_, (Except.ok.inj h).symm⟩
  · exact .inl ⟨_, (Except.ok.inj h).symm⟩
  · cases hs : d.packStringDescriptor (cmd.controlSetup E).wIndex
        (indexFromValue (cmd.controlSetup E).wValue) with
    | error e => rw [hs] at h; cases h
    | ok data =>
      rw [hs] at h
      exact .inl ⟨data, (Except.ok.inj h).symm⟩
  · exact .inl ⟨_, (Except.ok.inj h).symm⟩
  · exact .inl ⟨_, (Except.ok.inj h).symm⟩
  · split at h
    · exact .inl ⟨_, (Except.ok.inj h).symm⟩
    · rename_i result hr
      exact .inr ⟨result, hr, (Except.ok.inj h).symm⟩

theorem descriptor_cases (h : descriptor E io d cmd = .ok req) : InReply E io d cmd req := by
  rcases descriptor_clips h with ⟨data, rfl⟩ | ⟨result, hr, rfl⟩
  · exact .descriptor data
  · exact .failed hr

theorem executeInControlCommand_cases (h : executeInControlCommand E io d cmd = .ok req) :
    InReply E io d cmd req := by
  have hfwd : (Except.ok (submitCtrlSetupIn E io d cmd) : Except Exn _) = .ok req → InReply E io d cmd req :=
    fun h => by rw [← Except.ok.inj h]; exact submitCtrlSetupIn_cases
  unfold executeInControlCommand executeStdInDeviceControlCommand executeStdInInterfaceControlCommand at h
  dsimp only at h
  split_ifs at h
  · exact hfwd h
  · cases h
    exact .status
  · exact descriptor_cases h
  · exact hfwd h
  · exact descriptor_cases h
  · exact hfwd h
  · exact hfwd h

theorem InReply.cmd_eq (h : InReply E io d cmd req) : req.cmd = cmd := by
  cases h <;> rfl

theorem executeInControlCommand_cmd (h : executeInControlCommand E io d cmd = .ok req) : req.cmd = cmd :=
  (executeInControlCommand_cases h).cmd_eq

/-- An IN control reply has its data, and a size an `int` can hold. -/
theorem InReply.size (h : InReply E io d cmd req) :
    req.size < 2 ^ 31 ∧ (req.data = none → req.size = 0) := by
  cases h with
  | status => exact ⟨(by decide : (2 : ℕ) < 2 ^ 31), fun h => (nomatch h)⟩
  | descriptor data =>
    refine ⟨lt_of_le_of_lt (min_le_right _ _) ?_, fun h => (nomatch h)⟩
    have := (cmd.controlSetup E).wLength.isLt
    omega
  | @forwarded data h =>
    refine ⟨?_, fun h => (nomatch h)⟩
    rcases submitControlSetup_cases (d := d) (cmd.controlSetup E) [] with ⟨out, ho, hlt, -⟩ | ⟨ho, -⟩
    · rw [h] at ho
      cases ho
      exact hlt
    · rw [h] at ho
      cases ho
  | failed h => exact ⟨(by decide : (0 : ℕ) < 2 ^ 31), fun _ => rfl⟩

theorem executeOutControlCommand_cmd : (executeOutControlCommand E io d cmd).1.cmd = cmd := by
  unfold executeOutControlCommand executeStdOutDeviceControlCommand executeStdOutInterfaceControlCommand
  dsimp only
  split_ifs <;> rfl

theorem setInterface_tree (interface altSetting : U8) :
    (d.setInterface io interface altSetting).2.descriptorTree = d.descriptorTree := by
  unfold Device.setInterface
  dsimp only
  split_ifs <;> rfl

theorem executeOutControlCommand_tree :
    (executeOutControlCommand E io d cmd).2.descriptorTree = d.descriptorTree := by
  unfold executeOutControlCommand executeStdOutInterfaceControlCommand
  dsimp only
  split_ifs
  · rfl
  · rfl
  · rfl
  · exact setInterface_tree _ _
  · rfl
  · rfl

/-- A control command is answered for itself, on the same descriptors. -/
theorem executeControlCommand_keeps (h : executeControlCommand E io d cmd = .ok (req, d')) :
    req.cmd = cmd ∧ d'.descriptorTree = d.descriptorTree := by
  unfold executeControlCommand at h
  split_ifs at h
  · cases hin : executeInControlCommand E io d cmd with
    | error e => rw [hin] at h; cases h
    | ok r =>
      rw [hin] at h
      obtain ⟨rfl, rfl⟩ := Prod.mk.inj (Except.ok.inj h)
      exact ⟨executeInControlCommand_cmd hin, rfl⟩
  · have hp := Except.ok.inj h
    have h1 := congrArg (fun p => p.1.cmd) hp
    have h2 := congrArg (fun p => p.2.descriptorTree) hp
    exact ⟨h1.symm.trans executeOutControlCommand_cmd, h2.symm.trans executeOutControlCommand_tree⟩

/-! ### The transfer a command is turned into -/

/-- The callback `prepareTransfer` captures. -/
def callbackOf (cmd : Command) : Callback :=
  if cmd.isIso then if cmd.isIn then .inIso else .outIso cmd
  else if cmd.isIn then .inn else .out cmd

theorem prepareTransfer_eq {info : Info} (h : prepareTransfer cmd = .ok info) :
    prepareBuffer cmd = .ok info.buffer ∧ info.epAddress = cmd.epAddress ∧ info.callback = callbackOf cmd ∧
      info.iso.map (·.packetCount) = if cmd.isIso then some cmd.isoPacketCount else none := by
  unfold prepareTransfer at h
  cases hb : prepareBuffer cmd with
  | error e => rw [hb] at h; cases h
  | ok buffer =>
    rw [hb] at h
    unfold callbackOf
    by_cases hi : cmd.isIso = true
    · simp only [bind, Except.bind, hi, ↓reduceIte] at h ⊢
      cases h
      exact ⟨rfl, rfl, rfl, rfl⟩
    · simp only [bind, Except.bind, hi, Bool.false_eq_true, ↓reduceIte] at h ⊢
      cases h
      exact ⟨rfl, rfl, rfl, rfl⟩

theorem submitTransfer_tree (h : d'.descriptorTree = d.descriptorTree) :
    submitTransfer d' cmd = submitTransfer d cmd := by
  unfold submitTransfer Device.epTransferType
  rw [h]

theorem submitTransfer_eq {cb : Callback} {x : LibusbTransfer}
    (h : submitTransfer d cmd = .ok (some (some (cb, x)))) :
    ∃ info type, prepareTransfer cmd = .ok info ∧ cb = info.callback ∧
      d.epTransferType cmd.epAddress = some type ∧
      ((type = .isochronous ∧ fillIso info = some x) ∨
        ((type = .bulk ∨ type = .interrupt) ∧ x = fillTransfer info type [])) := by
  unfold submitTransfer at h
  cases ht : d.epTransferType cmd.epAddress with
  | none => rw [ht] at h; cases h
  | some type =>
    rw [ht] at h
    cases hp : prepareTransfer cmd with
    | error e => cases type <;> · rw [hp] at h; cases h
    | ok info =>
      rw [hp] at h
      refine ⟨info, type, rfl, ?_⟩
      cases type with
      | control => cases h
      | isochronous =>
        cases hf : fillIso info with
        | none => simp [Except.map, hf] at h
        | some y =>
          simp only [Except.map, hf, Option.map_some, Except.ok.injEq, Option.some.injEq, Prod.mk.injEq] at h
          obtain ⟨rfl, rfl⟩ := h
          exact ⟨rfl, rfl, .inl ⟨rfl, rfl⟩⟩
      | bulk =>
        simp only [Except.map, Except.ok.injEq, Option.some.injEq, Prod.mk.injEq] at h
        obtain ⟨rfl, rfl⟩ := h
        exact ⟨rfl, rfl, .inr ⟨.inl rfl, rfl⟩⟩
      | interrupt =>
        simp only [Except.map, Except.ok.injEq, Option.some.injEq, Prod.mk.injEq] at h
        obtain ⟨rfl, rfl⟩ := h
        exact ⟨rfl, rfl, .inr ⟨.inr rfl, rfl⟩⟩

theorem callback_eq_callbackOf {cb : Callback} {x : LibusbTransfer}
    (h : submitTransfer d cmd = .ok (some (some (cb, x)))) : cb = callbackOf cmd := by
  obtain ⟨info, _, hp, rfl, -, -⟩ := submitTransfer_eq h
  exact (prepareTransfer_eq hp).2.2.1

theorem endpoint_eq_epAddress {cb : Callback} {x : LibusbTransfer}
    (h : submitTransfer d cmd = .ok (some (some (cb, x)))) : x.endpoint = cmd.epAddress := by
  rcases submitTransfer_eq h with ⟨info, _, hp, -, -, ⟨-, hf⟩ | ⟨-, rfl⟩⟩
  · unfold fillIso at hf
    dsimp only at hf
    split at hf
    · cases hf
    · cases hf
      exact (prepareTransfer_eq hp).2.1
  · exact (prepareTransfer_eq hp).2.1

/-! ### What a completion leaves -/

theorem reported_of_some {cb : Callback} {x : LibusbTransfer} {c : Completion}
    (h : onTransferCompletedImpl E cb x = some c) :
    (x.status ≠ .timedOut ∧ x.status ≠ .cancelled) ∧ callback E cb x = c := by
  unfold onTransferCompletedImpl at h
  split at h
  · cases h
  · rename_i hst
    rw [not_or] at hst
    exact ⟨hst, Option.some.inj h⟩

theorem not_reported_of_none {cb : Callback} {x : LibusbTransfer} (h : onTransferCompletedImpl E cb x = none) :
    x.status = .timedOut ∨ x.status = .cancelled := by
  unfold onTransferCompletedImpl at h
  split at h
  · assumption
  · cases h

/-- The callback of an IN command pushes a block. -/
theorem callback_isIn (h : cmd.isIn = true) (x : LibusbTransfer) :
    callback E (callbackOf cmd) x = .data (x.endpoint &&& 0x0f#8).toNat (queueDataForHost E x) := by
  unfold callbackOf
  simp only [h, ↓reduceIte]
  split <;> rfl

/-- What the callback of an OUT command asks to be replied. -/
def outRequest (E : Order) (cmd : Command) (x : LibusbTransfer) : QueueReplyRequest :=
  if cmd.isIso then onOutIsoTransferComplete E cmd x else onOutTransferComplete cmd x

/-- The status is left at its default. -/
theorem outRequest_keeps (E : Order) (cmd : Command) (x : LibusbTransfer) :
    (outRequest E cmd x).cmd = cmd ∧ (outRequest E cmd x).status = 0 := by
  unfold outRequest
  split <;> exact ⟨rfl, rfl⟩

/-- The callback of an OUT command pushes its reply. -/
theorem callback_not_isIn (h : cmd.isIn = false) (x : LibusbTransfer) :
    callback E (callbackOf cmd) x = .reply (outRequest E cmd x) := by
  unfold callbackOf outRequest
  simp only [h, Bool.false_eq_true, ↓reduceIte]
  split <;> rfl

theorem outRequest_of_some {x : LibusbTransfer} (hin : cmd.isIn = false)
    (h : onTransferCompletedImpl E (callbackOf cmd) x = some (.reply req)) : outRequest E cmd x = req := by
  have hcall := (reported_of_some h).2
  rw [callback_not_isIn hin] at hcall
  exact Completion.reply.inj hcall

end Proxy

end Viu
