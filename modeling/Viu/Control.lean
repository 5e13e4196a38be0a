/-
# Control replies

`ControlRequest` says which of the handlers a control submit ends in
(`executeControlCommand_eq`). From it: when a reply stays within what the host
asked for (`in_data_bounded_iff`), and when its status tells the truth about
the operation (`control_status_iff`).

Only `descriptor` clips to wLength. The status of SET_CONFIGURATION and
SET_INTERFACE is the request's default, 0, whatever the device answered;
`descriptor` reports nothing to send as 1.
-/
import Viu.Contents

namespace Viu

open Bytes

variable {E : Order} {io : Io} {d d' : Device} {cmd : Command} {req : QueueReplyRequest} {rep : Command}

/-- Where a control submit is answered. -/
inductive ControlRequest
  | getStatus
  | getDescriptor
  | setConfiguration
  | setInterface
  | getInterface
  | setIsochDelay
  | forward
  deriving DecidableEq, Repr

def Command.inRequest (E : Order) (cmd : Command) : ControlRequest :=
  let bRequest := (cmd.controlSetup E).bRequest
  if cmd.requestType E ≠ LIBUSB_REQUEST_TYPE_STANDARD then .forward
  else if cmd.recipient E = LIBUSB_RECIPIENT_DEVICE then
    if bRequest = LIBUSB_REQUEST_GET_STATUS then .getStatus
    else if bRequest = LIBUSB_REQUEST_GET_DESCRIPTOR then .getDescriptor
    else .forward
  else if cmd.recipient E = LIBUSB_RECIPIENT_INTERFACE then
    if bRequest = LIBUSB_REQUEST_GET_DESCRIPTOR then .getDescriptor else .forward
  else .forward

def Command.outRequest (E : Order) (cmd : Command) : ControlRequest :=
  let bRequest := (cmd.controlSetup E).bRequest
  if cmd.requestType E ≠ LIBUSB_REQUEST_TYPE_STANDARD then .forward
  else if cmd.recipient E = LIBUSB_RECIPIENT_DEVICE then
    if bRequest = LIBUSB_REQUEST_SET_CONFIGURATION then .setConfiguration
    else if bRequest = LIBUSB_SET_ISOCH_DELAY then .setIsochDelay
    else .forward
  else if cmd.recipient E = LIBUSB_RECIPIENT_INTERFACE then
    if bRequest = LIBUSB_REQUEST_GET_INTERFACE then .getInterface
    else if bRequest = LIBUSB_REQUEST_SET_INTERFACE then .setInterface
    else .forward
  else .forward

def Command.controlRequest (E : Order) (cmd : Command) : ControlRequest :=
  if cmd.isIn then cmd.inRequest E else cmd.outRequest E

namespace Proxy

theorem executeInControlCommand_eq : executeInControlCommand E io d cmd =
    match cmd.inRequest E with
    | .getStatus => .ok (getStatusReply E d cmd)
    | .getDescriptor => descriptor E io d cmd
    | _ => .ok (submitCtrlSetupIn E io d cmd) := by
  unfold executeInControlCommand executeStdInDeviceControlCommand executeStdInInterfaceControlCommand
    Command.inRequest
  dsimp only
  split_ifs <;> rfl

theorem executeOutControlCommand_eq : executeOutControlCommand E io d cmd =
    match cmd.outRequest E with
    | .setConfiguration => (setConfiguration cmd, d)
    | .setIsochDelay => ({ cmd := cmd }, d)
    | .getInterface => (interface E d cmd, d)
    | .setInterface =>
      ({ cmd := cmd, size := (cmd.controlSetup E).wLength.toNat },
        (d.setInterface io ((cmd.controlSetup E).wIndex.setWidth 8) ((cmd.controlSetup E).wValue.setWidth 8)).2)
    | _ => (submitCtrlSetupOut E io d cmd, d) := by
  unfold executeOutControlCommand executeStdOutDeviceControlCommand executeStdOutInterfaceControlCommand
    Command.outRequest
  dsimp only
  split_ifs <;> rfl

theorem executeControlCommand_in (hin : cmd.isIn = true) :
    executeControlCommand E io d cmd = (executeInControlCommand E io d cmd).map (·, d) := by
  unfold executeControlCommand
  rw [if_pos hin]

theorem executeControlCommand_out (hout : cmd.isOut = true) :
    executeControlCommand E io d cmd = .ok (executeOutControlCommand E io d cmd) := by
  have hin := Command.not_isIn_of_isOut hout
  unfold executeControlCommand
  rw [if_neg hin, if_pos hout]

end Proxy

/-! ### How much an IN reply carries -/

/-- What the device, then the plugin, answer to the command when it is
forwarded. -/
def Command.forwardResult (E : Order) (io : Io) (d : Device) (cmd : Command) : I32 :=
  (d.controlSetupResult io (cmd.controlSetup E)
    (resize (if cmd.isIn then [] else cmd.payload) (cmd.controlSetup E).wLength.toNat)).1

/-- The reply carries and claims at most wLength bytes. -/
def InDataBounded (E : Order) (cmd rep : Command) : Prop :=
  (rep.actualLength E).toNat ≤ (cmd.controlSetup E).wLength.toNat ∧
    rep.payload.length ≤ (cmd.controlSetup E).wLength.toNat

/-- There is room for the two bytes of a GET_STATUS, and a forwarded request is
answered with no more than wLength. -/
def AnswerFits (E : Order) (io : Io) (d : Device) (cmd : Command) : Prop :=
  match cmd.inRequest E with
  | .getStatus => 2 ≤ (cmd.controlSetup E).wLength.toNat
  | .getDescriptor => True
  | _ => (cmd.forwardResult E io d).toInt ≤ (cmd.controlSetup E).wLength.toNat

theorem isoDescriptorSize_of_inReply (hr : Proxy.InReply E io d cmd req) : req.isoDescriptorSize = 0 := by
  cases hr <;> rfl

/-- An IN reply carries its data, as far as its size says. -/
theorem inReply_payload (hs : cmd.isSubmit = true) (hin : cmd.isIn = true)
    (hr : Proxy.InReply E io d cmd req) (hrep : queueReplyToHost E req = .ok rep) :
    rep.payload = (req.data.map (resize · req.size)).getD [] := by
  have hsz : req.payloadSize = req.size := by
    unfold QueueReplyRequest.payloadSize
    rw [hr.cmd_eq, Command.not_isOut_of_isIn hin, isoDescriptorSize_of_inReply hr]
    simp
  rw [← hsz]
  exact reply_payload (by rw [hr.cmd_eq]; exact hs) hrep

/-- An IN reply claims its request's size, and carries it. -/
theorem inDataBounded_iff_size (hs : cmd.isSubmit = true) (hin : cmd.isIn = true)
    (hr : Proxy.InReply E io d cmd req) (hrep : queueReplyToHost E req = .ok rep) :
    InDataBounded E cmd rep ↔ req.size ≤ (cmd.controlSetup E).wLength.toNat := by
  obtain ⟨hlt, hnone⟩ := hr.size
  have hpay : rep.payload.length ≤ req.size := by
    rw [inReply_payload hs hin hr hrep]
    cases hd : req.data with
    | none => exact Nat.zero_le _
    | some bs => simp
  rw [← hr.cmd_eq] at hs
  have hact : (rep.actualLength E).toNat = req.size := by
    rw [reply_actualLength hs hrep, BitVec.toNat_ofNat]
    omega
  unfold InDataBounded
  rw [hact]
  exact ⟨fun h => h.1, fun h => ⟨h, le_trans hpay h⟩⟩

/-- The size of a forwarded reply is what was answered, or nothing. -/
theorem size_submitCtrlSetupIn (hin : cmd.isIn = true) :
    (Proxy.submitCtrlSetupIn E io d cmd).size = (cmd.forwardResult E io d).toInt.toNat := by
  unfold Proxy.submitCtrlSetupIn Command.forwardResult
  rw [if_pos hin]
  rcases Proxy.submitControlSetup_cases (d := d) (cmd.controlSetup E) [] with ⟨out, ho, -, hlen⟩ | ⟨ho, hneg⟩
  · rw [ho]
    show out.length = _
    omega
  · rw [ho]
    show 0 = _
    omega

/-- **No more than asked for**: exactly when the answer fits. -/
theorem in_data_bounded_iff (hs : cmd.isSubmit = true) (hin : cmd.isIn = true)
    (h : Proxy.executeControlCommand E io d cmd = .ok (req, d')) (hrep : queueReplyToHost E req = .ok rep) :
    InDataBounded E cmd rep ↔ AnswerFits E io d cmd := by
  rw [Proxy.executeControlCommand_in hin] at h
  cases hex : Proxy.executeInControlCommand E io d cmd with
  | error e => rw [hex] at h; cases h
  | ok r =>
    rw [hex] at h
    obtain ⟨rfl, -⟩ := Prod.mk.inj (Except.ok.inj h)
    have hr := Proxy.executeInControlCommand_cases hex
    rw [inDataBounded_iff_size hs hin hr hrep]
    rw [Proxy.executeInControlCommand_eq] at hex
    have hfwd : Proxy.submitCtrlSetupIn E io d cmd = r →
        (r.size ≤ (cmd.controlSetup E).wLength.toNat ↔
          (cmd.forwardResult E io d).toInt ≤ (cmd.controlSetup E).wLength.toNat) := by
      rintro rfl
      rw [size_submitCtrlSetupIn hin]
      omega
    unfold AnswerFits
    cases hreq : cmd.inRequest E with
    | getStatus =>
      rw [hreq] at hex
      obtain rfl := Except.ok.inj hex
      exact Iff.rfl
    | getDescriptor =>
      rw [hreq] at hex
      refine iff_true_intro ?_
      rcases Proxy.descriptor_clips hex with ⟨data, rfl⟩ | ⟨result, -, rfl⟩
      · exact min_le_right _ _
      · exact Nat.zero_le _
    | setConfiguration | setInterface | getInterface | setIsochDelay | forward =>
      rw [hreq] at hex
      exact hfwd (Except.ok.inj hex)

/-- A GET_STATUS of 0 bytes is answered with 2. -/
theorem in_data_unbounded : ¬ ∀ (cmd rep : Command) (req : QueueReplyRequest) (d' : Device),
    cmd.isSubmit = true → cmd.isIn = true →
    cmd.transferBufferSize.toNat = (cmd.controlSetup .little).wLength.toNat →
    Proxy.executeControlCommand .little Io.silent (.mock []) cmd = .ok (req, d') →
    queueReplyToHost .little req = .ok rep → InDataBounded .little cmd rep := by
  intro h
  have hs : (Command.submit 1 USBIP_DIR_IN 0 0).isSubmit = true := rfl
  have hb := h (.submit 1 USBIP_DIR_IN 0 0) _ _ _ hs rfl (by decide) rfl (queueReplyToHost_submit .little hs)
  exact absurd hb.1 (by decide +kernel)

/-- A GET_STATUS of 2 bytes. -/
def getStatus : Command := .control USBIP_DIR_IN #v[0x80, 0, 0, 0, 0, 0, 2, 0] 2

theorem in_data_bounded_getStatus :
    ∃ rep, queueReplyToHost .little (Proxy.getStatusReply .little (.mock []) getStatus) = .ok rep ∧
      InDataBounded .little getStatus rep := by
  have hrep := @queueReplyToHost_submit .little (Proxy.getStatusReply .little (.mock []) getStatus) rfl
  have hex : Proxy.executeControlCommand .little Io.silent (.mock []) getStatus =
      .ok (Proxy.getStatusReply .little (.mock []) getStatus, .mock []) := rfl
  exact ⟨_, hrep, (in_data_bounded_iff rfl rfl hex hrep).mpr (le_refl 2)⟩

/-! ### What a status says -/

/-- The string under a language and an index; 0 is the first. -/
def Device.stringAt (d : Device) (languageId : U16) (index : U8) : Option (List U8) :=
  (d.descriptorTree.stringDescriptors.lookup languageId).bind fun strings =>
    strings[if index = 0 then 0 else index.toNat - 1]?

/-- The device has the descriptor asked for. The tree of a device without BOS
holds one of length 0; a type the tree does not have is asked of the
device. -/
def HasDescriptor (E : Order) (io : Io) (d : Device) (cmd : Command) : Prop :=
  let setup := cmd.controlSetup E
  let type := typeFromValue setup.wValue
  let index := indexFromValue setup.wValue
  if type = LIBUSB_DT_DEVICE then True
  else if type = LIBUSB_DT_CONFIG then index.toNat < d.descriptorTree.deviceDescriptor.bNumConfigurations.toNat
  else if type = LIBUSB_DT_STRING then ∃ string, d.stringAt setup.wIndex index = some string ∧ string ≠ []
  else if type = LIBUSB_DT_BOS then d.descriptorTree.bosDescriptor.wrapped.bLength ≠ 0
  else if type = LIBUSB_DT_REPORT then d.descriptorTree.reportDescriptor ≠ []
  else 0 ≤ (cmd.forwardResult E io d).toInt

/-- A handler the plugin has before a real device accepts, or leaves the
request to the device, as the stub of `REGISTER_USB_MOCK` does. -/
def PluginAccepts (result : Option I32) : Prop :=
  ∀ r ∈ result, r = LIBUSB_SUCCESS ∨ r = LIBUSB_ERROR_NOT_SUPPORTED

/-- Every call of `set_configuration` succeeds: of a mock the plugin's handler,
of a real device libusb's calls, and the plugin's handler if it has one.
Whether libusb detaches kernel drivers by itself refuses nothing. -/
def ConfigurationAccepted (io : Io) (d : Device) (index : U8) : Prop :=
  if d.isMock then io.onSetConfiguration.map (· index) = some LIBUSB_SUCCESS
  else PluginAccepts (io.onSetConfiguration.map (· index)) ∧ io.libusbGetConfiguration.1 = LIBUSB_SUCCESS ∧
    ((index.toNat : ℤ) = io.libusbGetConfiguration.2.toInt ∨
      io.releaseInterfaces = LIBUSB_SUCCESS ∧ io.libusbSetConfiguration index = LIBUSB_SUCCESS ∧
        io.claimInterfaces = LIBUSB_SUCCESS)

/-- The same of `set_interface`. -/
def InterfaceAccepted (io : Io) (d : Device) (interface altSetting : U8) : Prop :=
  if d.isMock then io.onSetInterface.map (fun f => f interface altSetting) = some LIBUSB_SUCCESS
  else PluginAccepts (io.onSetInterface.map fun f => f interface altSetting) ∧
    io.libusbSetInterfaceAltSetting interface altSetting = LIBUSB_SUCCESS

/-- The operation that the command asks for succeeds. -/
def Succeeds (E : Order) (io : Io) (d : Device) (cmd : Command) : Prop :=
  let setup := cmd.controlSetup E
  match cmd.controlRequest E with
  | .getStatus => True
  | .getDescriptor => HasDescriptor E io d cmd
  | .setConfiguration => ConfigurationAccepted io d (cmd.configIndex E)
  | .setInterface => InterfaceAccepted io d (setup.wIndex.setWidth 8) (setup.wValue.setWidth 8)
  | .getInterface => True
  | .setIsochDelay => True
  | .forward => 0 ≤ (cmd.forwardResult E io d).toInt

/-- The command is answered, with status 0 just when its operation succeeds and
a negative status otherwise. -/
def Truthful (E : Order) (io : Io) (d : Device) (cmd : Command) : Prop :=
  ∃ req d' rep, Proxy.executeControlCommand E io d cmd = .ok (req, d') ∧ queueReplyToHost E req = .ok rep ∧
    (rep.status E = 0 ↔ Succeeds E io d cmd) ∧ (¬ Succeeds E io d cmd → (rep.status E).toInt < 0)

/-- The types `descriptor` answers from the tree. -/
def treeTypes : List U8 :=
  [LIBUSB_DT_DEVICE, LIBUSB_DT_CONFIG, LIBUSB_DT_STRING, LIBUSB_DT_BOS, LIBUSB_DT_REPORT]

/-- A SET_CONFIGURATION or SET_INTERFACE that is refused, a GET_DESCRIPTOR of a
descriptor that is not there, or one forwarded and answered with nothing. -/
def Misreported (E : Order) (io : Io) (d : Device) (cmd : Command) : Prop :=
  let setup := cmd.controlSetup E
  match cmd.controlRequest E with
  | .setConfiguration => ¬ ConfigurationAccepted io d (cmd.configIndex E)
  | .setInterface => ¬ InterfaceAccepted io d (setup.wIndex.setWidth 8) (setup.wValue.setWidth 8)
  | .getDescriptor =>
    if typeFromValue setup.wValue ∈ treeTypes then ¬ HasDescriptor E io d cmd else cmd.forwardResult E io d = 0
  | _ => False

/-- What an answered request shows of the truth. -/
theorem truthful_iff_of_ok (hs : cmd.isSubmit = true)
    (h : Proxy.executeControlCommand E io d cmd = .ok (req, d')) : Truthful E io d cmd ↔
      (req.status = 0 ↔ Succeeds E io d cmd) ∧ (¬ Succeeds E io d cmd → req.status.toInt < 0) := by
  have hs' : req.cmd.isSubmit = true := by rw [(Proxy.executeControlCommand_keeps h).1]; exact hs
  constructor
  · rintro ⟨r, d'', rep, hex, hrep, htrue⟩
    rw [h] at hex
    obtain ⟨rfl, -⟩ := Prod.mk.inj (Except.ok.inj hex)
    rwa [reply_status hs' hrep] at htrue
  · intro htrue
    have hrep := queueReplyToHost_submit E hs'
    exact ⟨req, d', _, h, hrep, by rw [reply_status hs' hrep]; exact htrue.1,
      by rw [reply_status hs' hrep]; exact htrue.2⟩

/-- A reply that says 0 is truthful just when the operation succeeds. -/
theorem truthful_zero {P : Prop} {status : I32} (h : status = 0) :
    ((status = 0 ↔ P) ∧ (¬ P → status.toInt < 0)) ↔ P := by
  subst h
  refine ⟨fun ⟨h, _⟩ => h.mp rfl, fun hp => ⟨⟨fun _ => hp, fun _ => rfl⟩, fun hn => absurd hp hn⟩⟩

/-- A reply that says 1 is never truthful. -/
theorem truthful_one {P : Prop} {status : I32} (h : status = 1) :
    ¬ ((status = 0 ↔ P) ∧ (¬ P → status.toInt < 0)) := by
  subst h
  rintro ⟨h0, hneg⟩
  by_cases hp : P
  · exact absurd (h0.mpr hp) (by decide)
  · exact absurd (hneg hp) (by decide)

/-- A forwarded request is reported as it was answered. -/
theorem truthful_forward {result status : I32} (h : status = if 0 ≤ result.toInt then 0 else result) :
    (status = 0 ↔ 0 ≤ result.toInt) ∧ (¬ 0 ≤ result.toInt → status.toInt < 0) := by
  by_cases hr : 0 ≤ result.toInt
  · rw [if_pos hr] at h
    exact ⟨⟨fun _ => hr, fun _ => h⟩, fun hn => absurd hr hn⟩
  · rw [if_neg hr] at h
    subst h
    refine ⟨⟨fun hz => ?_, fun h => absurd h hr⟩, fun hn => by omega⟩
    rw [hz]
    decide

/-- The string found is the string there is. -/
theorem packStringDescriptor_eq (d : Device) (languageId : U16) (index : U8) :
    (∀ string, d.stringAt languageId index = some string → d.packStringDescriptor languageId index = .ok string) ∧
    (d.stringAt languageId index = none →
      d.packStringDescriptor languageId index = .ok [] ∨ ∃ e, d.packStringDescriptor languageId index = .error e) := by
  unfold Device.stringAt Device.packStringDescriptor
  cases d.descriptorTree.stringDescriptors.lookup languageId with
  | none => exact ⟨fun string h => (nomatch h), fun _ => .inl rfl⟩
  | some strings =>
    simp only [Option.bind_some]
    by_cases hlen : strings.length < index.toNat
    · have hnone : strings[if index = 0 then 0 else index.toNat - 1]? = none := by
        rw [List.getElem?_eq_none_iff]
        split
        · rename_i h0
          rw [h0] at hlen
          exact absurd hlen (Nat.not_lt_zero _)
        · omega
      rw [if_pos hlen, hnone]
      exact ⟨fun string h => (nomatch h), fun _ => .inl rfl⟩
    · rw [if_neg hlen]
      cases strings[if index = 0 then 0 else index.toNat - 1]? with
      | none => exact ⟨fun string h => (nomatch h), fun _ => .inr ⟨_, rfl⟩⟩
      | some string => exact ⟨fun s h => by rw [Option.some.inj h], fun h => (nomatch h)⟩

/-- `descriptor` answers, and its status tells the truth about `P`. -/
def DescriptorSays (E : Order) (io : Io) (d : Device) (cmd : Command) (P : Prop) : Prop :=
  ∃ req, Proxy.descriptor E io d cmd = .ok req ∧ (req.status = 0 ↔ P) ∧ (¬ P → req.status.toInt < 0)

theorem descriptorSays_of_ok {P : Prop} (h : Proxy.descriptor E io d cmd = .ok req) :
    DescriptorSays E io d cmd P ↔ (req.status = 0 ↔ P) ∧ (¬ P → req.status.toInt < 0) := by
  refine ⟨fun ⟨r, hr, htrue⟩ => ?_, fun htrue => ⟨req, h, htrue⟩⟩
  rw [h] at hr
  obtain rfl := Except.ok.inj hr
  exact htrue

/-- With something to send the status is 0, with nothing it is 1. -/
theorem descriptorSays_reply {P : Prop} {data : List U8}
    (h : Proxy.descriptor E io d cmd = .ok (Proxy.descriptorReply E cmd data)) :
    DescriptorSays E io d cmd P ↔ data ≠ [] ∧ P := by
  rw [descriptorSays_of_ok h]
  by_cases hd : data = []
  · have h1 : (Proxy.descriptorReply E cmd data).status = 1 := by simp [Proxy.descriptorReply, hd]
    exact iff_of_false (truthful_one h1) fun hn => hn.1 hd
  · have h0 : (Proxy.descriptorReply E cmd data).status = 0 := by simp [Proxy.descriptorReply, hd]
    rw [truthful_zero h0]
    exact ⟨fun hp => ⟨hd, hp⟩, fun hp => hp.2⟩

theorem packConfig_ne_nil (c : Config) : c.pack ≠ [] := by
  refine List.ne_nil_of_length_pos ?_
  unfold Config.pack
  rw [List.length_append, List.length_append, length_pack_config]
  omega

theorem packDevice_ne_nil (d : Device) : d.packDeviceDescriptor ≠ [] := by
  refine List.ne_nil_of_length_pos ?_
  unfold Device.packDeviceDescriptor
  rw [List.length_append, length_pack_device]
  omega

theorem packBos_ne_nil (b : Bos) : b.pack ≠ [] := by
  refine List.ne_nil_of_length_pos ?_
  unfold Bos.pack
  rw [List.length_append, length_pack_bos]
  omega

/-- A string is reported as it is there; one whose index makes the lookup throw
is not answered. -/
theorem descriptorSays_string
    (h : Proxy.descriptor E io d cmd = (d.packStringDescriptor (cmd.controlSetup E).wIndex
      (indexFromValue (cmd.controlSetup E).wValue)).map (Proxy.descriptorReply E cmd)) {P : Prop}
    (hP : P ↔ ∃ string, d.stringAt (cmd.controlSetup E).wIndex (indexFromValue (cmd.controlSetup E).wValue) =
      some string ∧ string ≠ []) : DescriptorSays E io d cmd P ↔ P := by
  obtain ⟨hsome, hnone⟩ := packStringDescriptor_eq d (cmd.controlSetup E).wIndex
    (indexFromValue (cmd.controlSetup E).wValue)
  cases hat : d.stringAt (cmd.controlSetup E).wIndex (indexFromValue (cmd.controlSetup E).wValue) with
  | none =>
    have hnp : ¬ P := fun hp => by
      obtain ⟨string, hs, -⟩ := hP.mp hp
      rw [hat] at hs
      cases hs
    refine iff_of_false (fun hsays => ?_) hnp
    rcases hnone hat with he | ⟨e, he⟩
    · rw [he] at h
      exact ((descriptorSays_reply h).mp hsays).1 rfl
    · rw [he] at h
      obtain ⟨req, hr, -⟩ := hsays
      rw [h] at hr
      cases hr
  | some string =>
    rw [hsome string hat] at h
    rw [descriptorSays_reply h, hP, hat]
    refine ⟨fun ⟨hne, hp⟩ => hp, fun ⟨str, hstr, hne⟩ => ⟨?_, str, hstr, hne⟩⟩
    rwa [Option.some.inj hstr]

/-- A type the tree does not have is asked of the device, and nothing to send is
reported as 1 there too. -/
theorem descriptorSays_forward (hin : cmd.isIn = true)
    (h : Proxy.descriptor E io d cmd = match d.submitControlSetup io (cmd.controlSetup E) [] with
      | .ok data => .ok (Proxy.descriptorReply E cmd data)
      | .error result => .ok { cmd := cmd, status := result }) :
    DescriptorSays E io d cmd (0 ≤ (cmd.forwardResult E io d).toInt) ↔ cmd.forwardResult E io d ≠ 0 := by
  have hres : cmd.forwardResult E io d =
      (d.controlSetupResult io (cmd.controlSetup E) (resize [] (cmd.controlSetup E).wLength.toNat)).1 := by
    unfold Command.forwardResult
    rw [if_pos hin]
  have hzero : cmd.forwardResult E io d = 0 ↔ (cmd.forwardResult E io d).toInt = 0 := by
    rw [← BitVec.toInt_inj]
    rfl
  rcases Proxy.submitControlSetup_cases (d := d) (cmd.controlSetup E) [] with ⟨out, ho, -, hlen⟩ | ⟨ho, hneg⟩
  · rw [ho] at h
    rw [← hres] at hlen
    rw [descriptorSays_reply h, ne_eq, ne_eq, hzero, ← hlen, ← List.length_eq_zero_iff]
    omega
  · rw [ho] at h
    rw [← hres] at h hneg
    refine iff_of_true ((descriptorSays_of_ok h).mpr ?_) fun hz => ?_
    · refine ⟨⟨fun hz => ?_, fun hp => by omega⟩, fun _ => hneg⟩
      have hz' : cmd.forwardResult E io d = 0 := hz
      rw [hz']
      decide
    · rw [hz] at hneg
      exact absurd hneg (by decide)

theorem descriptor_says_iff (hin : cmd.isIn = true) :
    DescriptorSays E io d cmd (HasDescriptor E io d cmd) ↔
      if typeFromValue (cmd.controlSetup E).wValue ∈ treeTypes then HasDescriptor E io d cmd
      else cmd.forwardResult E io d ≠ 0 := by
  have hdesc := Proxy.descriptor.eq_def E io d cmd
  unfold HasDescriptor treeTypes
  dsimp only at hdesc ⊢
  by_cases h1 : typeFromValue (cmd.controlSetup E).wValue = LIBUSB_DT_DEVICE
  · rw [if_pos h1] at hdesc ⊢
    rw [if_pos (by simp [h1]), descriptorSays_reply hdesc]
    exact ⟨fun h => h.2, fun h => ⟨packDevice_ne_nil d, h⟩⟩
  rw [if_neg h1] at hdesc ⊢
  by_cases h2 : typeFromValue (cmd.controlSetup E).wValue = LIBUSB_DT_CONFIG
  · rw [if_pos h2] at hdesc ⊢
    rw [if_pos (by simp [h2]), descriptorSays_reply hdesc]
    exact ⟨fun h => h.2, fun h => ⟨packConfig_ne_nil _, h⟩⟩
  rw [if_neg h2] at hdesc ⊢
  by_cases h3 : typeFromValue (cmd.controlSetup E).wValue = LIBUSB_DT_STRING
  · rw [if_pos h3] at hdesc ⊢
    rw [if_pos (by simp [h3])]
    exact descriptorSays_string hdesc Iff.rfl
  rw [if_neg h3] at hdesc ⊢
  by_cases h4 : typeFromValue (cmd.controlSetup E).wValue = LIBUSB_DT_BOS
  · rw [if_pos h4] at hdesc ⊢
    rw [if_pos (by simp [h4]), descriptorSays_reply hdesc]
    exact ⟨fun h => h.2, fun h => ⟨packBos_ne_nil _, h⟩⟩
  rw [if_neg h4] at hdesc ⊢
  by_cases h5 : typeFromValue (cmd.controlSetup E).wValue = LIBUSB_DT_REPORT
  · rw [if_pos h5] at hdesc ⊢
    rw [if_pos (by simp [h5]), descriptorSays_reply hdesc]
    exact ⟨fun h => h.2, fun h => ⟨h, h⟩⟩
  rw [if_neg h5] at hdesc ⊢
  rw [if_neg (by simp [h1, h2, h3, h4, h5])]
  exact descriptorSays_forward hin hdesc

/-- An answer of 0 is truthful just when the operation succeeds. -/
theorem truthful_iff_succeeds (hs : cmd.isSubmit = true)
    (h : Proxy.executeControlCommand E io d cmd = .ok (req, d')) (hz : req.status = 0) :
    Truthful E io d cmd ↔ Succeeds E io d cmd :=
  (truthful_iff_of_ok hs h).trans (truthful_zero hz)

theorem Command.inRequest_cases (E : Order) (cmd : Command) :
    cmd.inRequest E = .getStatus ∨ cmd.inRequest E = .getDescriptor ∨ cmd.inRequest E = .forward := by
  unfold Command.inRequest
  dsimp only
  split_ifs <;> simp

theorem Command.outRequest_cases (E : Order) (cmd : Command) :
    cmd.outRequest E = .setConfiguration ∨ cmd.outRequest E = .setIsochDelay ∨
      cmd.outRequest E = .getInterface ∨ cmd.outRequest E = .setInterface ∨ cmd.outRequest E = .forward := by
  unfold Command.outRequest
  dsimp only
  split_ifs <;> simp

theorem status_submitCtrlSetupIn (hin : cmd.isIn = true) : (Proxy.submitCtrlSetupIn E io d cmd).status =
    if 0 ≤ (cmd.forwardResult E io d).toInt then 0 else cmd.forwardResult E io d := by
  unfold Proxy.submitCtrlSetupIn Command.forwardResult Device.submitControlSetup
  rw [if_pos hin]
  dsimp only
  split_ifs <;> rfl

theorem status_submitCtrlSetupOut (hin : ¬ cmd.isIn = true) : (Proxy.submitCtrlSetupOut E io d cmd).status =
    if 0 ≤ (cmd.forwardResult E io d).toInt then 0 else cmd.forwardResult E io d := by
  unfold Proxy.submitCtrlSetupOut Command.forwardResult Device.submitControlSetup
  rw [if_neg hin]
  dsimp only
  split_ifs <;> rfl

/-- Truth is decided in `descriptor`. -/
theorem truthful_iff_descriptorSays (hs : cmd.isSubmit = true) (hin : cmd.isIn = true)
    (hreq : cmd.inRequest E = .getDescriptor) :
    Truthful E io d cmd ↔ DescriptorSays E io d cmd (Succeeds E io d cmd) := by
  have hex : Proxy.executeControlCommand E io d cmd = (Proxy.descriptor E io d cmd).map (·, d) := by
    rw [Proxy.executeControlCommand_in hin, Proxy.executeInControlCommand_eq, hreq]
  cases hd : Proxy.descriptor E io d cmd with
  | error e =>
    rw [hd] at hex
    refine iff_of_false (fun ⟨req, d', rep, h, _⟩ => ?_) (fun ⟨req, h, _⟩ => ?_)
    · rw [hex] at h
      cases h
    · rw [hd] at h
      cases h
  | ok req =>
    rw [hd] at hex
    rw [truthful_iff_of_ok hs hex, descriptorSays_of_ok hd]

/-- Where the answer is always 0, misreported is what fails. -/
theorem succeeds_iff (hd : cmd.controlRequest E ≠ .getDescriptor) (hf : cmd.controlRequest E ≠ .forward) :
    Succeeds E io d cmd ↔ ¬ Misreported E io d cmd := by
  unfold Succeeds Misreported
  cases hreq : cmd.controlRequest E with
  | getDescriptor => exact absurd hreq hd
  | forward => exact absurd hreq hf
  | setConfiguration | setInterface => exact not_not.symm
  | getStatus | getInterface | setIsochDelay => exact iff_of_true trivial id

/-- Of an answer that is always 0 it is only what is misreported that is not true. -/
theorem truthful_of_zero (hs : cmd.isSubmit = true) (h : Proxy.executeControlCommand E io d cmd = .ok (req, d'))
    (hz : req.status = 0) (hd : cmd.controlRequest E ≠ .getDescriptor) (hf : cmd.controlRequest E ≠ .forward) :
    Truthful E io d cmd ↔ ¬ Misreported E io d cmd := by
  calc Truthful E io d cmd ↔ Succeeds E io d cmd := truthful_iff_succeeds hs h hz
    _ ↔ ¬ Misreported E io d cmd := succeeds_iff hd hf

theorem truthful_in (hs : cmd.isSubmit = true) (hin : cmd.isIn = true) :
    Truthful E io d cmd ↔ ¬ Misreported E io d cmd := by
  have hex := @Proxy.executeControlCommand_in E io d cmd hin
  rw [Proxy.executeInControlCommand_eq] at hex
  have hctl : cmd.controlRequest E = cmd.inRequest E := if_pos hin
  rcases cmd.inRequest_cases E with hreq | hreq | hreq
  · rw [hreq] at hex hctl
    exact truthful_of_zero hs hex rfl (by simp [hctl]) (by simp [hctl])
  · have hsucc : Succeeds E io d cmd ↔ HasDescriptor E io d cmd := by
      unfold Succeeds
      rw [hctl, hreq]
    rw [truthful_iff_descriptorSays hs hin hreq, hsucc, descriptor_says_iff hin]
    unfold Misreported
    rw [hctl, hreq]
    dsimp only
    split_ifs <;> simp
  · rw [hreq] at hex hctl
    rw [truthful_iff_of_ok hs hex]
    unfold Succeeds Misreported
    rw [hctl]
    exact iff_of_true (truthful_forward (status_submitCtrlSetupIn hin)) id

theorem truthful_out (hs : cmd.isSubmit = true) (hout : cmd.isOut = true) :
    Truthful E io d cmd ↔ ¬ Misreported E io d cmd := by
  have hin := Command.not_isIn_of_isOut hout
  have hex := @Proxy.executeControlCommand_out E io d cmd hout
  rw [Proxy.executeOutControlCommand_eq] at hex
  have hctl : cmd.controlRequest E = cmd.outRequest E := if_neg hin
  rcases cmd.outRequest_cases E with hreq | hreq | hreq | hreq | hreq <;> rw [hreq] at hex hctl
  · exact truthful_of_zero hs hex rfl (by simp [hctl]) (by simp [hctl])
  · exact truthful_of_zero hs hex rfl (by simp [hctl]) (by simp [hctl])
  · exact truthful_of_zero hs hex rfl (by simp [hctl]) (by simp [hctl])
  · exact truthful_of_zero hs hex rfl (by simp [hctl]) (by simp [hctl])
  · rw [truthful_iff_of_ok hs hex]
    unfold Succeeds Misreported
    rw [hctl]
    exact iff_of_true (truthful_forward (status_submitCtrlSetupOut hin)) id

/-- **Control status**: truthful exactly when the request is not one of those
misreported. -/
theorem control_status_iff (hs : cmd.isSubmit = true) (hdir : cmd.isIn = true ∨ cmd.isOut = true) :
    Truthful E io d cmd ↔ ¬ Misreported E io d cmd := by
  rcases hdir with hin | hout
  · exact truthful_in hs hin
  · exact truthful_out hs hout

def setConfiguration : Command := .control USBIP_DIR_OUT #v[0, 9, 1, 0, 0, 0, 0, 0] 0

/-- A plugin that refuses every configuration. -/
def Io.refusing : Io := { Io.silent with onSetConfiguration := some fun _ => LIBUSB_ERROR_OTHER }

/-- A SET_CONFIGURATION that the plugin refuses is answered with 0. -/
theorem control_status_untrue : ¬ ∀ cmd : Command, cmd.isSubmit = true → cmd.isIn = true ∨ cmd.isOut = true →
    Truthful .little Io.refusing (.mock []) cmd := by
  intro h
  have ht := h setConfiguration rfl (.inr rfl)
  have hex : Proxy.executeControlCommand .little Io.refusing (.mock []) setConfiguration =
      .ok (Proxy.setConfiguration setConfiguration, .mock []) := rfl
  rw [truthful_iff_succeeds rfl hex rfl] at ht
  have haccepted : some LIBUSB_ERROR_OTHER = some LIBUSB_SUCCESS := ht
  exact absurd haccepted (by decide)

theorem control_status_getStatus : getStatus.isSubmit = true ∧ Truthful .little Io.silent (.mock []) getStatus :=
  ⟨rfl, (control_status_iff rfl (.inl rfl)).mpr id⟩

end Viu
