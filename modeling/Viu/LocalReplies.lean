/-
# What the proxy answers itself

The requests that are answered from the proxy's own state: GET_INTERFACE, whose
value `set_interface` records, and the standard requests that the descriptor
tree answers.

The handler of GET_INTERFACE stands among those of host-to-device requests,
whose replies carry no payload. As hosts send it, device to host, the request
is forwarded, so the recorded setting reaches the host only if the plugin
answers with it (`get_interface_iff`).

A descriptor's reply is the packed descriptor up to wLength, but the device
descriptor is packed with the configuration behind it, and GET_STATUS reads bit
D7 of bmAttributes for self-powered (`local_reply_iff`).
-/
import Viu.AltSettings
import Viu.Control

namespace Viu

open Bytes

variable {E : Order} {io : Io} {d d' : Device} {cmd cmd' : Command} {req : QueueReplyRequest}
  {rep rep' : Command}

/-- The command is answered with this status and payload. -/
def Replies (E : Order) (io : Io) (d : Device) (cmd : Command) (status : I32) (payload : List U8) : Prop :=
  ∃ req d' rep, Proxy.executeControlCommand E io d cmd = .ok (req, d') ∧ queueReplyToHost E req = .ok rep ∧
    rep.status E = status ∧ rep.payload = payload

theorem Replies.unique {status status' : I32} {payload payload' : List U8} (h : Replies E io d cmd status payload)
    (h' : Replies E io d cmd status' payload') : status = status' ∧ payload = payload' := by
  obtain ⟨req, d₁, rep, hex, hrep, rfl, rfl⟩ := h
  obtain ⟨req', d₂, rep', hex', hrep', rfl, rfl⟩ := h'
  rw [hex] at hex'
  obtain ⟨rfl, rfl⟩ := Prod.mk.inj (Except.ok.inj hex')
  rw [hrep] at hrep'
  obtain rfl := Except.ok.inj hrep'
  exact ⟨rfl, rfl⟩

/-- How an IN request that the handlers take is answered. -/
theorem replies_of_in (hs : cmd.isSubmit = true) (hin : cmd.isIn = true)
    (h : Proxy.executeInControlCommand E io d cmd = .ok req) :
    Replies E io d cmd req.status ((req.data.map (resize · req.size)).getD []) := by
  have hr := Proxy.executeInControlCommand_cases h
  have hs' : req.cmd.isSubmit = true := by rw [hr.cmd_eq]; exact hs
  have hrep := queueReplyToHost_submit E hs'
  refine ⟨req, d, _, ?_, hrep, reply_status hs' hrep, inReply_payload hs hin hr hrep⟩
  rw [Proxy.executeControlCommand_in hin, h]
  rfl

/-! ### GET_INTERFACE -/

/-- A GET_INTERFACE as hosts send it. -/
structure GetInterface (E : Order) (cmd : Command) : Prop where
  isSubmit : cmd.isSubmit = true
  isIn : cmd.isIn = true
  requestType : cmd.requestType E = LIBUSB_REQUEST_TYPE_STANDARD
  recipient : cmd.recipient E = LIBUSB_RECIPIENT_INTERFACE
  bRequest : (cmd.controlSetup E).bRequest = LIBUSB_REQUEST_GET_INTERFACE
  wLength : (cmd.controlSetup E).wLength = 1

/-- The interface asked for. -/
def Command.interfaceNumber (E : Order) (cmd : Command) : U8 := (cmd.controlSetup E).wIndex.setWidth 8

/-- The reply has status 0 and the recorded setting for its payload. -/
def ReportsSetting (E : Order) (io : Io) (d : Device) (cmd : Command) : Prop :=
  Replies E io d cmd 0 [d.currentAltsetting (cmd.interfaceNumber E)]

/-- The plugin answers the request itself, with one byte: what is recorded. -/
def PluginReports (E : Order) (io : Io) (d : Device) (cmd : Command) : Prop :=
  ∃ f, io.onControlSetup = some f ∧
    f.call (cmd.controlSetup E) [0] LIBUSB_ERROR_NOT_SUPPORTED =
      (1, [d.currentAltsetting (cmd.interfaceNumber E)])

theorem GetInterface.inRequest (h : GetInterface E cmd) : cmd.inRequest E = .forward := by
  have htype : ¬ cmd.requestType E ≠ LIBUSB_REQUEST_TYPE_STANDARD := not_not.mpr h.requestType
  have hdev : LIBUSB_RECIPIENT_INTERFACE ≠ LIBUSB_RECIPIENT_DEVICE := by decide
  have hreq : LIBUSB_REQUEST_GET_INTERFACE ≠ LIBUSB_REQUEST_GET_DESCRIPTOR := by decide
  simp only [Command.inRequest, if_neg htype, h.recipient, h.bRequest, hdev, hreq, ↓reduceIte]

/-- The request goes to `submit_control_setup`. -/
theorem GetInterface.execute (h : GetInterface E cmd) :
    Proxy.executeInControlCommand E io d cmd = .ok (Proxy.submitCtrlSetupIn E io d cmd) := by
  rw [Proxy.executeInControlCommand_eq, h.inRequest]

/-- A mock device answers a forwarded request with what the plugin does. -/
theorem submitControlSetup_mock (hd : d.isMock = true) (setup : LibusbControlSetup) (data : List U8) :
    d.submitControlSetup io setup data =
      match io.onControlSetup with
      | none => .error LIBUSB_ERROR_NOT_SUPPORTED
      | some f =>
        let (result, setupData) :=
          f.call setup (resize data setup.wLength.toNat) LIBUSB_ERROR_NOT_SUPPORTED
        if 0 ≤ result.toInt then .ok (resize setupData result.toNat) else .error result := by
  unfold Device.submitControlSetup Device.controlSetupResult
  cases io.onControlSetup with
  | none =>
    have hneg : ¬ 0 ≤ LIBUSB_ERROR_NOT_SUPPORTED.toInt := by decide
    simp only [hd, ↓reduceIte, if_neg hneg]
  | some f => simp only [hd, ↓reduceIte]

/-- One byte is the answer just when the call says 1 and leaves that byte. -/
theorem resize_eq_singleton_iff {result : I32} {setupData : List U8} {b : U8} (hlen : setupData.length = 1)
    (hpos : 0 ≤ result.toInt) : resize setupData result.toNat = [b] ↔ result = 1 ∧ setupData = [b] := by
  constructor
  · intro heq
    have hone : result.toNat = 1 := by
      have := congrArg List.length heq
      rwa [length_resize] at this
    refine ⟨BitVec.eq_of_toNat_eq hone, ?_⟩
    rw [hone, ← hlen, resize_length] at heq
    exact heq
  · rintro ⟨rfl, rfl⟩
    rfl

/-- The reply is what `submit_control_setup` returns. -/
theorem reportsSetting_iff (h : GetInterface E cmd) : ReportsSetting E io d cmd ↔
    d.submitControlSetup io (cmd.controlSetup E) [] = .ok [d.currentAltsetting (cmd.interfaceNumber E)] := by
  have hreplies : Replies E io d cmd _ _ := replies_of_in h.isSubmit h.isIn h.execute
  have hanswer : ReportsSetting E io d cmd ↔ (Proxy.submitCtrlSetupIn E io d cmd).status = 0 ∧
      ((Proxy.submitCtrlSetupIn E io d cmd).data.map
        (resize · (Proxy.submitCtrlSetupIn E io d cmd).size)).getD [] =
          [d.currentAltsetting (cmd.interfaceNumber E)] := by
    constructor
    · exact fun h' => hreplies.unique h'
    · rintro ⟨hstatus, hpayload⟩
      rwa [hstatus, hpayload] at hreplies
  rw [hanswer]
  unfold Proxy.submitCtrlSetupIn
  cases d.submitControlSetup io (cmd.controlSetup E) [] with
  | ok data => simp [resize_length]
  | error result => simp

/-- **GET_INTERFACE**: a mock device reports the recorded setting exactly when its
plugin does. -/
theorem get_interface_iff (hd : d.isMock = true) (h : GetInterface E cmd) :
    ReportsSetting E io d cmd ↔ PluginReports E io d cmd := by
  have hbuffer : resize [] (cmd.controlSetup E).wLength.toNat = [0] := by rw [h.wLength]; rfl
  rw [reportsSetting_iff h, submitControlSetup_mock hd, hbuffer]
  unfold PluginReports
  cases io.onControlSetup with
  | none => simp
  | some f =>
    have hlen : (f.call (cmd.controlSetup E) [0] LIBUSB_ERROR_NOT_SUPPORTED).2.length = 1 := f.length_eq _ _ _
    rcases hcall : f.call (cmd.controlSetup E) [0] LIBUSB_ERROR_NOT_SUPPORTED with ⟨result, setupData⟩
    rw [hcall] at hlen
    simp only [Option.some.injEq, exists_eq_left', hcall, Prod.mk.injEq]
    by_cases hpos : 0 ≤ result.toInt
    · simp only [hpos, ↓reduceIte, Except.ok.injEq]
      exact resize_eq_singleton_iff hlen hpos
    · have hne : result ≠ 1 := fun hone => hpos (by rw [hone]; decide)
      simp only [hpos, ↓reduceIte, reduceCtorEq, hne, false_and]

/-- GET_INTERFACE of interface 0. -/
def getInterface : Command := .control USBIP_DIR_IN #v[0x81, 10, 0, 0, 0, 0, 1, 0] 1

theorem getInterface_spec : GetInterface .little getInterface := by
  constructor <;> decide

/-- With a plugin that rejects it, the request is not answered. -/
theorem get_interface_forwarded : ¬ ∀ (io : Io) (d : Device) (cmd : Command), d.isMock = true →
    GetInterface .little cmd → ReportsSetting .little io d cmd := by
  intro h
  have hreports := h .silent (.mock []) getInterface rfl getInterface_spec
  rw [reportsSetting_iff getInterface_spec, submitControlSetup_mock rfl] at hreports
  cases hreports

/-- A plugin that answers every control setup with the byte it is lent. -/
def Io.echoing : Io := { Io.silent with onControlSetup := some .oneByte }

theorem get_interface_echoed : ReportsSetting .little .echoing (.mock []) getInterface :=
  (get_interface_iff rfl getInterface_spec).mpr ⟨_, rfl, rfl⟩

/-! ### The descriptor tree -/

/-- The descriptor of a type, packed alone. -/
def Device.packedAlone (d : Device) (descriptorType : U8) : Option (List U8) :=
  if descriptorType = LIBUSB_DT_DEVICE then some (packMembers d.descriptorTree.deviceDescriptor.members)
  else if descriptorType = LIBUSB_DT_CONFIG then some d.descriptorTree.deviceConfig.pack
  else if descriptorType = LIBUSB_DT_BOS then some d.descriptorTree.bosDescriptor.pack
  else if descriptorType = LIBUSB_DT_REPORT then some d.descriptorTree.reportDescriptor
  else none

/-- A request that the tree answers, and the descriptor asked for; GET_STATUS of
the device asks for none. -/
inductive LocalRequest
  | status
  | descriptor (packed : List U8)
  deriving DecidableEq, Repr

def Command.localRequest (E : Order) (d : Device) (cmd : Command) : Option LocalRequest :=
  match cmd.inRequest E with
  | .getStatus => some .status
  | .getDescriptor => (d.packedAlone (typeFromValue (cmd.controlSetup E).wValue)).map .descriptor
  | _ => none

/-- Bit D6 of bmAttributes. -/
def Config.bitD6 (c : Config) : Bool := c.wrapped.bmAttributes.getLsbD 6

/-- The command is answered with this payload. -/
def RepliesWith (E : Order) (io : Io) (d : Device) (cmd : Command) (payload : List U8) : Prop :=
  ∃ status, Replies E io d cmd status payload

/-- The same IN request for no fewer bytes. -/
structure AsksMore (E : Order) (cmd cmd' : Command) : Prop where
  isSubmit : cmd'.isSubmit = true
  isIn : cmd'.isIn = true
  setup : cmd'.controlSetup E = { cmd.controlSetup E with wLength := (cmd'.controlSetup E).wLength }
  wLength : (cmd.controlSetup E).wLength ≤ (cmd'.controlSetup E).wLength

/-- The reply agrees with the tree: the descriptor up to wLength and nothing else,
which any longer request begins with; the first bit of a status is D6. -/
def AgreesWithTree (E : Order) (io : Io) (d : Device) (cmd : Command) : LocalRequest → Prop
  | .status => ∃ payload, RepliesWith E io d cmd payload ∧
      (payload.headD 0).getLsbD 0 = d.descriptorTree.deviceConfig.bitD6
  | .descriptor packed => RepliesWith E io d cmd (packed.take (cmd.controlSetup E).wLength.toNat) ∧
      ∀ cmd' payload', AsksMore E cmd cmd' → RepliesWith E io d cmd' payload' →
        packed.take (cmd.controlSetup E).wLength.toNat <+: payload'

/-- A device descriptor is asked for with no more than its own length, a status
of a device whose bits D6 and D7 are the same (the machine being
little-endian). -/
def WithinDescriptor (E : Order) (d : Device) (cmd : Command) : LocalRequest → Prop
  | .status => d.descriptorTree.deviceConfig.bitD6 =
      (decide (E = .little) && d.descriptorTree.deviceConfig.wrapped.bmAttributes.getLsbD 7)
  | .descriptor _ => typeFromValue (cmd.controlSetup E).wValue = LIBUSB_DT_DEVICE →
      (cmd.controlSetup E).wLength.toNat ≤ 18

theorem RepliesWith.unique {payload payload' : List U8} (h : RepliesWith E io d cmd payload)
    (h' : RepliesWith E io d cmd payload') : payload = payload' := by
  obtain ⟨status, h⟩ := h
  obtain ⟨status', h'⟩ := h'
  exact (h.unique h').2

/-- What the tree's answer to a GET_DESCRIPTOR is cut from. -/
def Device.packedFor (d : Device) (descriptorType : U8) (packed : List U8) : List U8 :=
  if descriptorType = LIBUSB_DT_DEVICE then packed ++ d.descriptorTree.deviceConfig.pack else packed

theorem descriptor_of_packedAlone {packed : List U8}
    (h : d.packedAlone (typeFromValue (cmd.controlSetup E).wValue) = some packed) :
    Proxy.descriptor E io d cmd = .ok (Proxy.descriptorReply E cmd
      (d.packedFor (typeFromValue (cmd.controlSetup E).wValue) packed)) := by
  unfold Device.packedAlone at h
  unfold Proxy.descriptor Device.packedFor
  dsimp only
  by_cases h1 : typeFromValue (cmd.controlSetup E).wValue = LIBUSB_DT_DEVICE
  · rw [if_pos h1] at h
    rw [if_pos h1, if_pos h1, ← Option.some.inj h]
    rfl
  rw [if_neg h1] at h
  rw [if_neg h1, if_neg h1]
  by_cases h2 : typeFromValue (cmd.controlSetup E).wValue = LIBUSB_DT_CONFIG
  · rw [if_pos h2] at h
    rw [if_pos h2, ← Option.some.inj h]
    rfl
  rw [if_neg h2] at h
  rw [if_neg h2]
  by_cases h3 : typeFromValue (cmd.controlSetup E).wValue = LIBUSB_DT_BOS
  · rw [if_pos h3] at h
    rw [if_neg (by rw [h3]; decide), if_pos h3, ← Option.some.inj h]
    rfl
  rw [if_neg h3] at h
  by_cases h4 : typeFromValue (cmd.controlSetup E).wValue = LIBUSB_DT_REPORT
  · rw [if_pos h4] at h
    rw [if_neg (by rw [h4]; decide), if_neg h3, if_pos h4, ← Option.some.inj h]
    rfl
  · rw [if_neg h4] at h
    cases h

theorem localRequest_descriptor {packed : List U8} (h : cmd.localRequest E d = some (.descriptor packed)) :
    cmd.inRequest E = .getDescriptor ∧
      d.packedAlone (typeFromValue (cmd.controlSetup E).wValue) = some packed := by
  unfold Command.localRequest at h
  rcases cmd.inRequest_cases E with hreq | hreq | hreq <;> rw [hreq] at h
  · cases h
  · obtain ⟨packed', hp, hinj⟩ := Option.map_eq_some_iff.mp h
    cases hinj
    exact ⟨hreq, hp⟩
  · cases h

theorem localRequest_status (h : cmd.localRequest E d = some .status) : cmd.inRequest E = .getStatus := by
  unfold Command.localRequest at h
  rcases cmd.inRequest_cases E with hreq | hreq | hreq <;> rw [hreq] at h
  · exact hreq
  · obtain ⟨packed', -, hinj⟩ := Option.map_eq_some_iff.mp h
    cases hinj
  · cases h

theorem AsksMore.inRequest (h : AsksMore E cmd cmd') : cmd'.inRequest E = cmd.inRequest E := by
  have htype : (cmd'.controlSetup E).bmRequestType = (cmd.controlSetup E).bmRequestType := by rw [h.setup]
  have hreq : (cmd'.controlSetup E).bRequest = (cmd.controlSetup E).bRequest := by rw [h.setup]
  unfold Command.inRequest Command.requestType Command.recipient
  rw [htype, hreq]

theorem AsksMore.wValue (h : AsksMore E cmd cmd') :
    (cmd'.controlSetup E).wValue = (cmd.controlSetup E).wValue := by
  rw [h.setup]

/-- A descriptor of the tree is answered up to wLength, the device descriptor with
the configuration behind it. -/
theorem replies_descriptor {packed data : List U8} (hs : cmd.isSubmit = true) (hin : cmd.isIn = true)
    (hreq : cmd.inRequest E = .getDescriptor)
    (hp : d.packedAlone (typeFromValue (cmd.controlSetup E).wValue) = some packed)
    (hdata : data = d.packedFor (typeFromValue (cmd.controlSetup E).wValue) packed) :
    Replies E io d cmd (if data.isEmpty then 1 else 0) (data.take (cmd.controlSetup E).wLength.toNat) := by
  have hex : Proxy.executeInControlCommand E io d cmd = .ok (Proxy.descriptorReply E cmd data) := by
    rw [Proxy.executeInControlCommand_eq, hreq, hdata]
    exact descriptor_of_packedAlone hp
  have hreplies := replies_of_in hs hin hex
  have hcut : resize data (min data.length (cmd.controlSetup E).wLength.toNat) =
      data.take (cmd.controlSetup E).wLength.toNat := by
    rw [resize_of_le (min_le_left _ _), List.take_eq_take_iff]
    omega
  rwa [← hcut]

/-- The descriptor alone begins what is packed for it. -/
theorem prefix_packedFor (descriptorType : U8) (packed : List U8) :
    packed <+: d.packedFor descriptorType packed := by
  unfold Device.packedFor
  split_ifs
  · exact List.prefix_append _ _
  · exact List.prefix_rfl

/-- What is packed for it is no longer, up to wLength, just within 18 bytes. -/
theorem take_packedFor_iff {descriptorType : U8} {packed : List U8} (hp : d.packedAlone descriptorType = some packed)
    (n : ℕ) : (d.packedFor descriptorType packed).take n = packed.take n ↔
      (descriptorType = LIBUSB_DT_DEVICE → n ≤ 18) := by
  unfold Device.packedFor
  by_cases ht : descriptorType = LIBUSB_DT_DEVICE
  · have hlen : packed.length = 18 := by
      simp only [Device.packedAlone, ht, ↓reduceIte, Option.some.injEq] at hp
      rw [← hp, length_pack_device]
    have hpos := List.length_pos_iff.mpr (packConfig_ne_nil d.descriptorTree.deviceConfig)
    rw [if_pos ht]
    constructor
    · intro heq _
      have hcut := congrArg List.length heq
      simp only [List.length_take, List.length_append, hlen] at hcut
      omega
    · intro h
      exact List.take_append_of_le_length (by rw [hlen]; exact h ht)
  · rw [if_neg ht]
    exact iff_of_true rfl fun h => absurd h ht

theorem isSelfPowered_eq (c : Config) : c.isSelfPowered = c.wrapped.bmAttributes.getLsbD 7 := by
  unfold Config.isSelfPowered Config.selfPoweredMask
  generalize c.wrapped.bmAttributes = bmAttributes
  revert bmAttributes
  decide

/-- The first bit of the status word in memory. -/
theorem statusBit_eq (E : Order) (c : Config) :
    ((resize (store E (if c.isSelfPowered then 1#16 else 0#16)) 2).headD 0).getLsbD 0 =
      (decide (E = .little) && c.wrapped.bmAttributes.getLsbD 7) := by
  rw [isSelfPowered_eq]
  cases E <;> cases c.wrapped.bmAttributes.getLsbD 7 <;> decide

/-- A status is right for a device whose bits D6 and D7 are the same. -/
theorem agrees_status_iff (hs : cmd.isSubmit = true) (hin : cmd.isIn = true)
    (hr : cmd.localRequest E d = some .status) :
    AgreesWithTree E io d cmd .status ↔ WithinDescriptor E d cmd .status := by
  have hex : Proxy.executeInControlCommand E io d cmd = .ok (Proxy.getStatusReply E d cmd) := by
    rw [Proxy.executeInControlCommand_eq, localRequest_status hr]
  have hreplies : RepliesWith E io d cmd _ := ⟨_, replies_of_in hs hin hex⟩
  have hbit := statusBit_eq E d.descriptorTree.deviceConfig
  unfold AgreesWithTree WithinDescriptor
  constructor
  · rintro ⟨payload, hpayload, heq⟩
    rw [← heq, hpayload.unique hreplies]
    exact hbit
  · intro heq
    exact ⟨_, hreplies, hbit.trans heq.symm⟩

/-- A descriptor is right when the device descriptor is not asked for with more than
its length. -/
theorem agrees_descriptor_iff {packed : List U8} (hs : cmd.isSubmit = true) (hin : cmd.isIn = true)
    (hr : cmd.localRequest E d = some (.descriptor packed)) :
    AgreesWithTree E io d cmd (.descriptor packed) ↔ WithinDescriptor E d cmd (.descriptor packed) := by
  obtain ⟨hreq, hp⟩ := localRequest_descriptor hr
  have hreplies : RepliesWith E io d cmd _ := ⟨_, replies_descriptor hs hin hreq hp rfl⟩
  unfold WithinDescriptor
  rw [← take_packedFor_iff hp]
  constructor
  · rintro ⟨halone, -⟩
    exact hreplies.unique halone
  · intro heq
    rw [heq] at hreplies
    refine ⟨hreplies, fun cmd' payload' hmore hreplies' => ?_⟩
    have hp' : d.packedAlone (typeFromValue (cmd'.controlSetup E).wValue) = some packed := by
      rw [hmore.wValue]
      exact hp
    have hwhole : RepliesWith E io d cmd' _ :=
      ⟨_, replies_descriptor hmore.isSubmit hmore.isIn (hmore.inRequest.trans hreq) hp' rfl⟩
    rw [hreplies'.unique hwhole, List.prefix_take_iff]
    exact ⟨(List.take_prefix _ _).trans (prefix_packedFor _ _), (List.length_take_le _ _).trans hmore.wLength⟩

/-- **Local replies** agree with the tree exactly when the device descriptor is not
asked for with more than its length, and a status is of a device whose bits D6
and D7 are the same. -/
theorem local_reply_iff {r : LocalRequest} (hs : cmd.isSubmit = true) (hin : cmd.isIn = true)
    (hr : cmd.localRequest E d = some r) : AgreesWithTree E io d cmd r ↔ WithinDescriptor E d cmd r := by
  cases r with
  | status => exact agrees_status_iff hs hin hr
  | descriptor packed => exact agrees_descriptor_iff hs hin hr

/-- GET_DESCRIPTOR of the device descriptor, in `n` bytes. -/
def getDeviceDescriptor (n : U8) : Command := .control USBIP_DIR_IN #v[0x80, 6, 0, 1, 0, 0, n, 0] (n.setWidth 32)

/-- The device descriptor of the mock, packed alone. -/
def deviceDescriptorAlone : List U8 := packMembers (Device.mock []).descriptorTree.deviceDescriptor.members

/-- The first read of an enumeration, of 64 bytes, gets the configuration too. -/
theorem local_reply_appended : ¬ ∀ (d : Device) (cmd : Command) (r : LocalRequest), cmd.isSubmit = true →
    cmd.isIn = true → cmd.localRequest .little d = some r → AgreesWithTree .little Io.silent d cmd r := by
  intro h
  have hlocal : (getDeviceDescriptor 64).localRequest .little (.mock []) =
      some (.descriptor deviceDescriptorAlone) := by decide +kernel
  have hagrees := h (.mock []) (getDeviceDescriptor 64) _ rfl rfl hlocal
  rw [agrees_descriptor_iff rfl rfl hlocal] at hagrees
  exact absurd (hagrees (by decide +kernel)) (by decide +kernel)

theorem local_reply_eighteen :
    AgreesWithTree .little Io.silent (.mock []) (getDeviceDescriptor 18) (.descriptor deviceDescriptorAlone) :=
  (local_reply_iff rfl rfl (by decide +kernel)).mpr fun _ => (by decide +kernel)

end Viu
