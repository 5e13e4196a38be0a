/-
# Endpoint types

`ep_transfer_type` takes the first endpoint with the address, over all
altsettings of the configuration that was active when the device was opened.
What the host has selected, a configuration and a setting of each interface,
is followed over a history of requests (`Viu.AltSettings`).

The type is that of a selected endpoint, for every address, exactly when the
first endpoint of each address in the tree has the type of a selected endpoint
of that address and no other address is selected (`ep_transfer_type_iff`).
-/
import Viu.AltSettings
import Viu.Open

namespace Viu

open Bytes

variable {E : Order} {dev : LibusbDevice} {d : Device} {requests : List Request}

/-- The transfer type in the endpoint's attributes. -/
def Endpoint.transferType (ep : Endpoint) : LibusbEndpointTransferType :=
  match (ep.attributes &&& 0b00000011#8).toNat with
  | 0 => .control
  | 1 => .isochronous
  | 2 => .bulk
  | _ => .interrupt

/-- The endpoints of all altsettings of all interfaces. -/
def Config.endpoints (c : Config) : List Endpoint :=
  c.interface.flatMap fun i => i.altsetting.flatMap (·.ep)

/-! ### What the host selected -/

/-- The configuration the request asks for. -/
def Request.index : Request → Option U8
  | .setConfiguration _ index => some index
  | .setInterface _ _ _ => none

/-- The value of the last successful SET_CONFIGURATION. -/
def Device.selectedIndex : Device → List Request → Option U8
  | _, [] => none
  | d, r :: requests =>
    ((d.serve r).selectedIndex requests).or (if d.result r = LIBUSB_SUCCESS then r.index else none)

/-- The selected configuration; the one active at the start until one is
selected. -/
def LibusbDevice.selectedConfig (dev : LibusbDevice) (d : Device) (requests : List Request) : Option Config :=
  match d.selectedIndex requests with
  | none => some dev.activeConfig
  | some index => dev.configurations.find? fun c => c.wrapped.bConfigurationValue = index

/-- The endpoints of the selected altsetting of each interface of the selected
configuration. -/
def LibusbDevice.selectedEndpoints (dev : LibusbDevice) (d : Device) (requests : List Request) : List Endpoint :=
  (dev.selectedConfig d requests).toList.flatMap fun c => c.interface.flatMap fun i =>
    (i.altsetting.filter fun a =>
      a.wrapped.bAlternateSetting = d.selectedAltsetting requests a.wrapped.bInterfaceNumber).flatMap (·.ep)

/-- `ep_transfer_type` answers for the selected endpoints: for every address the
type of one that has it, an error if none has, and a transfer is made of the
type of one that has its address. -/
structure Device.TypesFollow (d : Device) (selected : List Endpoint) : Prop where
  some : ∀ epAddress type, d.epTransferType epAddress = some type →
    ∃ ep ∈ selected, ep.address = epAddress ∧ ep.transferType = type
  none : ∀ epAddress, d.epTransferType epAddress = none → ∀ ep ∈ selected, ep.address ≠ epAddress
  submitted : ∀ cmd cb x, Proxy.submitTransfer d cmd = .ok (Option.some (Option.some (cb, x))) →
    ∃ ep ∈ selected, ep.address = cmd.epAddress ∧ ep.transferType = x.type

/-- The endpoints of the tree stand for those selected: the first of each address
has the type of a selected one of that address, and every address selected is
there. -/
structure StandFor (captured selected : List Endpoint) : Prop where
  firsts : ∀ before ep after, captured = before ++ ep :: after → (∀ e ∈ before, e.address ≠ ep.address) →
    ∃ ep' ∈ selected, ep'.address = ep.address ∧ ep'.transferType = ep.transferType
  addresses : ∀ ep ∈ selected, ∃ ep' ∈ captured, ep'.address = ep.address

/-! ### What the code looks up -/

namespace Device

theorem epTransferType_eq (epAddress : U8) : d.epTransferType epAddress =
    (d.descriptorTree.deviceConfig.endpoints.find? (·.address = epAddress)).map (·.transferType) := rfl

theorem serve_tree (r : Request) : (d.serve r).descriptorTree = d.descriptorTree := by
  cases r with
  | setConfiguration io index => rfl
  | setInterface io interface altSetting => exact Proxy.setInterface_tree interface altSetting

/-- No request touches the tree. -/
theorem after_tree : (d.after requests).descriptorTree = d.descriptorTree := by
  induction requests using List.reverseRecOn with
  | nil => rfl
  | append_singleton requests r ih => rw [after_append_one, serve_tree, ih]

/-- The type of a transfer is that of its endpoint. -/
theorem submitTransfer_type {cmd : Command} {cb : Callback} {x : LibusbTransfer}
    (h : Proxy.submitTransfer d cmd = .ok (some (some (cb, x)))) :
    d.epTransferType cmd.epAddress = some x.type := by
  obtain ⟨info, type, -, -, htype, ⟨rfl, hiso⟩ | ⟨-, rfl⟩⟩ := Proxy.submitTransfer_eq h
  · unfold fillIso at hiso
    dsimp only at hiso
    split_ifs at hiso
    cases hiso
    exact htype
  · exact htype

theorem typesFollow_iff {selected : List Endpoint} :
    d.TypesFollow selected ↔ StandFor d.descriptorTree.deviceConfig.endpoints selected := by
  set captured := d.descriptorTree.deviceConfig.endpoints with hcaptured
  constructor
  · intro h
    constructor
    · intro before ep after heq hbefore
      have hfind : captured.find? (·.address = ep.address) = some ep := by
        rw [List.find?_eq_some_iff_append]
        exact ⟨by simp, before, after, heq, fun e he => by simpa using hbefore e he⟩
      apply h.some
      rw [epTransferType_eq, ← hcaptured, hfind]
      rfl
    · intro ep hep
      by_contra hnone
      have hfind : captured.find? (·.address = ep.address) = none := by
        rw [List.find?_eq_none]
        intro e he heq
        exact hnone ⟨e, he, by simpa using heq⟩
      refine h.none ep.address ?_ ep hep rfl
      rw [epTransferType_eq, ← hcaptured, hfind]
      rfl
  · intro h
    have hsome : ∀ epAddress type, d.epTransferType epAddress = some type →
        ∃ ep ∈ selected, ep.address = epAddress ∧ ep.transferType = type := by
      intro epAddress type htype
      rw [epTransferType_eq, ← hcaptured, Option.map_eq_some_iff] at htype
      obtain ⟨ep, hfind, rfl⟩ := htype
      obtain ⟨haddr, before, after, heq, hbefore⟩ := List.find?_eq_some_iff_append.mp hfind
      have haddr' : ep.address = epAddress := by simpa using haddr
      rw [← haddr']
      refine h.firsts before ep after heq fun e he => ?_
      rw [haddr']
      simpa using hbefore e he
    refine ⟨hsome, fun epAddress hnone ep hep heq => ?_, fun cmd cb x hx => hsome _ _ (submitTransfer_type hx)⟩
    obtain ⟨ep', hep', haddr⟩ := h.addresses ep hep
    rw [epTransferType_eq, ← hcaptured, Option.map_eq_none_iff, List.find?_eq_none] at hnone
    exact hnone ep' hep' (by simp [haddr, heq])

end Device

/-- Requests leave the endpoints that were captured when the device was opened. -/
theorem LibusbDevice.endpoints_after_open (dev : LibusbDevice) (requests : List Request) :
    ((Device.opened E dev).after requests).descriptorTree.deviceConfig.endpoints = dev.activeConfig.endpoints := by
  rw [Device.after_tree]
  rfl

/-- **Endpoint types**: after any history of requests to a device that was opened,
`ep_transfer_type` follows what is selected exactly when the endpoints of the
configuration active at the start stand for those selected. -/
theorem ep_transfer_type_iff : ((Device.opened E dev).after requests).TypesFollow
      (dev.selectedEndpoints (Device.opened E dev) requests) ↔
    StandFor dev.activeConfig.endpoints (dev.selectedEndpoints (Device.opened E dev) requests) := by
  rw [Device.typesFollow_iff, LibusbDevice.endpoints_after_open]

/-- What stands for itself: the tree of a device with every altsetting selected. -/
theorem StandFor.refl (captured : List Endpoint) : StandFor captured captured where
  firsts _ ep _ heq _ := ⟨ep, by simp [heq], rfl, rfl⟩
  addresses ep hep := ⟨ep, hep, rfl⟩

/-- In the configuration active at the start, with no altsetting beside those
selected, the types follow. -/
theorem typesFollow_of_selected
    (hc : dev.selectedConfig (Device.opened E dev) requests = some dev.activeConfig)
    (ha : ∀ i ∈ dev.activeConfig.interface, ∀ a ∈ i.altsetting,
      a.wrapped.bAlternateSetting = (Device.opened E dev).selectedAltsetting requests a.wrapped.bInterfaceNumber) :
    ((Device.opened E dev).after requests).TypesFollow (dev.selectedEndpoints (Device.opened E dev) requests) := by
  have hsel : dev.selectedEndpoints (Device.opened E dev) requests = dev.activeConfig.endpoints := by
    simp only [LibusbDevice.selectedEndpoints, hc, Option.toList_some, List.flatMap_cons, List.flatMap_nil,
      List.append_nil, Config.endpoints]
    apply List.flatMap_congr
    intro i hi
    rw [List.filter_eq_self.mpr fun a hia => by simpa using ha i hi a hia]
  rw [Device.typesFollow_iff, LibusbDevice.endpoints_after_open, hsel]
  exact .refl _

/-- An interrupt endpoint in setting 0, in setting 1 an isochronous one. -/
def twoSettings : LibusbDevice :=
  { LibusbDevice.plain with
    configurations := [⟨⟨9, 2, 41, 1, 1, 0, 0x80, 50⟩, [],
      [⟨[⟨⟨9, 4, 0, 0, 1, 3, 0, 0, 0⟩, [], [⟨⟨7, 5, 0x81, 3, 8, 10, 0, 0⟩, []⟩]⟩,
        ⟨⟨9, 4, 0, 1, 1, 3, 0, 0, 0⟩, [], [⟨⟨7, 5, 0x81, 1, 8, 1, 0, 0⟩, []⟩]⟩]⟩]⟩]
    activeConfig := ⟨⟨9, 2, 41, 1, 1, 0, 0x80, 50⟩, [],
      [⟨[⟨⟨9, 4, 0, 0, 1, 3, 0, 0, 0⟩, [], [⟨⟨7, 5, 0x81, 3, 8, 10, 0, 0⟩, []⟩]⟩,
        ⟨⟨9, 4, 0, 1, 1, 3, 0, 0, 0⟩, [], [⟨⟨7, 5, 0x81, 1, 8, 1, 0, 0⟩, []⟩]⟩]⟩]⟩
    activeConfig_mem := List.mem_singleton_self _
    bNumConfigurations_eq := rfl }

/-- A device that accepts every setting. -/
def Io.following : Io := { Io.silent with libusbSetInterfaceAltSetting := fun _ _ => LIBUSB_SUCCESS }

/-- With setting 1 selected the endpoint is still an interrupt one. -/
theorem ep_transfer_type_captured : ¬ ∀ (dev : LibusbDevice) (requests : List Request),
    ((Device.opened .little dev).after requests).TypesFollow
      (dev.selectedEndpoints (Device.opened .little dev) requests) := by
  intro h
  have hfollow := h twoSettings [.setInterface .following 0 1]
  have hsel : twoSettings.selectedEndpoints (Device.opened .little twoSettings) [.setInterface .following 0 1] =
      [⟨⟨7, 5, 0x81, 1, 8, 1, 0, 0⟩, []⟩] := by decide
  rw [Device.typesFollow_iff, LibusbDevice.endpoints_after_open, hsel] at hfollow
  obtain ⟨ep, hep, -, htype⟩ := hfollow.firsts [] _ _ rfl (by simp)
  rw [List.mem_singleton.mp hep] at htype
  exact absurd htype (by decide)

end Viu
