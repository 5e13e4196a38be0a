/-
# The device behind the proxy

`viu::usb::device`: the answers it gives from its descriptor tree, the
operations it forwards to libusb or to a plugin, and the alternate settings
it records. What libusb and the plugin answer during one call is `Io`; the
rest is state.
-/
import Viu.Descriptors
import Viu.Transfer

namespace Viu

open Bytes

def LIBUSB_SUCCESS : I32 := 0
def LIBUSB_ERROR_NOT_SUPPORTED : I32 := BitVec.ofInt 32 (-12)
def LIBUSB_ERROR_OTHER : I32 := BitVec.ofInt 32 (-99)

/-- A callee that is lent a buffer: its result, and the buffer it leaves,
which it cannot resize. -/
structure BufferCall where
  call : LibusbControlSetup → List U8 → I32 → I32 × List U8
  length_eq : ∀ setup data result, (call setup data result).2.length = data.length

/-- What libusb and the plugin answer while one command is executed. A
handler the plugin lacks is `none`, and all are without a plugin. Results that
nothing reads, such as those of `libusb_set_auto_detach_kernel_driver`, are
left out. -/
structure Io where
  onControlSetup : Option BufferCall
  onSetConfiguration : Option (U8 → I32)
  onSetInterface : Option (U8 → U8 → I32)
  libusbControlTransfer : BufferCall
  libusbGetConfiguration : I32 × I32
  /-- `count_interfaces()`, before and after the configuration is set. Where no
  configuration is active, as on a real device after SET_CONFIGURATION 0, it
  dereferences null, and nothing is said of what follows. -/
  countInterfaces : Bool → U8
  libusbReleaseInterface : U8 → I32
  libusbSetConfiguration : U8 → I32
  libusbClaimInterface : U8 → I32
  libusbSetInterfaceAltSetting : U8 → U8 → I32

/-- The parts of `usb::device` that a command reads or changes. -/
structure Device where
  isMock : Bool
  descriptorTree : Tree
  altSettings : List (U8 × U8)
  deriving DecidableEq, Repr

/-- The loop of `release_interfaces` and `claim_interfaces` over `n`
interfaces from `ifc` on, up to the first failure. -/
def forInterfaces (f : U8 → I32) : ℕ → ℕ → I32 → I32
  | _, 0, result => result
  | ifc, n + 1, _ =>
    let result := f (BitVec.ofNat 8 ifc)
    if result ≠ LIBUSB_SUCCESS then result else forInterfaces f (ifc + 1) n result

/-- `viu::format::make_string` of a text and an `int`. -/
def makeStringInt (text : String) (n : I32) : String := text ++ " " ++ toString n.toInt

/-- What `device::device` throws. -/
def failedToCreate (code : I32) : Exn := .runtimeError (makeStringInt "Failed to create usb device:" code)

namespace Io

variable (io : Io)

def releaseInterfaces : I32 :=
  forInterfaces io.libusbReleaseInterface 0 (io.countInterfaces false).toNat LIBUSB_ERROR_OTHER

def claimInterfaces : I32 :=
  forInterfaces io.libusbClaimInterface 0 (io.countInterfaces true).toNat LIBUSB_ERROR_OTHER

end Io

namespace Device

variable (d : Device) (io : Io)

/-- The device descriptor, and then the configuration as well. -/
def packDeviceDescriptor : List U8 :=
  packMembers d.descriptorTree.deviceDescriptor.members ++ d.descriptorTree.deviceConfig.pack

/-- The index is only asserted on. -/
def packConfigDescriptor (_index : U8) : List U8 := d.descriptorTree.deviceConfig.pack

def packBosDescriptor : List U8 := d.descriptorTree.bosDescriptor.pack

def packReportDescriptor : List U8 := d.descriptorTree.reportDescriptor

/-- `std::vector::at` throws when the language has no strings and `index` is 0. -/
def packStringDescriptor (languageId : U16) (index : U8) : Except Exn (List U8) :=
  match d.descriptorTree.stringDescriptors.lookup languageId with
  | none => .ok []
  | some strings =>
    if strings.length < index.toNat then .ok []
    else
      match strings[if index = 0 then 0 else index.toNat - 1]? with
      | none => .error .outOfRange
      | some descriptor => .ok descriptor

def isSelfPowered : Bool := d.descriptorTree.deviceConfig.isSelfPowered

/-- The transfer type of the first endpoint with this address, in any
altsetting. -/
def epTransferType (epAddress : U8) : Option LibusbEndpointTransferType :=
  let endpoints := d.descriptorTree.deviceConfig.interface.flatMap fun i => i.altsetting.flatMap (·.ep)
  (endpoints.find? (·.address = epAddress)).map fun ep =>
    match (ep.attributes &&& 0b00000011#8).toNat with
    | 0 => .control
    | 1 => .isochronous
    | 2 => .bulk
    | _ => .interrupt

/-- The `int` behind `submit_control_setup`, with the buffer it leaves: the
device's answer, then the plugin's in its place. -/
def controlSetupResult (setup : LibusbControlSetup) (setupData : List U8) : I32 × List U8 :=
  let (result, setupData) :=
    if d.isMock then (LIBUSB_ERROR_NOT_SUPPORTED, setupData)
    else io.libusbControlTransfer.call setup setupData LIBUSB_ERROR_NOT_SUPPORTED
  match io.onControlSetup with
  | none => (result, setupData)
  | some f => f.call setup setupData result

def submitControlSetup (setup : LibusbControlSetup) (data : List U8) : Except I32 (List U8) :=
  let (result, setupData) := d.controlSetupResult io setup (resize data setup.wLength.toNat)
  if 0 ≤ result.toInt then .ok (resize setupData result.toNat) else .error result

/-- Every result but the last is only asserted on. -/
def setConfiguration (index : U8) : I32 :=
  let result := (io.onSetConfiguration.map (· index)).getD LIBUSB_ERROR_NOT_SUPPORTED
  if d.isMock then result
  else
    let (result, currentIndex) := io.libusbGetConfiguration
    if (index.toNat : ℤ) ≠ currentIndex.toInt then io.claimInterfaces else result

def onSetInterface (interface altSetting : U8) : I32 :=
  let result := (io.onSetInterface.map fun f => f interface altSetting).getD LIBUSB_ERROR_NOT_SUPPORTED
  if d.isMock then result else io.libusbSetInterfaceAltSetting interface altSetting

/-- `std::map::insert`: a key that is there keeps its value. -/
def insertAltSetting (altSettings : List (U8 × U8)) (interface altSetting : U8) : List (U8 × U8) :=
  if (altSettings.lookup interface).isSome then altSettings else altSettings ++ [(interface, altSetting)]

def setInterface (interface altSetting : U8) : I32 × Device :=
  let result := d.onSetInterface io interface altSetting
  if result = LIBUSB_SUCCESS then
    (result, { d with altSettings := insertAltSetting d.altSettings interface altSetting })
  else (result, d)

def currentAltsetting (interface : U8) : U8 := (d.altSettings.lookup interface).getD 0

end Device

end Viu
