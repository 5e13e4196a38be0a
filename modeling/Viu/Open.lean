/-
# Opening a real device

What `device::device(vid, pid)` reads of a real device through libusb, and the
descriptor tree it makes of it: the device descriptor, the configuration that
is active, the strings (`string_descriptors`), the BOS and one report
descriptor. The tree is made once; the packing functions of `Viu.Device`
answer from it. A device whose active configuration has no interfaces does not
open (`Device.open_of_noInterfaces`).

The device itself is what libusb shows of it, `LibusbDevice`.
-/
import Viu.Lib.Table
import Viu.Device

namespace Viu

open Bytes Table

/-- A string descriptor of a device: its first byte is its length. -/
structure StringDescriptor where
  bytes : List U8
  two_le_length : 2 ≤ bytes.length
  length_lt : bytes.length < 256
  bLength_eq : bytes.head? = some (BitVec.ofNat 8 bytes.length)
  deriving DecidableEq, Repr

/-- A device that is configured, as libusb shows it. `reports` is the report descriptor of each
interface that has one. -/
structure LibusbDevice where
  deviceDescriptor : LibusbDeviceDescriptor
  configurations : List Config
  activeConfig : Config
  activeConfig_mem : activeConfig ∈ configurations
  bNumConfigurations_eq : deviceDescriptor.bNumConfigurations.toNat = configurations.length
  strings : U16 → U8 → Option StringDescriptor
  bos : Option Bos
  reports : U16 → Option (List U8)

namespace LibusbDevice

variable (E : Order) (dev : LibusbDevice) (languageId : U16) (index : U8)

/-- `libusb_get_string_descriptor`: what was transferred, `none` on an error. -/
def libusbGetStringDescriptor (length : ℕ) : Option (List U8) :=
  (dev.strings languageId index).map (·.bytes.take length)

/-- `string_descriptor<std::uint8_t>`. -/
def stringDescriptor : Option (List U8) :=
  match dev.libusbGetStringDescriptor languageId index 256 with
  | none => none
  | some bytes => if bytes.length = 0 then none else some bytes

/-- The words that whole bytes make in memory. -/
def wordsOf (bytes : List U8) : List U16 :=
  (List.range (bytes.length / 2)).map fun i => load E 16 [bytes.getD (2 * i) 0, bytes.getD (2 * i + 1) 0]

/-- `string_descriptor<std::uint16_t>`, as the machine reads the words. -/
def stringDescriptor16 : Option (List U16) := (dev.stringDescriptor languageId index).map (wordsOf E)

/-- The size that the descriptor claims without its header, an `int`; 0 if there is no
descriptor. -/
def sizeOf (stringDesc : Option (List U8)) : ℤ :=
  match stringDesc with
  | none => 0
  | some bytes => if bytes.length < 2 then 0 else ((bytes.headD 0).toNat : ℤ) - 2

/-- The loop of `pair_with_string_desc` over `n` indices from `i` on, up to the
first that has no string. -/
def stringsFrom : ℕ → ℕ → List (List U8)
  | _, 0 => []
  | i, n + 1 =>
    let stringDesc := dev.stringDescriptor languageId (BitVec.ofNat 8 i)
    if sizeOf stringDesc ≠ 0 then stringDesc.getD [] :: stringsFrom (i + 1) n else []

/-- A language and its strings; index 255 is not read. -/
def pairWithStringDesc (langId : U16) : U16 × List (List U8) := (langId, dev.stringsFrom langId 1 254)

/-- `string_map.insert` of the languages that have strings, the language table
being under 0. -/
def stringDescriptors : StringDescriptorMap :=
  match dev.stringDescriptor 0 0 with
  | none => []
  | some supportedLangs =>
    let langIds := (dev.stringDescriptor16 E 0 0).getD []
    (langIds.drop 1).foldl
      (fun stringMap langId =>
        let stringDesc := dev.pairWithStringDesc langId
        if stringDesc.2.isEmpty then stringMap else insertBy BitVec.toNat stringMap stringDesc.1 stringDesc.2)
      [(0, [supportedLangs])]

/-- `report_descriptor`: a control transfer of at most 4096 bytes, of interface 0. -/
def reportDescriptor : Option (List U8) := (dev.reports 0).map (·.take 4096)

/-- `tree{}` leaves the BOS zero. -/
def emptyBos : Bos := ⟨⟨0, 0, 0, 0⟩, []⟩

def tree : Tree where
  deviceDescriptor := dev.deviceDescriptor
  deviceConfig := dev.activeConfig
  stringDescriptors := dev.stringDescriptors E
  bosDescriptor := dev.bos.getD emptyBos
  reportDescriptor := dev.reportDescriptor.getD []

end LibusbDevice

/-- `open_cloned_libusb_device`: the handle, and then the interfaces of the active
configuration, which are claimed. -/
def LibusbDevice.openCloned (dev : LibusbDevice) (libusbOpen : I32) (libusbClaimInterface : U8 → I32) : I32 :=
  if libusbOpen = LIBUSB_SUCCESS then
    forInterfaces libusbClaimInterface 0 dev.activeConfig.wrapped.bNumInterfaces.toNat LIBUSB_ERROR_OTHER
  else libusbOpen

/-- The device with the tree that is made of it once it is open. -/
def Device.opened (E : Order) (dev : LibusbDevice) : Device where
  isMock := false
  descriptorTree := dev.tree E
  altSettings := []

/-- `device::device` of the device that has the vid and the pid asked for. -/
def Device.open (E : Order) (dev : LibusbDevice) (libusbOpen : I32) (libusbClaimInterface : U8 → I32) :
    Except Exn Device :=
  let result := dev.openCloned libusbOpen libusbClaimInterface
  if result ≠ LIBUSB_SUCCESS then .error (failedToCreate result) else .ok (.opened E dev)

section

variable {E : Order} {dev : LibusbDevice} {libusbOpen : I32} {libusbClaimInterface : U8 → I32} {d : Device}

theorem Device.eq_opened (h : Device.open E dev libusbOpen libusbClaimInterface = .ok d) : d = .opened E dev := by
  unfold Device.open at h
  by_cases hr : dev.openCloned libusbOpen libusbClaimInterface = LIBUSB_SUCCESS
  · rw [if_neg (not_not.mpr hr)] at h
    exact (Except.ok.inj h).symm
  · rw [if_pos hr] at h
    cases h

/-- Of no interfaces there is none to claim, and that is an error. -/
theorem Device.open_of_noInterfaces (h : dev.activeConfig.wrapped.bNumInterfaces = 0) :
    Device.open E dev LIBUSB_SUCCESS libusbClaimInterface = .error (failedToCreate LIBUSB_ERROR_OTHER) := by
  have hresult : dev.openCloned LIBUSB_SUCCESS libusbClaimInterface = LIBUSB_ERROR_OTHER := by
    rw [LibusbDevice.openCloned, if_pos rfl, h]
    rfl
  unfold Device.open
  rw [hresult]
  exact if_pos (by decide)

end

/-- A configuration with one interface, which has no endpoints. -/
def Config.oneInterface (bConfigurationValue bmAttributes : U8) : Config :=
  ⟨⟨9, 2, 18, 1, bConfigurationValue, 0, bmAttributes, 50⟩, [], [⟨[⟨⟨9, 4, 0, 0, 0, 0xff, 0, 0, 0⟩, [], []⟩]⟩]⟩

/-- A device with one configuration. -/
def LibusbDevice.plain : LibusbDevice where
  deviceDescriptor := ⟨18, 1, 0x200, 0, 0, 0, 64, 0, 0, 0, 0, 0, 0, 1⟩
  configurations := [.oneInterface 1 0x80]
  activeConfig := .oneInterface 1 0x80
  activeConfig_mem := List.mem_singleton_self _
  bNumConfigurations_eq := rfl
  strings := fun _ _ => none
  bos := none
  reports := fun _ => none

end Viu
