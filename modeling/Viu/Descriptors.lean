/-
# The descriptor tree

`viu::usb::descriptor`: the described libusb structures, the tree the daemon
keeps of a device, and the packing of each of its parts. A described
structure is packed member by member, each little-endian (`packMembers`); a
node of the tree is its structure, its extra bytes, then its children.
-/
import Viu.Usbip

namespace Viu

open Bytes

/-- A described member: its width and value. -/
abbrev Member := (k : ℕ) × BitVec k

/-- `usb::descriptor::pack` of a described structure. -/
def packMembers (members : List Member) : List U8 := members.flatMap fun m => store .little m.2

structure LibusbDeviceDescriptor where
  bLength : U8
  bDescriptorType : U8
  bcdUSB : U16
  bDeviceClass : U8
  bDeviceSubClass : U8
  bDeviceProtocol : U8
  bMaxPacketSize0 : U8
  idVendor : U16
  idProduct : U16
  bcdDevice : U16
  iManufacturer : U8
  iProduct : U8
  iSerialNumber : U8
  bNumConfigurations : U8
  deriving DecidableEq, Repr

def LibusbDeviceDescriptor.members (d : LibusbDeviceDescriptor) : List Member :=
  [⟨8, d.bLength⟩, ⟨8, d.bDescriptorType⟩, ⟨16, d.bcdUSB⟩, ⟨8, d.bDeviceClass⟩, ⟨8, d.bDeviceSubClass⟩,
    ⟨8, d.bDeviceProtocol⟩, ⟨8, d.bMaxPacketSize0⟩, ⟨16, d.idVendor⟩, ⟨16, d.idProduct⟩, ⟨16, d.bcdDevice⟩,
    ⟨8, d.iManufacturer⟩, ⟨8, d.iProduct⟩, ⟨8, d.iSerialNumber⟩, ⟨8, d.bNumConfigurations⟩]

structure LibusbConfigDescriptor where
  bLength : U8
  bDescriptorType : U8
  wTotalLength : U16
  bNumInterfaces : U8
  bConfigurationValue : U8
  iConfiguration : U8
  bmAttributes : U8
  maxPower : U8
  deriving DecidableEq, Repr

def LibusbConfigDescriptor.members (d : LibusbConfigDescriptor) : List Member :=
  [⟨8, d.bLength⟩, ⟨8, d.bDescriptorType⟩, ⟨16, d.wTotalLength⟩, ⟨8, d.bNumInterfaces⟩,
    ⟨8, d.bConfigurationValue⟩, ⟨8, d.iConfiguration⟩, ⟨8, d.bmAttributes⟩, ⟨8, d.maxPower⟩]

structure LibusbInterfaceDescriptor where
  bLength : U8
  bDescriptorType : U8
  bInterfaceNumber : U8
  bAlternateSetting : U8
  bNumEndpoints : U8
  bInterfaceClass : U8
  bInterfaceSubClass : U8
  bInterfaceProtocol : U8
  iInterface : U8
  deriving DecidableEq, Repr

def LibusbInterfaceDescriptor.members (d : LibusbInterfaceDescriptor) : List Member :=
  [⟨8, d.bLength⟩, ⟨8, d.bDescriptorType⟩, ⟨8, d.bInterfaceNumber⟩, ⟨8, d.bAlternateSetting⟩,
    ⟨8, d.bNumEndpoints⟩, ⟨8, d.bInterfaceClass⟩, ⟨8, d.bInterfaceSubClass⟩, ⟨8, d.bInterfaceProtocol⟩,
    ⟨8, d.iInterface⟩]

structure LibusbEndpointDescriptor where
  bLength : U8
  bDescriptorType : U8
  bEndpointAddress : U8
  bmAttributes : U8
  wMaxPacketSize : U16
  bInterval : U8
  bRefresh : U8
  bSynchAddress : U8
  deriving DecidableEq, Repr

namespace LibusbEndpointDescriptor

variable (d : LibusbEndpointDescriptor)

def isAudio : Bool := d.bLength = 0x09#8

def members : List Member :=
  [⟨8, d.bLength⟩, ⟨8, d.bDescriptorType⟩, ⟨8, d.bEndpointAddress⟩, ⟨8, d.bmAttributes⟩,
    ⟨16, d.wMaxPacketSize⟩, ⟨8, d.bInterval⟩]

def audioMembers : List Member := d.members ++ [⟨8, d.bRefresh⟩, ⟨8, d.bSynchAddress⟩]

def pack : List U8 := packMembers (if d.isAudio then d.audioMembers else d.members)

end LibusbEndpointDescriptor

structure LibusbBosDescriptor where
  bLength : U8
  bDescriptorType : U8
  wTotalLength : U16
  bNumDeviceCaps : U8
  deriving DecidableEq, Repr

def LibusbBosDescriptor.members (d : LibusbBosDescriptor) : List Member :=
  [⟨8, d.bLength⟩, ⟨8, d.bDescriptorType⟩, ⟨16, d.wTotalLength⟩, ⟨8, d.bNumDeviceCaps⟩]

structure LibusbBosDevCapabilityDescriptor where
  bLength : U8
  bDescriptorType : U8
  bDevCapabilityType : U8
  deriving DecidableEq, Repr

def LibusbBosDevCapabilityDescriptor.members (d : LibusbBosDevCapabilityDescriptor) : List Member :=
  [⟨8, d.bLength⟩, ⟨8, d.bDescriptorType⟩, ⟨8, d.bDevCapabilityType⟩]

/-! ### The nodes -/

structure Endpoint where
  wrapped : LibusbEndpointDescriptor
  extra : List U8
  deriving DecidableEq, Repr

def Endpoint.pack (e : Endpoint) : List U8 := e.wrapped.pack ++ e.extra
def Endpoint.address (e : Endpoint) : U8 := e.wrapped.bEndpointAddress
def Endpoint.attributes (e : Endpoint) : U8 := e.wrapped.bmAttributes

structure Interface where
  wrapped : LibusbInterfaceDescriptor
  extra : List U8
  ep : List Endpoint
  deriving DecidableEq, Repr

def Interface.pack (i : Interface) : List U8 :=
  packMembers i.wrapped.members ++ i.extra ++ i.ep.flatMap Endpoint.pack

structure UsbInterface where
  altsetting : List Interface
  deriving DecidableEq, Repr

def UsbInterface.pack (i : UsbInterface) : List U8 := i.altsetting.flatMap Interface.pack

structure Config where
  wrapped : LibusbConfigDescriptor
  extra : List U8
  interface : List UsbInterface
  deriving DecidableEq, Repr

def Config.pack (c : Config) : List U8 :=
  packMembers c.wrapped.members ++ c.extra ++ c.interface.flatMap UsbInterface.pack

def Config.selfPoweredMask : U8 := 0b10000000#8
def Config.isSelfPowered (c : Config) : Bool := c.wrapped.bmAttributes &&& selfPoweredMask ≠ 0

structure BosDevCapabilityDescriptor where
  wrapped : LibusbBosDevCapabilityDescriptor
  devCapabilityData : List U8
  deriving DecidableEq, Repr

def BosDevCapabilityDescriptor.pack (d : BosDevCapabilityDescriptor) : List U8 :=
  packMembers d.wrapped.members ++ d.devCapabilityData

structure Bos where
  wrapped : LibusbBosDescriptor
  devCapability : List BosDevCapabilityDescriptor
  deriving DecidableEq, Repr

def Bos.pack (b : Bos) : List U8 :=
  packMembers b.wrapped.members ++ b.devCapability.flatMap BosDevCapabilityDescriptor.pack

/-- `string_descriptor_map`, in key order. -/
abbrev StringDescriptorMap := List (U16 × List (List U8))

structure Tree where
  deviceDescriptor : LibusbDeviceDescriptor
  deviceConfig : Config
  stringDescriptors : StringDescriptorMap
  bosDescriptor : Bos
  reportDescriptor : List U8
  deriving DecidableEq, Repr

theorem length_packMembers (members : List Member) :
    (packMembers members).length = (members.map fun m => m.1 / 8).sum := by
  induction members with
  | nil => rfl
  | cons m members ih =>
    have hc : packMembers (m :: members) = store .little m.2 ++ packMembers members := rfl
    rw [hc, List.length_append, length_store, ih, List.map_cons, List.sum_cons]

@[simp] theorem length_pack_device (d : LibusbDeviceDescriptor) : (packMembers d.members).length = 18 := by
  simp [length_packMembers, LibusbDeviceDescriptor.members]

@[simp] theorem length_pack_config (d : LibusbConfigDescriptor) : (packMembers d.members).length = 9 := by
  simp [length_packMembers, LibusbConfigDescriptor.members]

@[simp] theorem length_pack_bos (d : LibusbBosDescriptor) : (packMembers d.members).length = 5 := by
  simp [length_packMembers, LibusbBosDescriptor.members]

end Viu
