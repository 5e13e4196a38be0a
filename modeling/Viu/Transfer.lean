/-
# Transfers

`viu::usb::transfer` and `libusb_transfer`: the isochronous layout of a
completed transfer (`iso_data`, `iso_descriptors`), the request a command is
turned into (`info`) and the transfers `device::fill_bulk`,
`fill_interrupt` and `fill_iso` make of it.

`viu::_assert` logs and continues in a Release build, so an assertion leaves
no trace here; where the code after a failed one is undefined the definition
says so. Sizes and offsets, `int` in the source, are natural numbers.
-/
import Viu.Usbip

namespace Viu

open Bytes

inductive LibusbTransferStatus
  | completed
  | error
  | timedOut
  | cancelled
  | stall
  | noDevice
  | overflow
  deriving DecidableEq, Repr

inductive LibusbEndpointTransferType
  | control
  | isochronous
  | bulk
  | interrupt
  deriving DecidableEq, Repr

structure LibusbIsoPacketDescriptor where
  length : ℕ
  actualLength : ℕ
  status : LibusbTransferStatus
  deriving DecidableEq, Repr

structure LibusbTransfer where
  endpoint : U8
  type : LibusbEndpointTransferType
  status : LibusbTransferStatus
  length : ℕ
  actualLength : ℕ
  buffer : List U8
  isoPacketDesc : List LibusbIsoPacketDescriptor
  deriving DecidableEq, Repr

namespace LibusbTransfer

variable (transfer : LibusbTransfer)

def numIsoPackets : ℕ := transfer.isoPacketDesc.length
def isIso : Bool := transfer.numIsoPackets ≠ 0
def isoDescriptorSize : ℕ := transfer.numIsoPackets * sizeofIsoDescriptor

end LibusbTransfer

/-- `std::vector::resize`. -/
def resize (data : List U8) (n : ℕ) : List U8 := data.take n ++ List.replicate (n - data.length) 0

@[simp] theorem length_resize (data : List U8) (n : ℕ) : (resize data n).length = n := by
  rw [resize, List.length_append, List.length_take, List.length_replicate]
  omega

theorem resize_of_le {data : List U8} {n : ℕ} (h : n ≤ data.length) : resize data n = data.take n := by
  simp [resize, h]

theorem resize_length (data : List U8) : resize data data.length = data := by
  rw [resize_of_le le_rfl, List.take_length]

/-- The loop of `iso_data` over the packets from buffer offset `offset` on: a
packet that failed is skipped before the offset moves. -/
def isoDataFrom (inBuffer : List U8) : ℕ → List LibusbIsoPacketDescriptor → List U8
  | _, [] => []
  | offset, iso :: rest =>
    if iso.status ≠ .completed then isoDataFrom inBuffer offset rest
    else (inBuffer.drop offset).take iso.actualLength ++ isoDataFrom inBuffer (offset + iso.length) rest

def isoData (transfer : LibusbTransfer) : List U8 :=
  isoDataFrom (transfer.buffer.take transfer.length) 0 transfer.isoPacketDesc

structure UsbipIsoPacketDescriptor where
  offset : U32
  length : U32
  actualLength : U32
  status : U32
  deriving DecidableEq, Repr

/-- The descriptor in memory. -/
def UsbipIsoPacketDescriptor.bytes (E : Order) (d : UsbipIsoPacketDescriptor) : List U8 :=
  store E d.offset ++ store E d.length ++ store E d.actualLength ++ store E d.status

@[simp] theorem UsbipIsoPacketDescriptor.length_bytes (E : Order) (d : UsbipIsoPacketDescriptor) :
    (d.bytes E).length = sizeofIsoDescriptor := by
  simp [UsbipIsoPacketDescriptor.bytes, sizeofIsoDescriptor]

/-- `usb::descriptor::iso`. -/
structure IsoDescriptor where
  dataSize : ℕ
  descriptors : List UsbipIsoPacketDescriptor
  errorCount : ℕ
  deriving DecidableEq, Repr

/-- The value of EINVAL. -/
def EINVAL : ℤ := 22

/-- The transformation of `iso_descriptors`, packet by packet from offset
`offset` on. -/
def toUsbipIsoDesc (E : Order) : ℕ → List LibusbIsoPacketDescriptor → List UsbipIsoPacketDescriptor
  | _, [] => []
  | offset, iso :: rest =>
    { offset := toBig E (BitVec.ofNat 32 offset)
      length := toBig E (BitVec.ofNat 32 iso.length)
      actualLength := toBig E (BitVec.ofNat 32 iso.actualLength)
      status := if iso.status ≠ .completed then toBig E (BitVec.ofInt 32 (-EINVAL)) else 0 } ::
    toUsbipIsoDesc E (offset + iso.length) rest

@[simp] theorem length_toUsbipIsoDesc (E : Order) :
    ∀ (packets : List LibusbIsoPacketDescriptor) (offset : ℕ),
      (toUsbipIsoDesc E offset packets).length = packets.length
  | [], _ => rfl
  | iso :: rest, offset => by simp [toUsbipIsoDesc, length_toUsbipIsoDesc E rest]

/-- The sizes are summed over all packets, failed ones included. -/
def isoDescriptors (E : Order) (transfer : LibusbTransfer) : IsoDescriptor where
  dataSize := (transfer.isoPacketDesc.map (·.actualLength)).sum
  descriptors := toUsbipIsoDesc E 0 transfer.isoPacketDesc
  errorCount := (transfer.isoPacketDesc.filter (·.status ≠ .completed)).length

def IsoDescriptor.bytes (E : Order) (d : IsoDescriptor) : List U8 := d.descriptors.flatMap (·.bytes E)

theorem length_flatMap_bytes (E : Order) : ∀ ds : List UsbipIsoPacketDescriptor,
    (ds.flatMap (·.bytes E)).length = ds.length * sizeofIsoDescriptor
  | [] => by simp
  | d :: ds => by
    rw [List.flatMap_cons, List.length_append, length_flatMap_bytes E ds, List.length_cons,
      UsbipIsoPacketDescriptor.length_bytes]
    ring

@[simp] theorem length_isoDescriptors_bytes (E : Order) (transfer : LibusbTransfer) :
    ((isoDescriptors E transfer).bytes E).length = transfer.isoDescriptorSize := by
  rw [IsoDescriptor.bytes, length_flatMap_bytes]
  simp [isoDescriptors, LibusbTransfer.isoDescriptorSize, LibusbTransfer.numIsoPackets]

/-! ### A command's transfer -/

structure Iso where
  packetCount : I32
  descriptors : List U8
  deriving DecidableEq, Repr

/-- The callbacks of `proxy::prepare_transfer`; the OUT ones capture the command. -/
inductive Callback
  | inIso
  | outIso (cmd : Command)
  | inn
  | out (cmd : Command)
  deriving DecidableEq, Repr

/-- `usb::transfer::info`. -/
structure Info where
  epAddress : U8
  buffer : List U8
  callback : Callback
  iso : Option Iso
  deriving DecidableEq, Repr

/-- The transfer as `libusb_alloc_transfer` and `libusb_fill_*_transfer` leave it. -/
def fillTransfer (info : Info) (type : LibusbEndpointTransferType)
    (packets : List LibusbIsoPacketDescriptor) : LibusbTransfer where
  endpoint := info.epAddress
  type := type
  status := .completed
  length := info.buffer.length
  actualLength := 0
  buffer := info.buffer
  isoPacketDesc := packets

def fillBulk (info : Info) : LibusbTransfer := fillTransfer info .bulk []

def fillInterrupt (info : Info) : LibusbTransfer := fillTransfer info .interrupt []

/-- One packet when the command named none. `libusb_alloc_transfer` returns no
transfer for a negative count and the code goes on with a null pointer:
`none`. -/
def fillIso (info : Info) : Option LibusbTransfer :=
  let isoPacketCount := (info.iso.getD ⟨1, []⟩).packetCount
  if isoPacketCount.toInt < 0 then none
  else
    let packetSize := info.buffer.length / isoPacketCount.toNat
    some (fillTransfer info .isochronous (List.replicate isoPacketCount.toNat ⟨packetSize, 0, .completed⟩))

/-- What the device may report for a submitted transfer: any status, any
packet statuses, data in the transfer's own buffer, no more than was asked
for. -/
structure Completes (submitted done : LibusbTransfer) : Prop where
  endpoint : done.endpoint = submitted.endpoint
  type : done.type = submitted.type
  length : done.length = submitted.length
  buffer : done.buffer.length = submitted.buffer.length
  actualLength : done.actualLength ≤ submitted.length
  packets : done.isoPacketDesc.map (·.length) = submitted.isoPacketDesc.map (·.length)
  packetLengths : ∀ iso ∈ done.isoPacketDesc, iso.actualLength ≤ iso.length

instance (submitted done : LibusbTransfer) : Decidable (Completes submitted done) :=
  decidable_of_iff (done.endpoint = submitted.endpoint ∧ done.type = submitted.type ∧
      done.length = submitted.length ∧ done.buffer.length = submitted.buffer.length ∧
      done.actualLength ≤ submitted.length ∧
      done.isoPacketDesc.map (·.length) = submitted.isoPacketDesc.map (·.length) ∧
      ∀ iso ∈ done.isoPacketDesc, iso.actualLength ≤ iso.length)
    ⟨fun ⟨a, b, c, d, e, f, g⟩ => ⟨a, b, c, d, e, f, g⟩, fun ⟨a, b, c, d, e, f, g⟩ => ⟨a, b, c, d, e, f, g⟩⟩

theorem Completes.numIsoPackets {x y : LibusbTransfer} (h : Completes x y) :
    y.numIsoPackets = x.numIsoPackets := by
  have := congrArg List.length h.packets
  simpa [LibusbTransfer.numIsoPackets] using this

/-- The packets of a transfer bring no more bytes than they may. -/
theorem sum_actualLength_le : ∀ packets : List LibusbIsoPacketDescriptor,
    (∀ iso ∈ packets, iso.actualLength ≤ iso.length) →
    (packets.map (·.actualLength)).sum ≤ (packets.map (·.length)).sum
  | [], _ => le_rfl
  | iso :: rest, h => by
    have h1 := h iso List.mem_cons_self
    have h2 := sum_actualLength_le rest fun i hi => h i (List.mem_cons_of_mem _ hi)
    simp only [List.map_cons, List.sum_cons]
    omega

end Viu
