/-
# The USB/IP command

`viu::usbip` of `vhci.cppm` and the members of `command` in `vhci_impl.cpp`:
the 48-byte header, its views, and a command with the payload read after it.

A 32-bit word of the header is a `BitVec 32`; where the source has
`std::int32_t` it is read with `toInt`. The byte order `E` of the machine is a
parameter of whatever copies words to or from bytes.

The header's union has four members, all packed and all made of 32-bit words
at the same offsets; `cmd_submit` is the largest and covers it. It is the
field `cmdSubmit`, and the other members are read and assigned through its
leading words.
-/
import Viu.Lib.Bytes

namespace Viu

open Bytes

abbrev U8 := BitVec 8
abbrev U16 := BitVec 16
abbrev U32 := BitVec 32
abbrev I32 := BitVec 32
abbrev SizeT := BitVec 64

/-- What the code throws. -/
inductive Exn
  | eof
  | lengthError
  | outOfRange
  | runtimeError (what : String)
  deriving DecidableEq, Repr

/-- `viu::format::make_string` of a text and a number. -/
def makeString (text : String) (n : U32) : String := text ++ " " ++ toString n.toNat

def USBIP_CMD_SUBMIT : U32 := 0x0001#32
def USBIP_CMD_UNLINK : U32 := 0x0002#32
def USBIP_RET_SUBMIT : U32 := 0x0003#32
def USBIP_RET_UNLINK : U32 := 0x0004#32
def USBIP_DIR_OUT : U32 := 0x00#32
def USBIP_DIR_IN : U32 := 0x01#32

structure UsbipHeaderBasic where
  command : U32
  seqnum : U32
  devid : U32
  direction : U32
  ep : U32
  deriving DecidableEq, Repr, Inhabited

structure UsbipHeaderCmdSubmit where
  transferFlags : U32
  transferBufferLength : I32
  startFrame : I32
  numberOfPackets : I32
  interval : I32
  setup : Vector U8 8
  deriving DecidableEq, Repr, Inhabited

structure UsbipHeaderRetSubmit where
  status : I32
  actualLength : I32
  startFrame : I32
  numberOfPackets : I32
  errorCount : I32
  deriving DecidableEq, Repr

structure UsbipHeaderCmdUnlink where
  seqnum : U32
  deriving DecidableEq, Repr

structure UsbipHeaderRetUnlink where
  status : I32
  deriving DecidableEq, Repr

structure UsbipHeader where
  base : UsbipHeaderBasic
  cmdSubmit : UsbipHeaderCmdSubmit
  deriving DecidableEq, Repr, Inhabited

namespace UsbipHeader

/-- `usbip_header{}`: all bytes zero. -/
def zero : UsbipHeader :=
  ⟨⟨0, 0, 0, 0, 0⟩, ⟨0, 0, 0, 0, 0, Vector.replicate 8 0⟩⟩

def retSubmit (h : UsbipHeader) : UsbipHeaderRetSubmit :=
  ⟨h.cmdSubmit.transferFlags, h.cmdSubmit.transferBufferLength, h.cmdSubmit.startFrame,
    h.cmdSubmit.numberOfPackets, h.cmdSubmit.interval⟩

def setRetSubmit (h : UsbipHeader) (r : UsbipHeaderRetSubmit) : UsbipHeader :=
  { h with cmdSubmit := { h.cmdSubmit with
      transferFlags := r.status
      transferBufferLength := r.actualLength
      startFrame := r.startFrame
      numberOfPackets := r.numberOfPackets
      interval := r.errorCount } }

def cmdUnlink (h : UsbipHeader) : UsbipHeaderCmdUnlink := ⟨h.cmdSubmit.transferFlags⟩

def setCmdUnlink (h : UsbipHeader) (u : UsbipHeaderCmdUnlink) : UsbipHeader :=
  { h with cmdSubmit := { h.cmdSubmit with transferFlags := u.seqnum } }

def retUnlink (h : UsbipHeader) : UsbipHeaderRetUnlink := ⟨h.cmdSubmit.transferFlags⟩

def setRetUnlink (h : UsbipHeader) (u : UsbipHeaderRetUnlink) : UsbipHeader :=
  { h with cmdSubmit := { h.cmdSubmit with transferFlags := u.status } }

/-- The words of the header, in order. -/
def words (h : UsbipHeader) : List U32 :=
  [h.base.command, h.base.seqnum, h.base.devid, h.base.direction, h.base.ep,
    h.cmdSubmit.transferFlags, h.cmdSubmit.transferBufferLength, h.cmdSubmit.startFrame,
    h.cmdSubmit.numberOfPackets, h.cmdSubmit.interval]

@[simp] theorem length_words (h : UsbipHeader) : h.words.length = 10 := rfl

/-- The header's bytes in memory. -/
def bytes (E : Order) (h : UsbipHeader) : List U8 :=
  h.words.flatMap (store E) ++ h.cmdSubmit.setup.toList

/-- Word `i` of a header in memory. -/
def word (E : Order) (bs : List U8) (i : ℕ) : U32 := load E 32 ((bs.drop (4 * i)).take 4)

/-- The header whose bytes in memory are `bs`. -/
def ofBytes (E : Order) (bs : List U8) : UsbipHeader where
  base := ⟨word E bs 0, word E bs 1, word E bs 2, word E bs 3, word E bs 4⟩
  cmdSubmit := ⟨word E bs 5, word E bs 6, word E bs 7, word E bs 8, word E bs 9,
    Vector.ofFn fun i => bs.getD (40 + i) 0⟩

end UsbipHeader

structure LibusbControlSetup where
  bmRequestType : U8
  bRequest : U8
  wValue : U16
  wIndex : U16
  wLength : U16
  deriving DecidableEq, Repr, Inhabited

structure Command where
  header : UsbipHeader
  payload : List U8
  deriving DecidableEq, Repr, Inhabited

/-- `sizeof(usbip_iso_packet_descriptor)`. -/
def sizeofIsoDescriptor : ℕ := 16

namespace Command

/-- `usbip::command{}`. -/
def zero : Command := ⟨.zero, []⟩

variable (cmd : Command)

def request : U32 := cmd.header.base.command
def direction : U32 := cmd.header.base.direction
def ep : U32 := cmd.header.base.ep
def seqnum : U32 := cmd.header.base.seqnum
def devid : U32 := cmd.header.base.devid

def isIn : Bool := cmd.direction = USBIP_DIR_IN
def isOut : Bool := cmd.direction = USBIP_DIR_OUT
def isUnlink : Bool := cmd.request = USBIP_CMD_UNLINK
def isSubmit : Bool := cmd.request = USBIP_CMD_SUBMIT

def transferBufferSize : SizeT := cmd.header.cmdSubmit.transferBufferLength.signExtend 64
def isoPacketCount : I32 := cmd.header.cmdSubmit.numberOfPackets
def startFrame : I32 := cmd.header.cmdSubmit.startFrame
def unlinkSeqnum : U32 := cmd.header.cmdUnlink.seqnum

def isIso : Bool := cmd.isoPacketCount ≠ 0 ∧ cmd.isoPacketCount ≠ 0xffffffff#32

/-- An `int32` times a `size_t`. -/
def isoDescriptorSize : SizeT :=
  cmd.isoPacketCount.signExtend 64 * BitVec.ofNat 64 sizeofIsoDescriptor

/-- The `int` the reader thread reads after the header; the sums are made in
`size_t` and stored in an `int`. -/
def payloadSize : I32 :=
  if cmd.isUnlink then 0
  else
    let size : I32 := if cmd.isOut then cmd.transferBufferSize.setWidth 32 else 0
    if cmd.isIso then (size.signExtend 64 + cmd.isoDescriptorSize).setWidth 32 else size

def headerSize : ℕ := 48

def epAddress : U8 := (cmd.ep ||| if cmd.isIn then 0x80#32 else 0).setWidth 8

def replyHeader (E : Order) : UsbipHeaderBasic where
  command := toBig E (if cmd.isSubmit then USBIP_RET_SUBMIT else USBIP_RET_UNLINK)
  seqnum := toBig E cmd.seqnum
  devid := toBig E cmd.devid
  direction := toBig E cmd.direction
  ep := toBig E cmd.ep

/-- `load_little_u16` of setup byte `i`, then `endian::from_little`. -/
def setupU16 (E : Order) (i : ℕ) : U16 :=
  let setup := cmd.header.cmdSubmit.setup.toList
  fromLittle E (load .little 16 [setup.getD i 0, setup.getD (i + 1) 0])

def controlSetup (E : Order) : LibusbControlSetup where
  bmRequestType := cmd.header.cmdSubmit.setup[0]
  bRequest := cmd.header.cmdSubmit.setup[1]
  wValue := cmd.setupU16 E 2
  wIndex := cmd.setupU16 E 4
  wLength := cmd.setupU16 E 6

/-- `integral<std::uint8_t>::at<0>` of `wValue`. -/
def configIndex (E : Order) : U8 := (cmd.controlSetup E).wValue.setWidth 8

def recipient (E : Order) : U8 := (cmd.controlSetup E).bmRequestType &&& 0b00011111#8
def requestType (E : Order) : U8 := (cmd.controlSetup E).bmRequestType &&& 0b01100000#8

def makeRetSubmitHeader (E : Order) (len : ℕ) (status errorCount : I32) : UsbipHeaderRetSubmit where
  status := toBig E status
  actualLength := toBig E (BitVec.ofNat 32 len)
  startFrame := toBig E cmd.startFrame
  numberOfPackets := toBig E cmd.isoPacketCount
  errorCount := toBig E errorCount

def makeRetUnlinkHeader (E : Order) (status : I32) : UsbipHeaderRetUnlink := ⟨toBig E status⟩

/-- The header is copied from the buffer as it is and its words are swapped in
place; the command word, swapped first, says which member of the union the
rest is. -/
def fromBigEndian (E : Order) (buffer : List U8) : Except Exn Command :=
  let hdr := UsbipHeader.ofBytes E buffer
  let hdr := { hdr with base := {
    command := fromBig E hdr.base.command
    seqnum := fromBig E hdr.base.seqnum
    devid := fromBig E hdr.base.devid
    direction := fromBig E hdr.base.direction
    ep := fromBig E hdr.base.ep } }
  let cmd : Command := ⟨hdr, []⟩
  if cmd.request = USBIP_CMD_SUBMIT then
    let submit := { hdr.cmdSubmit with
      transferFlags := fromBig E hdr.cmdSubmit.transferFlags
      transferBufferLength := fromBig E hdr.cmdSubmit.transferBufferLength
      startFrame := fromBig E hdr.cmdSubmit.startFrame
      numberOfPackets := fromBig E hdr.cmdSubmit.numberOfPackets
      interval := fromBig E hdr.cmdSubmit.interval }
    .ok { cmd with header.cmdSubmit := submit }
  else if cmd.request = USBIP_CMD_UNLINK then
    .ok { cmd with header := hdr.setCmdUnlink ⟨fromBig E cmd.unlinkSeqnum⟩ }
  else .error (.runtimeError (makeString "Invalid usbip command:" cmd.request))

end Command

end Viu
