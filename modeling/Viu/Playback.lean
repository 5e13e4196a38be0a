/-
# The playback device

The plugin of `examples/playback/playback_device.cpp`: it loads what the
recording proxy wrote, and replays it to a mock device. A line of the index in
which the pattern of a record is not found is passed over, and so is a record
whose bytes are not there.

Loading gives what was recorded, with crashes as well (`recording_loads`); what
is replayed for a control setup is the whole buffer of the last time the device
was asked (`replay_iff` says when that is the device's answer).
-/
import Viu.Recording
import Viu.Lib.Journal

namespace Viu

open Bytes

/-- The status of a value; one that is no enumerator is taken for an error. -/
def LibusbTransferStatus.ofCode (code : U32) : LibusbTransferStatus :=
  match code.toNat with
  | 0 => .completed
  | 2 => .timedOut
  | 3 => .cancelled
  | 4 => .stall
  | 5 => .noDevice
  | 6 => .overflow
  | _ => .error

theorem LibusbTransferStatus.ofCode_code (status : LibusbTransferStatus) : ofCode status.code = status := by
  cases status <;> rfl

/-- A descriptor read from memory. -/
def LibusbIsoPacketDescriptor.ofBytes (E : Order) (bs : List U8) : LibusbIsoPacketDescriptor where
  length := (load E 32 (bs.take 4)).toNat
  actualLength := (load E 32 ((bs.drop 4).take 4)).toNat
  status := .ofCode (load E 32 ((bs.drop 8).take 4))

/-- `unsigned int` holds the lengths. -/
def LibusbIsoPacketDescriptor.Stored (iso : LibusbIsoPacketDescriptor) : Prop :=
  iso.length < 2 ^ 32 ∧ iso.actualLength < 2 ^ 32

/-- A piece inside a list. -/
theorem take_drop_append {α : Type*} {a b : List α} {m k : ℕ} (ha : a.length = m) (hb : b.length = k) (c : List α) :
    ((a ++ (b ++ c)).drop m).take k = b := by
  rw [List.drop_left' ha, List.take_left' hb]

theorem LibusbIsoPacketDescriptor.ofBytes_bytes (E : Order) {iso : LibusbIsoPacketDescriptor} (h : iso.Stored)
    (more : List U8) : ofBytes E (iso.bytes E ++ more) = iso := by
  obtain ⟨length, actualLength, status⟩ := iso
  have hlen : ∀ x : U32, (store E x).length = 4 := fun x => length_store E x
  have hload : ∀ x : U32, load E 32 (store E x) = x := fun x => load_store rfl E x
  have h1 : (store E (BitVec.ofNat 32 length) ++
      (store E (BitVec.ofNat 32 actualLength) ++ (store E status.code ++ more))).take 4 =
      store E (BitVec.ofNat 32 length) := List.take_left' (hlen _)
  have h2 := take_drop_append (hlen (BitVec.ofNat 32 length)) (hlen (BitVec.ofNat 32 actualLength))
    (store E status.code ++ more)
  have h3 := take_drop_append (a := store E (BitVec.ofNat 32 length) ++ store E (BitVec.ofNat 32 actualLength))
    (by rw [List.length_append, hlen, hlen]) (hlen status.code) more
  simp only [bytes, ofBytes, List.append_assoc] at h1 h2 h3 ⊢
  rw [h1, h2, h3, hload, hload, hload, LibusbTransferStatus.ofCode_code, BitVec.toNat_ofNat, BitVec.toNat_ofNat,
    Nat.mod_eq_of_lt h.1, Nat.mod_eq_of_lt h.2]

namespace Playback

open Text Jsonl Regex Recording

/-! ### Lines -/

/-- The lines that `getline` gives and that are not empty. -/
def lines (text : List Char) : List (List Char) := (text.splitOn '\n').filter (· ≠ [])

/-- `std::stoull` and `std::stoul` of a text of digits; `none` when it throws. -/
def stoull (base : ℕ) (digits : List Char) : Option U64 :=
  if ofDigits base digits < 2 ^ 64 then some (BitVec.ofNat 64 (ofDigits base digits)) else none

/-- A number, or `"NA"`. -/
def number : Regex Char := .group (.alt decimal (.lit (quoted "NA")))

def transferPattern : List (String × Regex Char) :=
  [("timestamp_ms", .group decimal),
    ("endpoint", .seq (.lit ['"', '0', 'x']) (.seq (.group hexadecimal) (.lit ['"']))),
    ("size", .group decimal),
    ("data", .group decimal),
    ("iso_packet_descriptor_count", number),
    ("iso_packet_descriptor_offset", number)]

def controlSetupPattern : List (String × Regex Char) :=
  [("setup", .group decimal), ("data_size", .group decimal), ("data", .group decimal)]

structure TransferRecord where
  endpoint : U8
  size : U32
  dataOffset : U64
  isoOffset : U64
  data : List U8
  isoDescriptors : List LibusbIsoPacketDescriptor
  timestampMs : U64
  isoPacketDescriptorCount : U64
  deriving DecidableEq, Repr

structure ControlSetupRecord where
  setup : U64
  dataSize : U32
  dataOffset : U64
  data : List U8
  deriving DecidableEq, Repr

/-- `transfer_playback_engine::parse_jsonl_record`. -/
def parseTransfer (line : List Char) : Option TransferRecord :=
  match search (object transferPattern) line with
  | some [timestamp, endpoint, size, data, isoCount, isoOffset] => do
    let timestampMs ← stoull 10 timestamp
    let endpoint ← stoull 16 endpoint
    let size ← stoull 10 size
    let dataOffset ← stoull 10 data
    let record : TransferRecord :=
      ⟨endpoint.setWidth 8, size.setWidth 32, dataOffset, 0, [], [], timestampMs, 0⟩
    if isoCount = quoted "NA" then pure record
    else do
      let count ← stoull 10 isoCount
      let offset ← if isoOffset = quoted "NA" then pure 0 else stoull 10 isoOffset
      pure { record with isoPacketDescriptorCount := count, isoOffset := offset }
  | _ => none

/-- `control_setup_playback_engine::parse_jsonl_record`. -/
def parseControlSetup (line : List Char) : Option ControlSetupRecord :=
  match search (object controlSetupPattern) line with
  | some [setup, dataSize, data] => do
    let setup ← stoull 10 setup
    let dataSize ← stoull 10 dataSize
    let dataOffset ← stoull 10 data
    pure ⟨setup, dataSize.setWidth 32, dataOffset, []⟩
  | _ => none

/-! ### Bytes -/

/-- `seekg` and `read`: nothing if the offset is no `streamoff` or too few bytes
are there. -/
def readAt (payload : List U8) (offset : U64) (size : ℕ) : List U8 :=
  if 2 ^ 63 ≤ offset.toNat then []
  else
    let bytes := (payload.drop offset.toNat).take size
    if bytes.length = size then bytes else []

/-- `read_payload` of both engines. -/
def readPayload (payload : List U8) (offset : U64) (size : U32) : List U8 :=
  if size = 0 then [] else readAt payload offset size.toNat

/-- The descriptors in memory, `count` of them if there are bytes for as many. -/
def isoDescriptorsOf (E : Order) : ℕ → List U8 → List LibusbIsoPacketDescriptor
  | 0, _ => []
  | n + 1, bs => if bs = [] then [] else .ofBytes E bs :: isoDescriptorsOf E n (bs.drop sizeofIsoPacketDescriptor)

def readIsoDescriptors (E : Order) (payload : List U8) (offset : U64) (count : U64) : List LibusbIsoPacketDescriptor :=
  isoDescriptorsOf E count.toNat (readAt payload offset (count.toNat * sizeofIsoPacketDescriptor))

/-- The loop of `load_transfers` over a line. -/
def readTransfer (E : Order) (payload : List U8) (line : List Char) : Option TransferRecord :=
  (parseTransfer line).bind fun record =>
    let data := readPayload payload record.dataOffset record.size
    if data.length ≠ record.size.toNat then none
    else
      let isoDescriptors :=
        if record.isoPacketDescriptorCount ≠ 0 then
          readIsoDescriptors E payload record.isoOffset record.isoPacketDescriptorCount
        else []
      some { record with data := data, isoDescriptors := isoDescriptors }

/-- The loop of `load_control_setups` over a line. -/
def readControlSetup (payload : List U8) (line : List Char) : Option ControlSetupRecord :=
  (parseControlSetup line).bind fun record =>
    let data := readPayload payload record.dataOffset record.dataSize
    if data.length ≠ record.dataSize.toNat then none else some { record with data := data }

/-- `load_transfers`; a file that is not there is `none`. -/
def loadTransfers (E : Order) (file : Option (List Char)) (payload : Option (List U8)) : List TransferRecord :=
  match file, payload with
  | some text, some payload => (lines text).filterMap (readTransfer E payload)
  | _, _ => []

/-- `load_control_setups`: the records that are put into the map, one after the
other. -/
def loadControlSetups (file : Option (List Char)) (payload : Option (List U8)) : List ControlSetupRecord :=
  match file, payload with
  | some text, some payload => (lines text).filterMap (readControlSetup payload)
  | _, _ => []

/-- `get_control_setup`: what was put into the map last. -/
def getControlSetup (setups : List ControlSetupRecord) (setup : U64) : Option ControlSetupRecord :=
  setups.reverse.find? (·.setup = setup)

theorem size_of_readControlSetup {payload : List U8} {line : List Char} {record : ControlSetupRecord}
    (h : readControlSetup payload line = some record) : record.data.length = record.dataSize.toNat := by
  obtain ⟨parsed, -, h⟩ := Option.bind_eq_some_iff.mp h
  obtain ⟨hsize, h⟩ := Option.ite_none_left_eq_some.mp h
  obtain rfl := Option.some.inj h
  exact not_not.mp hsize

/-- `control_setup_playback_engine`. -/
structure ControlSetupEngine where
  setups : List ControlSetupRecord
  size_eq : ∀ record ∈ setups, record.data.length = record.dataSize.toNat

def ControlSetupEngine.load (file : Option (List Char)) (payload : Option (List U8)) : ControlSetupEngine where
  setups := loadControlSetups file payload
  size_eq := by
    intro record hrecord
    unfold loadControlSetups at hrecord
    split at hrecord
    · obtain ⟨line, -, hline⟩ := List.mem_filterMap.mp hrecord
      exact size_of_readControlSetup hline
    · cases hrecord

/-- `playback_device::on_control_setup`: its result and the buffer it leaves. -/
def onControlSetup (E : Order) (engine : ControlSetupEngine) (setup : LibusbControlSetup) (data : List U8)
    (result : I32) : I32 × List U8 :=
  if ¬setup.isIn then (BitVec.ofNat 32 data.length, data)
  else
    match getControlSetup engine.setups (setup.bitCast E) with
    | some recorded =>
      if data.length > 0 then
        let copySize := min data.length recorded.dataSize.toNat
        (BitVec.ofNat 32 copySize, recorded.data.take copySize ++ data.drop copySize)
      else (result, data)
    | none => (result, data)

theorem mem_of_getControlSetup {setups : List ControlSetupRecord} {setup : U64} {record : ControlSetupRecord}
    (h : getControlSetup setups setup = some record) : record ∈ setups :=
  List.mem_reverse.mp (List.mem_of_find?_eq_some h)

theorem length_onControlSetup (E : Order) (engine : ControlSetupEngine) (setup : LibusbControlSetup) (data : List U8)
    (result : I32) : (onControlSetup E engine setup data result).2.length = data.length := by
  unfold onControlSetup
  split
  · rfl
  split
  · rename_i recorded hrecorded
    have hsize := engine.size_eq recorded (mem_of_getControlSetup hrecorded)
    split
    · simp only [List.length_append, List.length_take, List.length_drop, hsize]
      omega
    · rfl
  · rfl

/-- The class, but for the transfers it holds. -/
def playbackDevice (E : Order) (engine : ControlSetupEngine) : UsbMock where
  onTransferRequest := some id
  onTransferComplete := none
  onControlSetup := some {
    call := fun setup data result => ((onControlSetup E engine setup data result).map some id)
    length_eq := fun setup data result => length_onControlSetup E engine setup data result }
  onSetConfiguration := some fun _ => some LIBUSB_SUCCESS
  onSetInterface := some fun _ _ => some LIBUSB_SUCCESS

/-- `transfer_playback_engine`. -/
structure TransferEngine where
  records : List TransferRecord
  currentIndex : ℕ
  deriving DecidableEq, Repr

namespace TransferEngine

variable (engine : TransferEngine)

def load (E : Order) (file : Option (List Char)) (payload : Option (List U8)) : TransferEngine :=
  ⟨loadTransfers E file payload, 0⟩

def nextIndex : ℕ := (engine.currentIndex + 1) % engine.records.length

/-- The record, and the engine with its index back in range. -/
def getNextRecord : Option TransferRecord × TransferEngine :=
  if engine.records = [] then (none, engine)
  else
    let engine := if engine.currentIndex ≥ engine.records.length then { engine with currentIndex := 0 } else engine
    (engine.records[engine.currentIndex]?, engine)

def advance : TransferEngine :=
  if engine.records ≠ [] then { engine with currentIndex := engine.nextIndex } else engine

/-- In milliseconds. -/
def getIntervalMs : ℕ :=
  if engine.records.length < 2 ∨ engine.currentIndex ≥ engine.records.length then 100
  else
    match engine.records[engine.currentIndex]?, engine.records[engine.nextIndex]? with
    | some current, some next =>
      if next.timestampMs.toNat < current.timestampMs.toNat then 100
      else next.timestampMs.toNat - current.timestampMs.toNat
    | _, _ => 100

end TransferEngine

/-! ### What is written is read -/

theorem stoull_toDigits {base n : ℕ} (hb : 1 < base) (h16 : base ≤ 16) (hn : n < 2 ^ 64) :
    stoull base (Nat.toDigits base n) = some (BitVec.ofNat 64 n) := by
  have hvalue : ofDigits base (Nat.toDigits base n) = n :=
    Digits.value_toDigits hb (fun d hd => digitValue_digitChar (by omega)) n
  rw [stoull, hvalue, if_pos hn]

theorem readAt_append {payload bytes : List U8} {offset : U64} {size : ℕ} (before after : List U8)
    (hpayload : payload = before ++ (bytes ++ after)) (hoffset : offset = BitVec.ofNat 64 before.length)
    (hsize : bytes.length = size) (hlimit : payload.length < 2 ^ 63) : readAt payload offset size = bytes := by
  have hlen := congrArg List.length hpayload
  rw [List.length_append] at hlen
  have hnat : offset.toNat = before.length := by
    rw [hoffset, BitVec.toNat_ofNat, Nat.mod_eq_of_lt (by omega)]
  have hpiece := take_drop_append (b := bytes) hnat.symm hsize after
  rw [readAt, if_neg (by omega), hpayload, hpiece]
  exact if_pos hsize

theorem readPayload_append {payload bytes : List U8} {offset : U64} {size : U32} (before after : List U8)
    (hpayload : payload = before ++ (bytes ++ after)) (hoffset : offset = BitVec.ofNat 64 before.length)
    (hsize : bytes.length = size.toNat) (hlimit : payload.length < 2 ^ 63) :
    readPayload payload offset size = bytes := by
  unfold readPayload
  split
  · rename_i h0
    rw [h0] at hsize
    exact (List.length_eq_zero_iff.mp hsize).symm
  · exact readAt_append before after hpayload hoffset hsize hlimit

theorem isoDescriptorsOf_bytes (E : Order) : ∀ isos : List LibusbIsoPacketDescriptor, (∀ iso ∈ isos, iso.Stored) →
    isoDescriptorsOf E isos.length (isos.flatMap (·.bytes E)) = isos
  | [], _ => rfl
  | iso :: isos, h => by
    have hrest := isoDescriptorsOf_bytes E isos fun i hi => h i (List.mem_cons_of_mem iso hi)
    have hfirst := LibusbIsoPacketDescriptor.ofBytes_bytes E (h iso List.mem_cons_self) (isos.flatMap (·.bytes E))
    have hne : iso.bytes E ++ isos.flatMap (·.bytes E) ≠ [] := fun h0 => by
      have := congrArg List.length h0
      simp [sizeofIsoPacketDescriptor] at this
    rw [List.flatMap_cons, List.length_cons, isoDescriptorsOf, if_neg hne, hfirst,
      List.drop_left' (LibusbIsoPacketDescriptor.length_bytes E iso), hrest]

theorem length_flatMap_isoBytes (E : Order) : ∀ isos : List LibusbIsoPacketDescriptor,
    (isos.flatMap (·.bytes E)).length = isos.length * sizeofIsoPacketDescriptor
  | [] => (Nat.zero_mul _).symm
  | iso :: isos => by
    rw [List.flatMap_cons, List.length_append, length_flatMap_isoBytes E isos, List.length_cons,
      LibusbIsoPacketDescriptor.length_bytes]
    ring

/-! ### A transfer's line -/

theorem reads_hexadecimal (name : String) (n : ℕ) : (Jsonl.Member.mk name
    (.seq (.lit ['"', '0', 'x']) (.seq (.group hexadecimal) (.lit ['"'])))
    ('"' :: '0' :: 'x' :: Vhci.pad 2 (Nat.toDigits 16 n) ++ ['"']) [Vhci.pad 2 (Nat.toDigits 16 n)]).Reads where
  head := by rintro c ⟨⟩; rfl
  ne_nil := List.cons_ne_nil _ _
  first := fun rest _ => by
    have hhex : ∀ c ∈ Vhci.pad 2 (Nat.toDigits 16 n), isHex c = true := fun c hc =>
      decide_eq_true (Vhci.hex_of_mem_pad (by omega) le_rfl c hc)
    have hne : Vhci.pad 2 (Nat.toDigits 16 n) ≠ [] := Vhci.pad_ne_nil Nat.toDigits_ne_nil
    have hdigits : First hexadecimal (Vhci.pad 2 (Nat.toDigits 16 n) ++ '"' :: rest) [] ('"' :: rest) :=
      First.plus hne hhex (by rintro c ⟨⟩; rfl)
    have h := (First.lit ['"', '0', 'x'] _).seq (hdigits.group.seq (First.lit ['"'] rest))
    simpa using h

theorem reads_number (name : String) (n : ℕ) :
    (Jsonl.Member.mk name number (Nat.toDigits 10 n) [Nat.toDigits 10 n]).Reads where
  head := (reads_decimal name n).head
  ne_nil := Nat.toDigits_ne_nil
  first := fun rest hrest => by
    refine First.group (First.altLeft (First.plus Nat.toDigits_ne_nil isDigit_toDigits fun c hc => ?_))
    rcases hrest c hc with rfl | rfl <;> rfl

theorem reads_na (name : String) : (Jsonl.Member.mk name number (quoted "NA") [quoted "NA"]).Reads where
  head := by rintro c ⟨⟩; rfl
  ne_nil := List.cons_ne_nil _ _
  first := fun rest _ => First.group (First.altRight (ways_plus_nil (by rintro c ⟨⟩; rfl)) (First.lit _ rest))

/-- The members of a transfer's line, with what the pattern finds. -/
def transferMembers (record : Recording.TransferRecord) (payloadOffset isoOffset : ℕ) : List Jsonl.Member :=
  let number (name : String) (n : ℕ) : Jsonl.Member := ⟨name, .group decimal, Nat.toDigits 10 n, [Nat.toDigits 10 n]⟩
  let optional (name : String) (n : ℕ) : Jsonl.Member :=
    if record.isoDescriptors ≠ [] then ⟨name, Playback.number, Nat.toDigits 10 n, [Nat.toDigits 10 n]⟩
    else ⟨name, Playback.number, quoted "NA", [quoted "NA"]⟩
  [number "timestamp_ms" record.timestampMs.natAbs,
    ⟨"endpoint", .seq (.lit ['"', '0', 'x']) (.seq (.group hexadecimal) (.lit ['"'])),
      '"' :: '0' :: 'x' :: Vhci.pad 2 (Nat.toDigits 16 record.endpoint.toNat) ++ ['"'],
      [Vhci.pad 2 (Nat.toDigits 16 record.endpoint.toNat)]⟩,
    number "size" record.size.toNat,
    number "data" payloadOffset,
    optional "iso_packet_descriptor_count" record.isoDescriptors.length,
    optional "iso_packet_descriptor_offset" isoOffset]

variable {E : Order} {record : Recording.TransferRecord} {payloadOffset isoOffset : ℕ}

theorem map_pattern_transferMembers :
    (transferMembers record payloadOffset isoOffset).map (fun m => (m.name, m.pattern)) = transferPattern := by
  unfold transferMembers
  split_ifs <;> rfl

theorem map_text_transferMembers (h : 0 ≤ record.timestampMs) :
    (transferMembers record payloadOffset isoOffset).map (fun m => (m.name, m.text)) =
      record.members payloadOffset isoOffset := by
  have hprint : printInt record.timestampMs = Nat.toDigits 10 record.timestampMs.natAbs :=
    if_neg (not_lt.mpr h)
  unfold transferMembers Recording.TransferRecord.members
  rw [hprint]
  split_ifs <;> rfl

theorem reads_transferMembers : ∀ m ∈ transferMembers record payloadOffset isoOffset, m.Reads := by
  have hoptional : ∀ (name : String) (n : ℕ), (if record.isoDescriptors ≠ [] then
      (⟨name, Playback.number, Nat.toDigits 10 n, [Nat.toDigits 10 n]⟩ : Jsonl.Member)
      else ⟨name, Playback.number, quoted "NA", [quoted "NA"]⟩).Reads := by
    intro name n
    by_cases hiso : record.isoDescriptors ≠ []
    · rw [if_pos hiso]
      exact reads_number name n
    · rw [if_neg hiso]
      exact reads_na name
  simp only [transferMembers, List.forall_mem_cons]
  exact ⟨reads_decimal _ _, reads_hexadecimal _ _, reads_decimal _ _, reads_decimal _ _, hoptional _ _, hoptional _ _,
    List.forall_mem_nil _⟩

theorem groups_transferMembers : (transferMembers record payloadOffset isoOffset).flatMap Jsonl.Member.groups =
    [Nat.toDigits 10 record.timestampMs.natAbs, Vhci.pad 2 (Nat.toDigits 16 record.endpoint.toNat),
      Nat.toDigits 10 record.size.toNat, Nat.toDigits 10 payloadOffset,
      if record.isoDescriptors ≠ [] then Nat.toDigits 10 record.isoDescriptors.length else quoted "NA",
      if record.isoDescriptors ≠ [] then Nat.toDigits 10 isoOffset else quoted "NA"] := by
  unfold transferMembers
  split_ifs <;> rfl

theorem braceless_transferPattern : ∀ f ∈ transferPattern, Braceless f := by
  have hdigit : ('\x7b' : Char).isDigit = false := rfl
  have hhex : isHex '\x7b' = false := rfl
  simp [transferPattern, Braceless, Uses, decimal, hexadecimal, number, quoted, hdigit, hhex]

/-- A record that can be replayed: its size is that of its data, and the clock is
not before its epoch. -/
structure Recordable (record : Recording.TransferRecord) : Prop where
  size_eq : record.data.length = record.size.toNat
  stored : ∀ iso ∈ record.isoDescriptors, iso.Stored
  timestamp : 0 ≤ record.timestampMs

theorem quoted_ne_toDigits (n : ℕ) : Nat.toDigits 10 n ≠ quoted "NA" := by
  intro h
  have hdigit : '"'.isDigit = true := isDigit_toDigits '"' (n := n) (by rw [h]; exact List.mem_cons_self)
  exact absurd hdigit (by decide)

theorem timestampMs_lt (h : 0 ≤ record.timestampMs) : record.timestampMs.natAbs < 2 ^ 64 := by
  have hlt : record.timestamp.toInt < 2 ^ 63 := BitVec.toInt_lt
  have hge : -2 ^ 63 ≤ record.timestamp.toInt := BitVec.le_toInt _
  unfold Recording.TransferRecord.timestampMs at h ⊢
  have hle : (record.timestamp.toInt.tdiv 1000000).natAbs ≤ record.timestamp.toInt.natAbs := by
    rw [Int.natAbs_tdiv]
    exact Nat.div_le_self _ _
  omega

/-- The line that the recorder writes is parsed, behind a piece of one and whatever
follows it. -/
theorem parseTransfer_behind {piece : List Char} (payloadOffset isoOffset : ℕ) (more : List Char)
    (hrecord : Recordable record)
    (hpiece : '\x7d' ∉ piece) (hpayload : payloadOffset < 2 ^ 64) (hiso : isoOffset < 2 ^ 64)
    (hcount : record.isoDescriptors.length < 2 ^ 64) :
    parseTransfer (piece ++ '\x7b' :: (Jsonl.members (record.members payloadOffset isoOffset) ++ '\x7d' :: more)) =
      some { endpoint := record.endpoint, size := record.size, dataOffset := BitVec.ofNat 64 payloadOffset,
             isoOffset := if record.isoDescriptors ≠ [] then BitVec.ofNat 64 isoOffset else 0,
             data := [], isoDescriptors := [], timestampMs := BitVec.ofNat 64 record.timestampMs.natAbs,
             isoPacketDescriptorCount := BitVec.ofNat 64 record.isoDescriptors.length } := by
  have hbraces : ∀ m ∈ transferMembers record payloadOffset isoOffset, Braceless (m.name, m.pattern) := fun m hm => by
    have hmem := List.mem_map_of_mem (f := fun m : Jsonl.Member => (m.name, m.pattern)) hm
    rw [map_pattern_transferMembers] at hmem
    exact braceless_transferPattern _ hmem
  have hreads : ∀ m ∈ transferMembers record payloadOffset isoOffset, m.Reads := reads_transferMembers
  have hsearch := search_behind more (by simp [transferMembers]) hreads hbraces hpiece
  rw [map_pattern_transferMembers, map_text_transferMembers hrecord.timestamp] at hsearch
  have hendpoint : stoull 16 (Vhci.pad 2 (Nat.toDigits 16 record.endpoint.toNat)) =
      some (BitVec.ofNat 64 record.endpoint.toNat) := by
    have hlt := record.endpoint.isLt
    rw [stoull, Vhci.ofDigits_pad]
    exact stoull_toDigits (by omega) le_rfl (by omega)
  have hnumber : ∀ n : ℕ, n < 2 ^ 64 → stoull 10 (Nat.toDigits 10 n) = some (BitVec.ofNat 64 n) :=
    fun n hn => stoull_toDigits (by omega) (by omega) hn
  have hsize := hnumber record.size.toNat (by have := record.size.isLt; omega)
  have htimestamp := hnumber _ (timestampMs_lt hrecord.timestamp)
  rw [groups_transferMembers] at hsearch
  unfold parseTransfer
  rw [hsearch]
  simp only [htimestamp, hendpoint, hsize, hnumber _ hpayload, Option.bind_eq_bind, Option.bind_some,
    Option.pure_def]
  by_cases hnone : record.isoDescriptors = []
  · simp [hnone]
  · simp [hnone, quoted_ne_toDigits, hnumber _ hcount, hnumber _ hiso]

/-- A record without where its bytes are. -/
structure Replayed where
  endpoint : U8
  data : List U8
  isoDescriptors : List LibusbIsoPacketDescriptor
  timestampMs : ℕ
  deriving DecidableEq, Repr

def TransferRecord.replayed (record : TransferRecord) : Replayed :=
  ⟨record.endpoint, record.data, record.isoDescriptors, record.timestampMs.toNat⟩

/-- What is to be replayed of a record. -/
def toReplay (record : Recording.TransferRecord) : Replayed :=
  ⟨record.endpoint, record.data, record.isoDescriptors, record.timestampMs.natAbs⟩

/-- The bytes of a record in the payload file. -/
def transferBytes (E : Order) (record : Recording.TransferRecord) : List U8 :=
  record.data ++ record.isoDescriptors.flatMap (·.bytes E)

theorem readTransfer_behind {piece : List Char} {before after : List U8} (more : List Char)
    (hrecord : Recordable record)
    (hpiece : '\x7d' ∉ piece) (hlimit : (before ++ transferBytes E record ++ after).length < 2 ^ 63) :
    (readTransfer E (before ++ transferBytes E record ++ after)
      (piece ++ '\x7b' :: (Jsonl.members (record.members before.length (before.length + record.data.length)) ++
        '\x7d' :: more))).map TransferRecord.replayed = some (toReplay record) := by
  have hisoLength := length_flatMap_isoBytes E record.isoDescriptors
  have hall : (before ++ transferBytes E record ++ after).length = before.length + record.data.length +
      record.isoDescriptors.length * 12 + after.length := by
    rw [List.length_append, List.length_append, transferBytes, List.length_append, hisoLength,
      sizeofIsoPacketDescriptor]
    omega
  have hparse := parseTransfer_behind before.length (before.length + record.data.length) more hrecord hpiece (by omega)
    (by omega) (by omega)
  have hdata : readPayload (before ++ transferBytes E record ++ after) (BitVec.ofNat 64 before.length) record.size =
      record.data := by
    refine readPayload_append before (record.isoDescriptors.flatMap (·.bytes E) ++ after) ?_ rfl hrecord.size_eq hlimit
    simp [transferBytes]
  have hcount : (BitVec.ofNat 64 record.isoDescriptors.length).toNat = record.isoDescriptors.length := by
    rw [BitVec.toNat_ofNat, Nat.mod_eq_of_lt (by omega)]
  have hiso : readIsoDescriptors E (before ++ transferBytes E record ++ after)
      (BitVec.ofNat 64 (before.length + record.data.length)) (BitVec.ofNat 64 record.isoDescriptors.length) =
        record.isoDescriptors := by
    have hread : readAt (before ++ transferBytes E record ++ after) (BitVec.ofNat 64 (before ++ record.data).length)
        (record.isoDescriptors.length * sizeofIsoPacketDescriptor) = record.isoDescriptors.flatMap (·.bytes E) :=
      readAt_append (before ++ record.data) after (by simp [transferBytes]) rfl hisoLength hlimit
    rw [List.length_append] at hread
    rw [readIsoDescriptors, hcount, hread, isoDescriptorsOf_bytes E _ hrecord.stored]
  have hdescriptors : (if BitVec.ofNat 64 record.isoDescriptors.length ≠ 0 then
      readIsoDescriptors E (before ++ transferBytes E record ++ after)
        (if record.isoDescriptors ≠ [] then BitVec.ofNat 64 (before.length + record.data.length) else 0)
        (BitVec.ofNat 64 record.isoDescriptors.length) else []) = record.isoDescriptors := by
    by_cases hnone : record.isoDescriptors = []
    · rw [hnone]
      rfl
    · have hne : BitVec.ofNat 64 record.isoDescriptors.length ≠ 0 := fun h0 => by
        rw [h0] at hcount
        exact hnone (List.length_eq_zero_iff.mp hcount.symm)
      rw [if_pos hne, if_pos hnone, hiso]
  have htimestamp : (BitVec.ofNat 64 record.timestampMs.natAbs).toNat = record.timestampMs.natAbs := by
    rw [BitVec.toNat_ofNat, Nat.mod_eq_of_lt (timestampMs_lt hrecord.timestamp)]
  unfold readTransfer
  rw [hparse, Option.bind_some]
  dsimp only
  rw [hdata, if_neg (not_not_intro hrecord.size_eq), hdescriptors, Option.map_some]
  simp only [TransferRecord.replayed, toReplay, htimestamp]

/-! ### A control setup's line -/

/-- The members of a control setup's line, with what the pattern finds. -/
def controlSetupMembers (record : Recording.ControlSetupRecord) (payloadOffset : ℕ) : List Jsonl.Member :=
  let number (name : String) (n : ℕ) : Jsonl.Member := ⟨name, .group decimal, Nat.toDigits 10 n, [Nat.toDigits 10 n]⟩
  [number "setup" record.setup.toNat, number "data_size" record.dataSize.toNat, number "data" payloadOffset]

theorem parseControlSetup_behind {piece : List Char} (record : Recording.ControlSetupRecord) (payloadOffset : ℕ)
    (more : List Char) (hpiece : '\x7d' ∉ piece) (hpayload : payloadOffset < 2 ^ 64) :
    parseControlSetup (piece ++ '\x7b' :: (Jsonl.members (record.members payloadOffset) ++ '\x7d' :: more)) =
      some ⟨record.setup, record.dataSize, BitVec.ofNat 64 payloadOffset, []⟩ := by
  have hreads : ∀ m ∈ controlSetupMembers record payloadOffset, m.Reads := by
    simp only [controlSetupMembers, List.forall_mem_cons]
    exact ⟨reads_decimal _ _, reads_decimal _ _, reads_decimal _ _, List.forall_mem_nil _⟩
  have hbraces : ∀ m ∈ controlSetupMembers record payloadOffset, Braceless (m.name, m.pattern) := by
    have hdigit : ('\x7b' : Char).isDigit = false := rfl
    simp [controlSetupMembers, Braceless, Uses, decimal, hdigit]
  have hsearch : search (object controlSetupPattern)
      (piece ++ '\x7b' :: (Jsonl.members (record.members payloadOffset) ++ '\x7d' :: more)) =
      some [Nat.toDigits 10 record.setup.toNat, Nat.toDigits 10 record.dataSize.toNat, Nat.toDigits 10 payloadOffset] :=
    search_behind more (List.cons_ne_nil _ _) hreads hbraces hpiece
  have hnumber : ∀ n : ℕ, n < 2 ^ 64 → stoull 10 (Nat.toDigits 10 n) = some (BitVec.ofNat 64 n) :=
    fun n hn => stoull_toDigits (by omega) (by omega) hn
  have hsetup := hnumber record.setup.toNat record.setup.isLt
  have hsize := hnumber record.dataSize.toNat (by have := record.dataSize.isLt; omega)
  unfold parseControlSetup
  rw [hsearch]
  simp only [hsetup, hsize, hnumber _ hpayload, Option.bind_eq_bind, Option.bind_some, Option.pure_def]
  simp

/-- What is to be replayed of a control setup. -/
def ControlSetupRecord.replayed (record : ControlSetupRecord) : U64 × List U8 := (record.setup, record.data)

theorem readControlSetup_behind {record : Recording.ControlSetupRecord} {piece : List Char} {before after : List U8}
    (more : List Char) (hsize : record.data.length = record.dataSize.toNat) (hpiece : '\x7d' ∉ piece)
    (hlimit : (before ++ record.data ++ after).length < 2 ^ 63) :
    (readControlSetup (before ++ record.data ++ after) (piece ++ '\x7b' ::
      (Jsonl.members (record.members before.length) ++ '\x7d' :: more))).map ControlSetupRecord.replayed =
        some (record.setup, record.data) := by
  have hlen : (before ++ record.data ++ after).length = before.length + record.data.length + after.length := by
    rw [List.length_append, List.length_append]
  have hparse := parseControlSetup_behind record before.length more hpiece (by omega)
  have hdata : readPayload (before ++ record.data ++ after) (BitVec.ofNat 64 before.length) record.dataSize =
      record.data :=
    readPayload_append before after (by simp) rfl hsize hlimit
  unfold readControlSetup
  rw [hparse, Option.bind_some]
  dsimp only
  rw [hdata, if_neg (not_not_intro hsize)]
  rfl

end Playback
end Viu
