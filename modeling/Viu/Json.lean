/-
# JSON configurations

`json::parser`, which writes a JSON configuration as the numbers of a saved
one, and `tree::load` of a path with the extension .json. A text is the value
it stands for; the JSON library takes it if it is not nested too deep
(`jsonParse`). An exception stops the parser where it is: what it has written by
then is what `stream_in` reads.
-/
import Viu.Lib.Json
import Viu.Lib.Writer
import Viu.Saved

namespace Viu

open Bytes Text Tokens Json

/-- What the parser throws, `from_json` catches and prints. -/
inductive JsonExn
  | tooDeep
  | wrongKind
  | outOfRange
  | invalidArgument
  | runtimeError (what : String)
  deriving DecidableEq, Repr

/-- The parser writes numbers. -/
abbrev JsonOut := Writer (BitVec 32) JsonExn Unit

/-! ### Values -/

/-- How deep `boost::json::parse` lets arrays and objects nest, by default. -/
def maxDepth : ℕ := 32

/-- `boost::json::parse` of a text that stands for `root`. -/
def jsonParse (root : Json) : Except JsonExn Json := if root.depth ≤ maxDepth then .ok root else .error .tooDeep

def asObject : Json → Except JsonExn Members
  | object ms => .ok ms
  | _ => .error .wrongKind

def asArray : Json → Except JsonExn (List Json)
  | array vs => .ok vs
  | _ => .error .wrongKind

def asString : Json → Except JsonExn String
  | string s => .ok s
  | _ => .error .wrongKind

def memberAt (ms : Members) (key : String) : Except JsonExn Json :=
  match ms.lookup key with
  | some v => .ok v
  | none => .error .outOfRange

def contains (ms : Members) (key : String) : Bool := (ms.lookup key).isSome

/-- `value::at`. -/
def valueAt (v : Json) (key : String) : Except JsonExn Json := do
  memberAt (← asObject v) key

def objectAt (ms : Members) (key : String) : Except JsonExn Members := do
  asObject (← memberAt ms key)

def arrayAt (ms : Members) (key : String) : Except JsonExn (List Json) := do
  asArray (← memberAt ms key)

def digitValue (c : Char) : ℕ :=
  if '0' ≤ c ∧ c ≤ '9' then c.toNat - '0'.toNat
  else if 'a' ≤ c ∧ c ≤ 'z' then c.toNat - 'a'.toNat + 10
  else if 'A' ≤ c ∧ c ≤ 'Z' then c.toNat - 'A'.toNat + 10
  else 36

theorem digitValue_digitChar {d : ℕ} (h : d < 16) : digitValue d.digitChar = d := by
  have hall : ∀ e ∈ List.range 16, digitValue e.digitChar = e := by decide
  exact hall d (List.mem_range.mpr h)

def ofDigits (base : ℕ) (ds : List Char) : ℕ := ds.foldl (fun n c => n * base + digitValue c) 0

/-- The base that the prefix of a number tells, and what follows the prefix. -/
def basePrefix : List Char → ℕ × List Char
  | '0' :: x :: d :: ds =>
    if (x = 'x' ∨ x = 'X') ∧ digitValue d < 16 then (16, d :: ds) else (8, '0' :: x :: d :: ds)
  | '0' :: ds => (8, '0' :: ds)
  | ds => (10, ds)

/-- `std::stoul` with base 0: it stops at the first character that is no digit. -/
def stoul (s : String) : Except JsonExn (BitVec 64) :=
  let (negative, cs) := signed (s.toList.dropWhile isSpace)
  let (base, ds) := basePrefix cs
  let digits := ds.takeWhile fun c => digitValue c < base
  if digits = [] then .error .invalidArgument
  else if ofDigits base digits < 2 ^ 64 then
    .ok (if negative then -BitVec.ofNat 64 (ofDigits base digits) else BitVec.ofNat 64 (ofDigits base digits))
  else .error .outOfRange

namespace Parser

def readU32 : Json → Except JsonExn (BitVec 32)
  | int64 n => .ok (BitVec.ofInt 32 n)
  | string s => (stoul s).map (·.setWidth 32)
  | _ => .error (.runtimeError "Expected int or hex string")

/-- `read_u32` of a member, 0 if it is not there. -/
def readU32At (jobject : Members) (key : String) : Except JsonExn (BitVec 32) :=
  match jobject.lookup key with
  | some v => readU32 v
  | none => .ok 0

/-! ### The writers -/

def writeNum (v : BitVec 32) : JsonOut := Writer.tell [v]

/-- `write_num` of the size of an array. -/
def writeSize (n : ℕ) : JsonOut := writeNum (BitVec.ofNat 32 n)

def writeRead (x : Except JsonExn (BitVec 32)) : JsonOut := do
  let n ← Writer.lift x
  writeNum n

def writeDa (a : List Json) : JsonOut := Writer.forEach (fun v => writeRead (readU32 v)) a

/-- `write_num(read_u32(d, key))` for one key after the other. -/
def writeFields (d : Members) (keys : List String) : JsonOut :=
  Writer.forEach (fun key => writeRead (readU32At d key)) keys

def forEachObject (build : Members → JsonOut) (vs : List Json) : JsonOut :=
  Writer.forEach (fun v => do build (← Writer.lift (asObject v))) vs

/-- The bits of a number from `shift` on, as a byte. -/
def byteAt (n : BitVec 32) (shift : ℕ) : BitVec 32 := (n >>> shift) &&& 0xFF#32

/-- The six bytes of the companion, if there is one. -/
def buildCompanion (jobject : Members) : JsonOut :=
  if contains jobject "Endpoint Companion" then do
    let ec ← Writer.lift (objectAt jobject "Endpoint Companion")
    writeFields ec ["bLength", "bDescriptorType", "bMaxBurst", "bmAttributes"]
    let wBytes ← Writer.lift (readU32At ec "wBytesPerInterval")
    Writer.forEach writeNum [byteAt ((wBytes.setWidth 16).setWidth 32) 0, byteAt ((wBytes.setWidth 16).setWidth 32) 8]
  else pure ()

def extraOf (jobject : Members) : Except JsonExn (List Json) :=
  if contains jobject "daExtra" then arrayAt jobject "daExtra" else .ok []

def companionBytes (jobject : Members) : ℕ := if contains jobject "Endpoint Companion" then 6 else 0

def buildExtra (jobject : Members) : JsonOut := do
  let extra ← Writer.lift (extraOf jobject)
  let totalBytes := BitVec.ofNat 32 (companionBytes jobject + extra.length)
  if totalBytes ≠ 0 then do
    writeNum totalBytes
    buildCompanion jobject
    writeDa extra
  else writeNum 0

def buildEndpoint (ep : Members) : JsonOut := do
  let d ← Writer.lift (objectAt ep "Endpoint Descriptor")
  writeFields d ["bLength", "bDescriptorType", "bEndpointAddress", "bmAttributes", "wMaxPacketSize", "bInterval",
    "bRefresh", "bSynchAddress"]
  buildExtra ep

def buildInterface (iface : Members) : JsonOut := do
  let d ← Writer.lift (objectAt iface "Interface Descriptor")
  writeFields d ["bLength", "bDescriptorType", "bInterfaceNumber", "bAlternateSetting", "bNumEndpoints",
    "bInterfaceClass", "bInterfaceSubClass", "bInterfaceProtocol", "iInterface"]
  let eps ← Writer.lift (arrayAt d "aofEndpoints")
  writeSize eps.length
  forEachObject buildEndpoint eps
  buildExtra d

/-- One element of `aofAltsettings`. -/
def buildAltsettings (alt : Json) : JsonOut := do
  let ifs ← Writer.lift (valueAt alt "aofInterfaces" >>= asArray)
  writeSize ifs.length
  forEachObject buildInterface ifs

def buildConfiguration (cfg : Members) : JsonOut := do
  let d ← Writer.lift (objectAt cfg "Configuration Descriptor")
  writeFields d ["bLength", "bDescriptorType", "wTotalLength", "bNumInterfaces", "bConfigurationValue",
    "iConfiguration", "bmAttributes", "MaxPower"]
  let alts ← Writer.lift (arrayAt d "aofAltsettings")
  writeSize alts.length
  Writer.forEach buildAltsettings alts
  buildExtra cfg

/-- The bytes of a `std::string`. -/
def stringBytes (s : String) : List U8 := (s.toList.flatMap String.utf8EncodeChar).map (·.toBitVec)

/-- The elements of an array; a text's bytes, each with a zero behind it. -/
def buildText : Json → JsonOut
  | array vs => writeDa vs
  | str => do
    let s ← Writer.lift (asString str)
    Writer.forEach writeNum ((stringBytes s).flatMap fun c => [c.setWidth 32, 0])

def buildString (s : Json) : JsonOut := do
  let d ← Writer.lift (valueAt s "StringDescriptor" >>= asObject)
  -- the length twice: in front of the bytes, and the first of them
  writeFields d ["bLength", "bLength", "bDescriptorType"]
  let str ← Writer.lift (memberAt d "string")
  buildText str

def buildLanguageId : Json → JsonOut
  | array vs => writeDa vs
  | langId => writeRead (readU32 langId)

def buildLanguage (lang : Json) : JsonOut := do
  let langId ← Writer.lift (valueAt lang "wLanguageId")
  buildLanguageId langId
  let strings ← Writer.lift (valueAt lang "aofStrings" >>= asArray)
  writeSize strings.length
  Writer.forEach buildString strings

def buildStringDescriptors (dev : Members) : JsonOut := do
  let langs ← Writer.lift (arrayAt dev "aofStringDescriptors")
  writeSize langs.length
  Writer.forEach buildLanguage langs

def buildUsb2Extension (c : Members) : JsonOut := do
  let usb2Ext ← Writer.lift (objectAt c "USB 2.0 Extension")
  let bmAttr ← Writer.lift (readU32At usb2Ext "bmAttributes")
  writeNum 4
  Writer.forEach writeNum [byteAt bmAttr 0, byteAt bmAttr 8, byteAt bmAttr 16, byteAt bmAttr 24]

def buildSuperspeedUsb (c : Members) : JsonOut := do
  let ssUsb ← Writer.lift (objectAt c "SuperSpeed USB")
  let bmAttr ← Writer.lift (readU32At ssUsb "bmAttributes")
  let wSpeed ← Writer.lift (readU32At ssUsb "wSpeedSupported")
  let bFunc ← Writer.lift (readU32At ssUsb "bFunctionalitySupport")
  let bU1Lat ← Writer.lift (readU32At ssUsb "bU1DevExitLat")
  let wU2Lat ← Writer.lift (readU32At ssUsb "bU2DevExitLat")
  writeNum 7
  Writer.forEach writeNum [byteAt bmAttr 0, byteAt wSpeed 0, byteAt wSpeed 8, byteAt bFunc 0, byteAt bU1Lat 0,
    byteAt wU2Lat 0, byteAt wU2Lat 8]

def buildDevCapability (c : Members) : JsonOut :=
  if contains c "daDevCapability" then do
    let d ← Writer.lift (arrayAt c "daDevCapability")
    writeSize d.length
    writeDa d
  else writeNum 0

def buildCapabilityData (devCapType : BitVec 32) (c : Members) : JsonOut :=
  if devCapType = 2#32 ∧ contains c "USB 2.0 Extension" then buildUsb2Extension c
  else if devCapType = 3#32 ∧ contains c "SuperSpeed USB" then buildSuperspeedUsb c
  else buildDevCapability c

def buildCapability (c : Members) : JsonOut := do
  writeFields c ["bLength", "bDescriptorType"]
  let devCapType ← Writer.lift (readU32At c "bDevCapabilityType")
  writeNum devCapType
  buildCapabilityData devCapType c

def buildBos (bos : Members) : JsonOut := do
  writeFields bos ["bLength", "bDescriptorType", "wTotalLength", "bNumDeviceCaps"]
  let caps ← Writer.lift (arrayAt bos "aofDeviceCaps")
  writeSize caps.length
  forEachObject buildCapability caps

/-- `daReportDescriptor`. -/
def buildReport (dev : Members) : JsonOut := do
  let report ← Writer.lift (arrayAt dev "daReportDescriptor")
  writeSize report.length
  writeDa report

def buildDevice (dd : Members) : JsonOut :=
  writeFields dd ["bLength", "bDescriptorType", "bcdUSB", "bDeviceClass", "bDeviceSubClass", "bDeviceProtocol",
    "bMaxPacketSize0", "idVendor", "idProduct", "bcdDevice", "iManufacturer", "iProduct", "iSerial",
    "bNumConfigurations"]

def buildConfigurations (dd : Members) : JsonOut := do
  let cfgs ← Writer.lift (arrayAt dd "aofConfigurations")
  forEachObject buildConfiguration cfgs

/-- The first device. With no devices `operator[]` runs into its assertion; here it
throws. -/
def firstDevice (root : Json) : Except JsonExn Members := do
  let devices ← valueAt root "aofDevices" >>= asArray
  match devices with
  | dev :: _ => asObject dev
  | [] => .error .outOfRange

def buildDescriptor (data : Json) : JsonOut := do
  let root ← Writer.lift (jsonParse data)
  let dev ← Writer.lift (firstDevice root)
  let dd ← Writer.lift (objectAt dev "Device Descriptor")
  buildDevice dd
  buildConfigurations dd
  buildStringDescriptors dev
  buildReport dev
  let bos ← Writer.lift (objectAt dev "BOS Descriptor")
  buildBos bos

end Parser

/-- The text that `from_json` leaves in the stream: each number in decimal, a space
behind it. -/
def fromJson (data : Json) : List Char := join ((Parser.buildDescriptor data).items.map out)

/-- `load` of a path with the extension .json. -/
def Tree.loadJson (data : Json) : Except LoadExn Tree := Tree.load (fromJson data)

theorem words_fromJson (root : Json) : words (fromJson root) = (Parser.buildDescriptor root).items.map out := by
  apply words_join
  intro w hw
  obtain ⟨n, -, rfl⟩ := List.mem_map.mp hw
  exact isWord_toDigits n.toNat

/-- The reader has the parser's numbers before it. -/
theorem loadJson_eq (root : Json) :
    Tree.loadJson root = (Tree.streamIn ((Parser.buildDescriptor root).items.map out)).map Prod.fst :=
  load_of_words (words_fromJson root)

theorem jsonParse_eq {data root : Json} (h : jsonParse data = .ok root) : data = root := by
  unfold jsonParse at h
  split at h
  · exact Except.ok.inj h
  · cases h

/-- Of a text nested too deep nothing is written, and nothing is read. -/
theorem load_of_deep {root : Json} (h : maxDepth < root.depth) : Tree.loadJson root = .error .badLexicalCast := by
  have hthrow : jsonParse root = .error .tooDeep := if_neg (by omega)
  rw [loadJson_eq, Parser.buildDescriptor, hthrow]
  rfl

end Viu
