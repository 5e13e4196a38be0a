/-
# Saved configurations

`tree::save` and `tree::load` of a path that is not JSON: the tree as decimal
numbers, a space behind each, in the order of the described members; every
vector has its size in front. The reader walks the same classes again. Each
class reads back what it writes, and fails on less (`reads_tree`), so the
format is self-delimiting and a saved tree loads as itself
(`saved_round_trip`).
-/
import Mathlib.Data.List.Induction
import Viu.Lib.Reader
import Viu.Lib.Text
import Viu.Descriptors

namespace Viu

open Bytes Text Tokens

/-- What loading throws. -/
inductive LoadExn
  | badLexicalCast
  deriving DecidableEq, Repr

abbrev In (α : Type) := Reader Word LoadExn α

/-! ### Numbers -/

/-- The sign of a word and its digits. -/
def signed (w : Word) : Bool × Word :=
  match w with
  | '-' :: ds => (true, ds)
  | '+' :: ds => (false, ds)
  | ds => (false, ds)

/-- `boost::lexical_cast` to an unsigned type: a sign is taken, and the magnitude
has to fit. -/
def lexicalCastUnsigned (k : ℕ) (w : Word) : Except LoadExn (BitVec k) :=
  match magnitude (signed w).2 with
  | none => .error .badLexicalCast
  | some m =>
    if m < 2 ^ k then .ok (if (signed w).1 then -BitVec.ofNat k m else BitVec.ofNat k m)
    else .error .badLexicalCast

/-- `boost::lexical_cast<std::int32_t>`. -/
def lexicalCastInt32 (w : Word) : Except LoadExn I32 :=
  match magnitude (signed w).2 with
  | none => .error .badLexicalCast
  | some m =>
    if (signed w).1 then if m ≤ 2 ^ 31 then .ok (-BitVec.ofNat 32 m) else .error .badLexicalCast
    else if m < 2 ^ 31 then .ok (BitVec.ofNat 32 m) else .error .badLexicalCast

/-- `io::text::stream::out`; a `char` goes through an `int32_t`. -/
def out {k : ℕ} (v : BitVec k) : Word := Nat.toDigits 10 v.toNat

/-- The size of a vector is a `size_t`. -/
def outSize (n : ℕ) : Word := out (BitVec.ofNat 64 n)

/-- `io::text::stream::in` of a `char`. -/
def inU8 : In U8 := Reader.next .badLexicalCast fun w => (lexicalCastInt32 w).map (·.setWidth 8)

def inU16 : In U16 := Reader.next .badLexicalCast (lexicalCastUnsigned 16)

def inSize : In ℕ := Reader.next .badLexicalCast fun w => (lexicalCastUnsigned 64 w).map (·.toNat)

def outVector (bytes : List U8) : List Word := outSize bytes.length :: bytes.map out

def inVector : In (List U8) := Reader.counted inSize inU8

/-- `stream_out` of a described structure. -/
def outMembers (members : List Member) : List Word := members.map fun m => out m.2

/-! ### The structures -/

def LibusbDeviceDescriptor.streamIn : In LibusbDeviceDescriptor := do
  let bLength ← inU8
  let bDescriptorType ← inU8
  let bcdUSB ← inU16
  let bDeviceClass ← inU8
  let bDeviceSubClass ← inU8
  let bDeviceProtocol ← inU8
  let bMaxPacketSize0 ← inU8
  let idVendor ← inU16
  let idProduct ← inU16
  let bcdDevice ← inU16
  let iManufacturer ← inU8
  let iProduct ← inU8
  let iSerialNumber ← inU8
  let bNumConfigurations ← inU8
  return ⟨bLength, bDescriptorType, bcdUSB, bDeviceClass, bDeviceSubClass, bDeviceProtocol, bMaxPacketSize0,
    idVendor, idProduct, bcdDevice, iManufacturer, iProduct, iSerialNumber, bNumConfigurations⟩

def LibusbConfigDescriptor.streamIn : In LibusbConfigDescriptor := do
  let bLength ← inU8
  let bDescriptorType ← inU8
  let wTotalLength ← inU16
  let bNumInterfaces ← inU8
  let bConfigurationValue ← inU8
  let iConfiguration ← inU8
  let bmAttributes ← inU8
  let maxPower ← inU8
  return ⟨bLength, bDescriptorType, wTotalLength, bNumInterfaces, bConfigurationValue, iConfiguration, bmAttributes,
    maxPower⟩

def LibusbInterfaceDescriptor.streamIn : In LibusbInterfaceDescriptor := do
  let bLength ← inU8
  let bDescriptorType ← inU8
  let bInterfaceNumber ← inU8
  let bAlternateSetting ← inU8
  let bNumEndpoints ← inU8
  let bInterfaceClass ← inU8
  let bInterfaceSubClass ← inU8
  let bInterfaceProtocol ← inU8
  let iInterface ← inU8
  return ⟨bLength, bDescriptorType, bInterfaceNumber, bAlternateSetting, bNumEndpoints, bInterfaceClass,
    bInterfaceSubClass, bInterfaceProtocol, iInterface⟩

def LibusbEndpointDescriptor.streamIn : In LibusbEndpointDescriptor := do
  let bLength ← inU8
  let bDescriptorType ← inU8
  let bEndpointAddress ← inU8
  let bmAttributes ← inU8
  let wMaxPacketSize ← inU16
  let bInterval ← inU8
  let bRefresh ← inU8
  let bSynchAddress ← inU8
  return ⟨bLength, bDescriptorType, bEndpointAddress, bmAttributes, wMaxPacketSize, bInterval, bRefresh,
    bSynchAddress⟩

def LibusbBosDescriptor.streamIn : In LibusbBosDescriptor := do
  let bLength ← inU8
  let bDescriptorType ← inU8
  let wTotalLength ← inU16
  let bNumDeviceCaps ← inU8
  return ⟨bLength, bDescriptorType, wTotalLength, bNumDeviceCaps⟩

def LibusbBosDevCapabilityDescriptor.streamIn : In LibusbBosDevCapabilityDescriptor := do
  let bLength ← inU8
  let bDescriptorType ← inU8
  let bDevCapabilityType ← inU8
  return ⟨bLength, bDescriptorType, bDevCapabilityType⟩

/-! ### The nodes -/

/-- All eight described members, audio or not. -/
def Endpoint.streamOut (e : Endpoint) : List Word := outMembers e.wrapped.audioMembers ++ outVector e.extra

def Endpoint.streamIn : In Endpoint := do
  let wrapped ← LibusbEndpointDescriptor.streamIn
  let extra ← inVector
  return ⟨wrapped, extra⟩

def Interface.streamOut (i : Interface) : List Word :=
  outMembers i.wrapped.members ++ (outSize i.ep.length :: i.ep.flatMap Endpoint.streamOut) ++ outVector i.extra

def Interface.streamIn : In Interface := do
  let wrapped ← LibusbInterfaceDescriptor.streamIn
  let ep ← Reader.counted inSize Endpoint.streamIn
  let extra ← inVector
  return ⟨wrapped, extra, ep⟩

def UsbInterface.streamOut (i : UsbInterface) : List Word :=
  outSize i.altsetting.length :: i.altsetting.flatMap Interface.streamOut

def UsbInterface.streamIn : In UsbInterface := do
  let altsetting ← Reader.counted inSize Interface.streamIn
  return ⟨altsetting⟩

def Config.streamOut (c : Config) : List Word :=
  outMembers c.wrapped.members ++ (outSize c.interface.length :: c.interface.flatMap UsbInterface.streamOut) ++
    outVector c.extra

def Config.streamIn : In Config := do
  let wrapped ← LibusbConfigDescriptor.streamIn
  let interface ← Reader.counted inSize UsbInterface.streamIn
  let extra ← inVector
  return ⟨wrapped, extra, interface⟩

def BosDevCapabilityDescriptor.streamOut (c : BosDevCapabilityDescriptor) : List Word :=
  outMembers c.wrapped.members ++ outVector c.devCapabilityData

def BosDevCapabilityDescriptor.streamIn : In BosDevCapabilityDescriptor := do
  let wrapped ← LibusbBosDevCapabilityDescriptor.streamIn
  let devCapabilityData ← inVector
  return ⟨wrapped, devCapabilityData⟩

def Bos.streamOut (b : Bos) : List Word :=
  outMembers b.wrapped.members ++ (outSize b.devCapability.length :: b.devCapability.flatMap (·.streamOut))

def Bos.streamIn : In Bos := do
  let wrapped ← LibusbBosDescriptor.streamIn
  let devCapability ← Reader.counted inSize BosDevCapabilityDescriptor.streamIn
  return ⟨wrapped, devCapability⟩

/-! ### The strings -/

/-- A language and its strings. -/
def outStrings (p : U16 × List (List U8)) : List Word :=
  out p.1 :: outSize p.2.length :: p.2.flatMap outVector

def inStrings : In (U16 × List (List U8)) := do
  let langId ← inU16
  let strings ← Reader.counted inSize inVector
  return (langId, strings)

/-- `std::map::insert`: a key that is there keeps its value. -/
def StringDescriptorMap.insert : StringDescriptorMap → U16 × List (List U8) → StringDescriptorMap
  | [], p => [p]
  | q :: rest, p => if p.1 < q.1 then p :: q :: rest else if p.1 = q.1 then q :: rest else q :: insert rest p

def StringDescriptorMap.streamOut (m : StringDescriptorMap) : List Word := outSize m.length :: m.flatMap outStrings

/-- Into an empty map. -/
def StringDescriptorMap.streamIn : In StringDescriptorMap := do
  let ps ← Reader.counted inSize inStrings
  return ps.foldl StringDescriptorMap.insert []

/-! ### The tree -/

namespace Tree

def streamOut (t : Tree) : List Word :=
  outMembers t.deviceDescriptor.members ++ t.deviceConfig.streamOut ++ t.stringDescriptors.streamOut ++
    outVector t.reportDescriptor ++ t.bosDescriptor.streamOut

/-- Into a fresh tree. -/
def streamIn : In Tree := do
  let deviceDescriptor ← LibusbDeviceDescriptor.streamIn
  let deviceConfig ← Config.streamIn
  let stringDescriptors ← StringDescriptorMap.streamIn
  let reportDescriptor ← inVector
  let bosDescriptor ← Bos.streamIn
  return ⟨deviceDescriptor, deviceConfig, stringDescriptors, bosDescriptor, reportDescriptor⟩

/-- The file `save` writes. -/
def save (t : Tree) : List Char := join t.streamOut

/-- `load` of a path without the extension .json. What follows the tree is not
looked at. -/
def load (text : List Char) : Except LoadExn Tree := (streamIn (words text)).map Prod.fst

end Tree

/-! ### A number is read back -/

theorem signed_of_ne {d : Char} (hminus : d ≠ '-') (hplus : d ≠ '+') (ds : Word) :
    signed (d :: ds) = (false, d :: ds) := by
  unfold signed
  split
  · rename_i heq
    exact absurd (List.cons.inj heq).1 hminus
  · rename_i heq
    exact absurd (List.cons.inj heq).1 hplus
  · rfl

theorem signed_of_isDigit {d : Char} (h : d.isDigit = true) (ds : Word) : signed (d :: ds) = (false, d :: ds) := by
  apply signed_of_ne <;>
  · rintro rfl
    exact absurd h (by decide)

theorem signed_toDigits (n : ℕ) : signed (Nat.toDigits 10 n) = (false, Nat.toDigits 10 n) := by
  obtain ⟨d, ds, hds⟩ := List.exists_cons_of_ne_nil (Nat.toDigits_ne_nil (b := 10) (n := n))
  have hd : d.isDigit = true := isDigit_toDigits (n := n) d (by rw [hds]; exact List.mem_cons_self)
  rw [hds, signed_of_isDigit hd]

theorem lexicalCastUnsigned_out {k : ℕ} (v : BitVec k) : lexicalCastUnsigned k (out v) = .ok v := by
  unfold lexicalCastUnsigned out
  rw [signed_toDigits, magnitude_toDigits]
  dsimp only
  rw [if_pos v.isLt]
  simp

theorem lexicalCastInt32_toDigits_eq (n : ℕ) : lexicalCastInt32 (Nat.toDigits 10 n) =
    if n < 2 ^ 31 then .ok (BitVec.ofNat 32 n) else .error .badLexicalCast := by
  unfold lexicalCastInt32
  rw [signed_toDigits, magnitude_toDigits]
  dsimp only
  rw [if_neg Bool.false_ne_true]

theorem lexicalCastInt32_toDigits {n : ℕ} (h : n < 2 ^ 31) :
    lexicalCastInt32 (Nat.toDigits 10 n) = .ok (BitVec.ofNat 32 n) := by
  rw [lexicalCastInt32_toDigits_eq, if_pos h]

theorem reads_inU8 (v : U8) : Reads inU8 [out v] v := by
  refine Reads.next ?_
  have hlt := v.isLt
  rw [out, lexicalCastInt32_toDigits (by omega)]
  refine congrArg Except.ok (BitVec.eq_of_toNat_eq ?_)
  rw [BitVec.toNat_setWidth, BitVec.toNat_ofNat]
  omega

theorem reads_inU16 (v : U16) : Reads inU16 [out v] v := Reads.next (lexicalCastUnsigned_out v)

/-- What a `size_t` can count. -/
def maxSize : ℕ := 2 ^ 64

theorem reads_inSize {n : ℕ} (h : n < maxSize) : Reads inSize [outSize n] n := by
  refine Reads.next ?_
  rw [outSize, lexicalCastUnsigned_out]
  refine congrArg Except.ok ?_
  show (BitVec.ofNat 64 n).toNat = n
  rw [BitVec.toNat_ofNat]
  exact Nat.mod_eq_of_lt h

theorem reads_vector {bytes : List U8} (h : bytes.length < maxSize) : Reads inVector (outVector bytes) bytes := by
  rw [outVector, List.map_eq_flatMap]
  exact Reads.counted (reads_inSize h) fun b _ => reads_inU8 b

/-! ### The structures are read back -/

theorem reads_device (d : LibusbDeviceDescriptor) :
    Reads LibusbDeviceDescriptor.streamIn (outMembers d.members) d := by
  refine (reads_inU8 _).cons <| (reads_inU8 _).cons <| (reads_inU16 _).cons <| (reads_inU8 _).cons <|
    (reads_inU8 _).cons <| (reads_inU8 _).cons <| (reads_inU8 _).cons <| (reads_inU16 _).cons <|
    (reads_inU16 _).cons <| (reads_inU16 _).cons <| (reads_inU8 _).cons <| (reads_inU8 _).cons <|
    (reads_inU8 _).cons <| (reads_inU8 _).cons <| Reads.pure d

theorem reads_config_wrapped (d : LibusbConfigDescriptor) :
    Reads LibusbConfigDescriptor.streamIn (outMembers d.members) d := by
  refine (reads_inU8 _).cons <| (reads_inU8 _).cons <| (reads_inU16 _).cons <| (reads_inU8 _).cons <|
    (reads_inU8 _).cons <| (reads_inU8 _).cons <| (reads_inU8 _).cons <| (reads_inU8 _).cons <| Reads.pure d

theorem reads_interface_wrapped (d : LibusbInterfaceDescriptor) :
    Reads LibusbInterfaceDescriptor.streamIn (outMembers d.members) d := by
  refine (reads_inU8 _).cons <| (reads_inU8 _).cons <| (reads_inU8 _).cons <| (reads_inU8 _).cons <|
    (reads_inU8 _).cons <| (reads_inU8 _).cons <| (reads_inU8 _).cons <| (reads_inU8 _).cons <|
    (reads_inU8 _).cons <| Reads.pure d

theorem reads_endpoint_wrapped (d : LibusbEndpointDescriptor) :
    Reads LibusbEndpointDescriptor.streamIn (outMembers d.audioMembers) d := by
  refine (reads_inU8 _).cons <| (reads_inU8 _).cons <| (reads_inU8 _).cons <| (reads_inU8 _).cons <|
    (reads_inU16 _).cons <| (reads_inU8 _).cons <| (reads_inU8 _).cons <| (reads_inU8 _).cons <| Reads.pure d

theorem reads_bos_wrapped (d : LibusbBosDescriptor) : Reads LibusbBosDescriptor.streamIn (outMembers d.members) d := by
  refine (reads_inU8 _).cons <| (reads_inU8 _).cons <| (reads_inU16 _).cons <| (reads_inU8 _).cons <| Reads.pure d

theorem reads_capability_wrapped (d : LibusbBosDevCapabilityDescriptor) :
    Reads LibusbBosDevCapabilityDescriptor.streamIn (outMembers d.members) d := by
  refine (reads_inU8 _).cons <| (reads_inU8 _).cons <| (reads_inU8 _).cons <| Reads.pure d

/-! ### The nodes are read back

Every vector in memory has a size that a `size_t` can count; `Sized` says so
of the lists that stand for them. -/

def Endpoint.Sized (e : Endpoint) : Prop := e.extra.length < maxSize

def Interface.Sized (i : Interface) : Prop :=
  i.extra.length < maxSize ∧ i.ep.length < maxSize ∧ ∀ e ∈ i.ep, e.Sized

def UsbInterface.Sized (i : UsbInterface) : Prop := i.altsetting.length < maxSize ∧ ∀ a ∈ i.altsetting, a.Sized

def Config.Sized (c : Config) : Prop :=
  c.extra.length < maxSize ∧ c.interface.length < maxSize ∧ ∀ i ∈ c.interface, i.Sized

def BosDevCapabilityDescriptor.Sized (c : BosDevCapabilityDescriptor) : Prop := c.devCapabilityData.length < maxSize

def Bos.Sized (b : Bos) : Prop := b.devCapability.length < maxSize ∧ ∀ c ∈ b.devCapability, c.Sized

def StringsSized (p : U16 × List (List U8)) : Prop := p.2.length < maxSize ∧ ∀ bytes ∈ p.2, bytes.length < maxSize

/-- A `std::map` has its keys in order, each once. -/
structure StringDescriptorMap.IsMap (m : StringDescriptorMap) : Prop where
  sorted : m.Pairwise fun p q => p.1 < q.1
  size : m.length < maxSize
  sized : ∀ p ∈ m, StringsSized p

structure Tree.Sized (t : Tree) : Prop where
  config : t.deviceConfig.Sized
  strings : t.stringDescriptors.IsMap
  report : t.reportDescriptor.length < maxSize
  bos : t.bosDescriptor.Sized

instance : DecidablePred Endpoint.Sized := fun _ => inferInstanceAs (Decidable (_ < _))

instance : DecidablePred Interface.Sized := fun _ => inferInstanceAs (Decidable (_ ∧ _))

instance : DecidablePred UsbInterface.Sized := fun _ => inferInstanceAs (Decidable (_ ∧ _))

instance : DecidablePred Config.Sized := fun _ => inferInstanceAs (Decidable (_ ∧ _))

instance : DecidablePred BosDevCapabilityDescriptor.Sized := fun _ => inferInstanceAs (Decidable (_ < _))

instance : DecidablePred Bos.Sized := fun _ => inferInstanceAs (Decidable (_ ∧ _))

instance : DecidablePred StringsSized := fun _ => inferInstanceAs (Decidable (_ ∧ _))

instance : DecidablePred StringDescriptorMap.IsMap := fun m =>
  decidable_of_iff ((m.Pairwise fun p q => p.1 < q.1) ∧ m.length < maxSize ∧ ∀ p ∈ m, StringsSized p)
    ⟨fun h => ⟨h.1, h.2.1, h.2.2⟩, fun h => ⟨h.sorted, h.size, h.sized⟩⟩

instance : DecidablePred Tree.Sized := fun t =>
  decidable_of_iff (t.deviceConfig.Sized ∧ t.stringDescriptors.IsMap ∧ t.reportDescriptor.length < maxSize ∧
      t.bosDescriptor.Sized)
    ⟨fun h => ⟨h.1, h.2.1, h.2.2.1, h.2.2.2⟩, fun h => ⟨h.config, h.strings, h.report, h.bos⟩⟩

theorem reads_endpoint {e : Endpoint} (h : e.Sized) : Reads Endpoint.streamIn e.streamOut e :=
  (reads_endpoint_wrapped e.wrapped).bind (reads_vector h).last

theorem reads_interface {i : Interface} (h : i.Sized) : Reads Interface.streamIn i.streamOut i := by
  obtain ⟨hextra, hep, hall⟩ := h
  rw [Interface.streamOut, List.append_assoc]
  refine (reads_interface_wrapped i.wrapped).bind ?_
  refine (Reads.counted (reads_inSize hep) fun e he => reads_endpoint (hall e he)).bind ?_
  exact (reads_vector hextra).last

theorem reads_usbInterface {i : UsbInterface} (h : i.Sized) : Reads UsbInterface.streamIn i.streamOut i := by
  obtain ⟨hlen, hall⟩ := h
  exact (Reads.counted (reads_inSize hlen) fun a ha => reads_interface (hall a ha)).last

theorem reads_config {c : Config} (h : c.Sized) : Reads Config.streamIn c.streamOut c := by
  obtain ⟨hextra, hlen, hall⟩ := h
  rw [Config.streamOut, List.append_assoc]
  refine (reads_config_wrapped c.wrapped).bind ?_
  refine (Reads.counted (reads_inSize hlen) fun i hi => reads_usbInterface (hall i hi)).bind ?_
  exact (reads_vector hextra).last

theorem reads_capability {c : BosDevCapabilityDescriptor} (h : c.Sized) :
    Reads BosDevCapabilityDescriptor.streamIn c.streamOut c :=
  (reads_capability_wrapped c.wrapped).bind (reads_vector h).last

theorem reads_bos {b : Bos} (h : b.Sized) : Reads Bos.streamIn b.streamOut b := by
  obtain ⟨hlen, hall⟩ := h
  refine (reads_bos_wrapped b.wrapped).bind ?_
  exact (Reads.counted (reads_inSize hlen) fun c hc => reads_capability (hall c hc)).last

theorem reads_strings {p : U16 × List (List U8)} (h : StringsSized p) : Reads inStrings (outStrings p) p := by
  obtain ⟨hlen, hall⟩ := h
  refine (reads_inU16 p.1).cons ?_
  exact (Reads.counted (reads_inSize hlen) fun bytes hb => reads_vector (hall bytes hb)).last

/-- Keys inserted in order stay in order. -/
theorem insert_last {m : StringDescriptorMap} {p : U16 × List (List U8)} (h : ∀ q ∈ m, q.1 < p.1) :
    m.insert p = m ++ [p] := by
  induction m with
  | nil => rfl
  | cons q rest ih =>
    have hq := h q List.mem_cons_self
    have hlt : ¬ p.1 < q.1 := by bv_omega
    have hne : p.1 ≠ q.1 := by bv_omega
    rw [StringDescriptorMap.insert, if_neg hlt, if_neg hne,
      ih fun q hq => h q (List.mem_cons_of_mem _ hq), List.cons_append]

theorem foldl_insert {m : StringDescriptorMap} (h : m.Pairwise fun p q => p.1 < q.1) :
    m.foldl StringDescriptorMap.insert [] = m := by
  induction m using List.reverseRecOn with
  | nil => rfl
  | append_singleton m p ih =>
    obtain ⟨hm, -, hlast⟩ := List.pairwise_append.mp h
    rw [List.foldl_append, ih hm, List.foldl_cons, List.foldl_nil]
    exact insert_last fun q hq => hlast q hq p (List.mem_singleton_self p)

theorem reads_stringMap {m : StringDescriptorMap} (h : m.IsMap) :
    Reads StringDescriptorMap.streamIn m.streamOut m := by
  have hread : Reads StringDescriptorMap.streamIn m.streamOut (m.foldl StringDescriptorMap.insert []) :=
    (Reads.counted (reads_inSize h.size) fun p hp => reads_strings (h.sized p hp)).last
  rwa [foldl_insert h.sorted] at hread

theorem reads_tree {t : Tree} (h : t.Sized) : Reads Tree.streamIn t.streamOut t := by
  rw [Tree.streamOut, List.append_assoc, List.append_assoc, List.append_assoc]
  refine (reads_device t.deviceDescriptor).bind ?_
  refine (reads_config h.config).bind ?_
  refine (reads_stringMap h.strings).bind ?_
  refine (reads_vector h.report).bind ?_
  exact (reads_bos h.bos).last

/-! ### The file -/

abbrev AllWords (ws : List Word) : Prop := ∀ w ∈ ws, IsWord w

theorem isWord_out {k : ℕ} (v : BitVec k) : IsWord (out v) := isWord_toDigits _

theorem allWords_members (members : List Member) : AllWords (outMembers members) := by
  intro w hw
  obtain ⟨m, -, rfl⟩ := List.mem_map.mp hw
  exact isWord_out m.2

theorem allWords_vector (bytes : List U8) : AllWords (outVector bytes) := by
  refine List.forall_mem_cons.mpr ⟨isWord_out _, fun w hw => ?_⟩
  obtain ⟨b, -, rfl⟩ := List.mem_map.mp hw
  exact isWord_out b

/-- A size, and what it counts. -/
theorem allWords_counted {β : Type*} (n : ℕ) {l : List β} {f : β → List Word} (h : ∀ b ∈ l, AllWords (f b)) :
    AllWords (outSize n :: l.flatMap f) :=
  List.forall_mem_cons.mpr ⟨isWord_out _, List.forall_mem_flatMap.mpr h⟩

theorem allWords_interface (i : Interface) : AllWords i.streamOut := by
  have hep : ∀ e ∈ i.ep, AllWords e.streamOut := fun e _ =>
    List.forall_mem_append.mpr ⟨allWords_members _, allWords_vector _⟩
  exact List.forall_mem_append.mpr
    ⟨List.forall_mem_append.mpr ⟨allWords_members _, allWords_counted _ hep⟩, allWords_vector _⟩

theorem allWords_config (c : Config) : AllWords c.streamOut := by
  have hifc : ∀ i ∈ c.interface, AllWords i.streamOut := fun i _ =>
    allWords_counted _ fun a _ => allWords_interface a
  exact List.forall_mem_append.mpr
    ⟨List.forall_mem_append.mpr ⟨allWords_members _, allWords_counted _ hifc⟩, allWords_vector _⟩

theorem allWords_strings (p : U16 × List (List U8)) : AllWords (outStrings p) :=
  List.forall_mem_cons.mpr ⟨isWord_out _, allWords_counted _ fun bytes _ => allWords_vector bytes⟩

theorem allWords_bos (b : Bos) : AllWords b.streamOut :=
  List.forall_mem_append.mpr ⟨allWords_members _, allWords_counted _ fun _ _ =>
    List.forall_mem_append.mpr ⟨allWords_members _, allWords_vector _⟩⟩

theorem allWords_tree (t : Tree) : AllWords t.streamOut := by
  refine List.forall_mem_append.mpr ⟨?_, allWords_bos _⟩
  refine List.forall_mem_append.mpr ⟨?_, allWords_vector _⟩
  refine List.forall_mem_append.mpr ⟨?_, allWords_counted _ fun p _ => allWords_strings p⟩
  exact List.forall_mem_append.mpr ⟨allWords_members _, allWords_config _⟩

theorem words_save (t : Tree) : words t.save = t.streamOut := words_join (allWords_tree t)

theorem load_of_words {text : List Char} {ws : List Word} (h : words text = ws) :
    Tree.load text = (Tree.streamIn ws).map Prod.fst := by
  rw [Tree.load, h]

theorem load_save {t : Tree} (h : t.Sized) : Tree.load t.save = .ok t := by
  have hwhole := (reads_tree h).whole []
  rw [List.append_nil] at hwhole
  rw [load_of_words (words_save t), hwhole]
  rfl

/-- **Saved configurations**: a saved tree loads as itself, and no text that stops
after fewer of its numbers loads at all. -/
theorem saved_round_trip {t : Tree} (h : t.Sized) :
    Tree.load t.save = .ok t ∧ ∀ k < (words t.save).length, ∀ text, words text = (words t.save).take k →
      ∃ e, Tree.load text = .error e := by
  refine ⟨load_save h, fun k hk text htext => ?_⟩
  rw [words_save] at hk htext
  obtain ⟨e, he⟩ := (reads_tree h).cut k hk
  refine ⟨e, ?_⟩
  rw [load_of_words htext, he]
  rfl

/-- One interface with two altsettings, extra bytes at every level, two languages. -/
def Tree.sample : Tree where
  deviceDescriptor := ⟨18, 1, 0x200, 0, 0, 0, 64, 0x1d6b, 0x104, 0x100, 1, 2, 0, 1⟩
  deviceConfig := ⟨⟨9, 2, 60, 1, 1, 0, 0x80, 50⟩, [8, 11], [⟨[
    ⟨⟨9, 4, 0, 0, 0, 255, 0, 0, 0⟩, [9, 33], []⟩,
    ⟨⟨9, 4, 0, 1, 1, 255, 0, 0, 0⟩, [], [⟨⟨7, 5, 0x81, 2, 512, 0, 0, 0⟩, [6, 48, 0, 0, 0, 4]⟩]⟩]⟩]⟩
  stringDescriptors := [(0, [[4, 3, 9, 4]]), (0x409, [[6, 3, 86, 0, 105, 0], []])]
  bosDescriptor := ⟨⟨5, 15, 12, 1⟩, [⟨⟨7, 16, 2⟩, [6, 0, 0, 0]⟩]⟩
  reportDescriptor := [5, 1, 9, 6]

theorem saved_round_trip_sample :
    Tree.load Tree.sample.save = .ok Tree.sample ∧
      ∀ k < (words Tree.sample.save).length, ∀ text, words text = (words Tree.sample.save).take k →
        ∃ e, Tree.load text = .error e :=
  saved_round_trip (by decide)

end Viu
