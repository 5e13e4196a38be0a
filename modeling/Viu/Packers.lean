/-
# The two packers

`packer::pack` of a libusb descriptor follows the pointers of the C structures,
with their counts; `tree::build` copies what they point to into a tree, and the
tree packs itself. Both read the same memory and append the same bytes
(`packConfig_eq`, `packBos_eq`), undefined together where a count is larger than
its array. With matching counts both are defined (`packers_agree`).

`assert` of a null interface array only logs, in a Release build.
-/
import Viu.Descriptors
import Viu.Lib.Ints

namespace Viu

open Bytes

/-! ### The structures of libusb -/

namespace Libusb

/-- The array behind a pointer; `none` is null. -/
abbrev Pointer (α : Type) := Option (List α)

structure EndpointDescriptor where
  described : LibusbEndpointDescriptor
  extra : Pointer U8
  extraLength : I32
  deriving DecidableEq, Repr

structure InterfaceDescriptor where
  described : LibusbInterfaceDescriptor
  endpoint : Pointer EndpointDescriptor
  extra : Pointer U8
  extraLength : I32
  deriving DecidableEq, Repr

structure Interface where
  altsetting : Pointer InterfaceDescriptor
  numAltsetting : I32
  deriving DecidableEq, Repr

structure ConfigDescriptor where
  described : LibusbConfigDescriptor
  interface : Pointer Interface
  extra : Pointer U8
  extraLength : I32
  deriving DecidableEq, Repr

/-- With the bytes that follow it. -/
structure BosDevCapabilityDescriptor where
  described : LibusbBosDevCapabilityDescriptor
  devCapabilityData : List U8
  deriving DecidableEq, Repr

/-- With what the pointers that follow it point to. -/
structure BosDescriptor where
  described : LibusbBosDescriptor
  devCapability : List BosDevCapabilityDescriptor
  deriving DecidableEq, Repr

/-- `format::unsafe::vectorize`; to read behind the array is undefined. -/
def vectorize {α : Type} (begin_ : Pointer α) (count : BitVec 64) : Option (List α) :=
  match begin_ with
  | none => some []
  | some xs => if count = 0 then some [] else if count.toNat ≤ xs.length then some (xs.take count.toNat) else none

/-- An `int` as a count. -/
def ofInt (n : I32) : BitVec 64 := n.signExtend 64

def ofByte (n : U8) : BitVec 64 := n.setWidth 64

/-- The sum of the sizes of the members. -/
def packedSize (members : List Member) : U8 := members.foldl (fun length m => length + BitVec.ofNat 8 (m.1 / 8)) 0

end Libusb

open Libusb

/-! ### `packer` -/

namespace Packer

/-- To `packed_data_`, as all that follow. -/
def packExtra (extra : Pointer U8) (extraLength : I32) (packedData : List U8) : Option (List U8) :=
  if extraLength = 0 then some packedData
  else (vectorize extra (ofInt extraLength)).map fun bytes => packedData ++ bytes

def packEndpointDescriptor (packedData : List U8) (d : EndpointDescriptor) : Option (List U8) :=
  packExtra d.extra d.extraLength (packedData ++ d.described.pack)

def packInterfaceDescriptor (packedData : List U8) (d : InterfaceDescriptor) : Option (List U8) :=
  (packExtra d.extra d.extraLength (packedData ++ packMembers d.described.members)).bind fun packedData =>
    (vectorize d.endpoint (ofByte d.described.bNumEndpoints)).bind fun endpoints =>
      endpoints.foldlM packEndpointDescriptor packedData

def packInterface (packedData : List U8) (i : Libusb.Interface) : Option (List U8) :=
  (vectorize i.altsetting (ofInt i.numAltsetting)).bind fun altsettings =>
    altsettings.foldlM packInterfaceDescriptor packedData

def packInterfaces (packedData : List U8) (d : ConfigDescriptor) : Option (List U8) :=
  (vectorize d.interface (ofByte d.described.bNumInterfaces)).bind fun ifaces =>
    ifaces.foldlM packInterface packedData

def packConfig (packedData : List U8) (d : ConfigDescriptor) : Option (List U8) :=
  (packExtra d.extra d.extraLength (packedData ++ packMembers d.described.members)).bind fun packedData =>
    packInterfaces packedData d

def packBosDevCapabilityDescriptor (packedData : List U8) (d : Libusb.BosDevCapabilityDescriptor) :
    Option (List U8) :=
  let capDataSize : I32 := d.described.bLength.setWidth 32 - (packedSize d.described.members).setWidth 32
  (vectorize (some d.devCapabilityData) (ofInt capDataSize)).map fun capData =>
    packedData ++ packMembers d.described.members ++ capData

def packBos (packedData : List U8) (d : BosDescriptor) : Option (List U8) :=
  (vectorize (some d.devCapability) (ofByte d.described.bNumDeviceCaps)).bind fun devCaps =>
    devCaps.foldlM packBosDevCapabilityDescriptor (packedData ++ packMembers d.described.members)

end Packer

/-! ### `tree::build` -/

namespace Tree

def vectorOfExtra (extra : Pointer U8) (extraLength : I32) : Option (List U8) := vectorize extra (ofInt extraLength)

def buildEndpoint (d : EndpointDescriptor) : Option Endpoint :=
  (vectorOfExtra d.extra d.extraLength).map fun extra => ⟨d.described, extra⟩

def buildInterfaceDescriptor (d : InterfaceDescriptor) : Option Viu.Interface :=
  (vectorOfExtra d.extra d.extraLength).bind fun extra =>
    (vectorize d.endpoint (ofByte d.described.bNumEndpoints)).bind fun eps =>
      (eps.mapM buildEndpoint).map fun ep => ⟨d.described, extra, ep⟩

def buildInterface (i : Libusb.Interface) : Option UsbInterface :=
  (vectorize i.altsetting (ofInt i.numAltsetting)).bind fun altsettings =>
    (altsettings.mapM buildInterfaceDescriptor).map fun altsetting => ⟨altsetting⟩

def buildConfig (d : ConfigDescriptor) : Option Config :=
  (vectorOfExtra d.extra d.extraLength).bind fun extra =>
    (vectorize d.interface (ofByte d.described.bNumInterfaces)).bind fun ifaces =>
      (ifaces.mapM buildInterface).map fun interface => ⟨d.described, extra, interface⟩

def buildBosDevCapability (d : Libusb.BosDevCapabilityDescriptor) : Option Viu.BosDevCapabilityDescriptor :=
  (vectorize (some d.devCapabilityData) (ofInt (d.described.bLength.setWidth 32 - 3))).map fun devCapabilityData =>
    ⟨d.described, devCapabilityData⟩

def buildBos (d : BosDescriptor) : Option Bos :=
  (vectorize (some d.devCapability) (ofByte d.described.bNumDeviceCaps)).bind fun devCaps =>
    (devCaps.mapM buildBosDevCapability).map fun devCapability => ⟨d.described, devCapability⟩

end Tree

/-! ### The same bytes -/

/-- To append the bytes of each is to build them all and append their bytes. -/
theorem foldlM_append {α β : Type} {f : List U8 → α → Option (List U8)} {build : α → Option β} {pack : β → List U8}
    (h : ∀ out x, f out x = (build x).map fun t => out ++ pack t) : ∀ (xs : List α) (out : List U8),
      xs.foldlM f out = (xs.mapM build).map fun ts => out ++ ts.flatMap pack
  | [], out => by simp
  | x :: xs, out => by
    rw [List.foldlM_cons, List.mapM_cons, h]
    cases build x with
    | none => rfl
    | some t =>
      have hrest := foldlM_append h xs (out ++ pack t)
      show xs.foldlM f (out ++ pack t) = _
      rw [hrest]
      cases xs.mapM build with
      | none => rfl
      | some ts => simp

/-- The children of a node. -/
theorem children_eq {α β γ : Type} {f : List U8 → α → Option (List U8)} {build : α → Option β} {pack : β → List U8}
    {mk : List β → γ} {packAll : γ → List U8} (h : ∀ out x, f out x = (build x).map fun t => out ++ pack t)
    {out out' : List U8} (hpack : ∀ ts, out' ++ ts.flatMap pack = out ++ packAll (mk ts)) (begin_ : Pointer α)
    (count : BitVec 64) :
    ((vectorize begin_ count).bind fun xs => xs.foldlM f out') =
      ((vectorize begin_ count).bind fun xs => (xs.mapM build).map mk).map fun t => out ++ packAll t := by
  cases vectorize begin_ count with
  | none => rfl
  | some xs =>
    simp only [Option.bind_some, foldlM_append h, Option.map_map]
    congr 1
    funext ts
    exact hpack ts

namespace Packer

open Viu.Tree

variable (out : List U8)

theorem packExtra_eq (extra : Pointer U8) (extraLength : I32) :
    packExtra extra extraLength out = (vectorOfExtra extra extraLength).map fun bytes => out ++ bytes := by
  unfold packExtra vectorOfExtra
  by_cases hzero : extraLength = 0
  · subst hzero
    cases extra with
    | none => simp [vectorize]
    | some xs => simp [vectorize, ofInt]
  · rw [if_neg hzero]

theorem packEndpointDescriptor_eq (d : EndpointDescriptor) :
    packEndpointDescriptor out d = (buildEndpoint d).map fun e => out ++ e.pack := by
  rw [packEndpointDescriptor, packExtra_eq, buildEndpoint, Option.map_map]
  congr 1
  funext extra
  exact List.append_assoc ..

theorem packInterfaceDescriptor_eq (d : InterfaceDescriptor) :
    packInterfaceDescriptor out d = (buildInterfaceDescriptor d).map fun i => out ++ i.pack := by
  rw [packInterfaceDescriptor, packExtra_eq, buildInterfaceDescriptor]
  cases vectorOfExtra d.extra d.extraLength with
  | none => rfl
  | some extra =>
    exact children_eq packEndpointDescriptor_eq (fun ep => by simp [Viu.Interface.pack, List.append_assoc]) _ _

theorem packInterface_eq (i : Libusb.Interface) :
    packInterface out i = (buildInterface i).map fun i => out ++ i.pack := by
  have hmk : ∀ ts : List Viu.Interface, out ++ ts.flatMap Viu.Interface.pack = out ++ (UsbInterface.mk ts).pack :=
    fun _ => rfl
  exact children_eq packInterfaceDescriptor_eq hmk _ _

theorem packConfig_eq (d : ConfigDescriptor) : packConfig out d = (buildConfig d).map fun c => out ++ c.pack := by
  rw [packConfig, packExtra_eq, buildConfig]
  cases vectorOfExtra d.extra d.extraLength with
  | none => rfl
  | some extra =>
    exact children_eq packInterface_eq (fun interface => by simp [Config.pack, List.append_assoc]) _ _

theorem packBosDevCapabilityDescriptor_eq (d : Libusb.BosDevCapabilityDescriptor) :
    packBosDevCapabilityDescriptor out d = (buildBosDevCapability d).map fun c => out ++ c.pack := by
  have hsize : ((packedSize d.described.members).setWidth 32 : I32) = 3 := by
    simp [packedSize, LibusbBosDevCapabilityDescriptor.members]
  rw [packBosDevCapabilityDescriptor, hsize, buildBosDevCapability, Option.map_map]
  congr 1
  funext capData
  exact List.append_assoc ..

theorem packBos_eq (d : BosDescriptor) : packBos out d = (buildBos d).map fun b => out ++ b.pack :=
  children_eq packBosDevCapabilityDescriptor_eq (fun caps => by simp [Bos.pack, List.append_assoc]) _ _

end Packer

/-! ### Matching counts -/

namespace Libusb

/-- The array has as many elements as the count says. -/
def Pointer.Has {α : Type} (begin_ : Pointer α) (count : BitVec 64) : Prop := (begin_.getD []).length = count.toNat

structure EndpointDescriptor.Counted (d : EndpointDescriptor) : Prop where
  extra : d.extra.Has (ofInt d.extraLength)

structure InterfaceDescriptor.Counted (d : InterfaceDescriptor) : Prop where
  extra : d.extra.Has (ofInt d.extraLength)
  endpoint : d.endpoint.Has (ofByte d.described.bNumEndpoints)
  endpoints : ∀ e ∈ d.endpoint.getD [], e.Counted

structure Interface.Counted (i : Interface) : Prop where
  altsetting : i.altsetting.Has (ofInt i.numAltsetting)
  altsettings : ∀ a ∈ i.altsetting.getD [], a.Counted

structure ConfigDescriptor.Counted (d : ConfigDescriptor) : Prop where
  extra : d.extra.Has (ofInt d.extraLength)
  interface : d.interface.Has (ofByte d.described.bNumInterfaces)
  interfaces : ∀ i ∈ d.interface.getD [], i.Counted

structure BosDevCapabilityDescriptor.Counted (d : BosDevCapabilityDescriptor) : Prop where
  bLength : 3 ≤ d.described.bLength.toNat
  devCapabilityData : d.devCapabilityData.length = d.described.bLength.toNat - 3

structure BosDescriptor.Counted (d : BosDescriptor) : Prop where
  devCapability : d.devCapability.length = d.described.bNumDeviceCaps.toNat
  devCapabilities : ∀ c ∈ d.devCapability, c.Counted

theorem vectorize_of_has {α : Type} {begin_ : Pointer α} {count : BitVec 64} (h : begin_.Has count) :
    vectorize begin_ count = some (begin_.getD []) := by
  cases begin_ with
  | none => rfl
  | some xs =>
    have hlen : xs.length = count.toNat := h
    by_cases hzero : count = 0
    · subst hzero
      have hnil : xs = [] := List.eq_nil_of_length_eq_zero hlen
      simp [vectorize, hnil]
    · rw [vectorize, if_neg hzero, if_pos (le_of_eq hlen.symm), ← hlen, List.take_length, Option.getD_some]

theorem exists_mapM {α β : Type} {f : α → Option β} : ∀ {xs : List α}, (∀ x ∈ xs, ∃ y, f x = some y) →
    ∃ ys, xs.mapM f = some ys
  | [], _ => ⟨[], by simp⟩
  | x :: xs, h => by
    obtain ⟨y, hy⟩ := h x List.mem_cons_self
    obtain ⟨ys, hys⟩ := exists_mapM fun x' hx' => h x' (List.mem_cons_of_mem x hx')
    exact ⟨y :: ys, by simp [List.mapM_cons, hy, hys]⟩

end Libusb

namespace Tree

theorem buildEndpoint_of_counted {d : EndpointDescriptor} (h : d.Counted) : ∃ e, buildEndpoint d = some e :=
  ⟨_, by rw [buildEndpoint, vectorOfExtra, vectorize_of_has h.extra, Option.map_some]⟩

theorem buildInterfaceDescriptor_of_counted {d : InterfaceDescriptor} (h : d.Counted) :
    ∃ i, buildInterfaceDescriptor d = some i := by
  obtain ⟨ep, hep⟩ := exists_mapM fun e he => buildEndpoint_of_counted (h.endpoints e he)
  refine ⟨⟨d.described, d.extra.getD [], ep⟩, ?_⟩
  rw [buildInterfaceDescriptor, vectorOfExtra, vectorize_of_has h.extra, vectorize_of_has h.endpoint,
    Option.bind_some, Option.bind_some, hep, Option.map_some]

theorem buildInterface_of_counted {i : Libusb.Interface} (h : i.Counted) : ∃ t, buildInterface i = some t := by
  obtain ⟨altsetting, haltsetting⟩ := exists_mapM fun a ha => buildInterfaceDescriptor_of_counted (h.altsettings a ha)
  refine ⟨⟨altsetting⟩, ?_⟩
  rw [buildInterface, vectorize_of_has h.altsetting, Option.bind_some, haltsetting, Option.map_some]

theorem buildConfig_of_counted {d : ConfigDescriptor} (h : d.Counted) : ∃ c, buildConfig d = some c := by
  obtain ⟨interface, hinterface⟩ := exists_mapM fun i hi => buildInterface_of_counted (h.interfaces i hi)
  refine ⟨⟨d.described, d.extra.getD [], interface⟩, ?_⟩
  rw [buildConfig, vectorOfExtra, vectorize_of_has h.extra, vectorize_of_has h.interface, Option.bind_some,
    Option.bind_some, hinterface, Option.map_some]

/-- Three bytes of it are the descriptor. -/
theorem toNat_capDataSize {bLength : U8} (h : 3 ≤ bLength.toNat) :
    (ofInt (bLength.setWidth 32 - 3)).toNat = bLength.toNat - 3 := by
  have hwide : (bLength.setWidth 32 : I32).toNat = bLength.toNat := by
    rw [BitVec.toNat_setWidth]
    have hlt := bLength.isLt
    omega
  have hsub : (bLength.setWidth 32 - 3 : I32).toNat = bLength.toNat - 3 := by
    have hle : (3 : I32) ≤ bLength.setWidth 32 := by
      rw [BitVec.le_def, hwide]
      exact h
    rw [BitVec.toNat_sub_of_le hle, hwide]
    rfl
  have hint : 0 ≤ (bLength.setWidth 32 - 3 : I32).toInt := by
    rw [BitVec.toInt_eq_toNat_cond, hsub]
    have hlt := bLength.isLt
    split <;> omega
  rw [ofInt, Ints.toNat_signExtend hint, hsub]

theorem buildBos_of_counted {d : BosDescriptor} (h : d.Counted) : ∃ b, buildBos d = some b := by
  have hcaps : ∀ c ∈ d.devCapability, ∃ t, buildBosDevCapability c = some t := fun c hc => by
    have hc := h.devCapabilities c hc
    have hdata : Pointer.Has (some c.devCapabilityData) (ofInt (c.described.bLength.setWidth 32 - 3)) := by
      rw [Pointer.Has, toNat_capDataSize hc.bLength]
      exact hc.devCapabilityData
    exact ⟨_, by rw [buildBosDevCapability, vectorize_of_has hdata, Option.map_some]⟩
  have harray : Pointer.Has (some d.devCapability) (ofByte d.described.bNumDeviceCaps) := by
    have hcount : (ofByte d.described.bNumDeviceCaps).toNat = d.described.bNumDeviceCaps.toNat := by
      rw [ofByte, BitVec.toNat_setWidth]
      have hlt := d.described.bNumDeviceCaps.isLt
      omega
    rw [Pointer.Has, hcount]
    exact h.devCapability
  obtain ⟨devCapability, hdevCapability⟩ := exists_mapM hcaps
  refine ⟨⟨d.described, devCapability⟩, ?_⟩
  rw [buildBos, vectorize_of_has harray, Option.bind_some, Option.getD_some, hdevCapability, Option.map_some]

end Tree

/-- **The packers agree**: what is appended for a descriptor of libusb is what the tree built
from it packs to. -/
theorem packers_agree :
    (∀ d : ConfigDescriptor, d.Counted → ∃ c, Tree.buildConfig d = some c ∧
      ∀ packedData, Packer.packConfig packedData d = some (packedData ++ c.pack)) ∧
    ∀ d : BosDescriptor, d.Counted → ∃ b, Tree.buildBos d = some b ∧
      ∀ packedData, Packer.packBos packedData d = some (packedData ++ b.pack) := by
  refine ⟨fun d h => ?_, fun d h => ?_⟩
  · obtain ⟨c, hc⟩ := Tree.buildConfig_of_counted h
    exact ⟨c, hc, fun packedData => by rw [Packer.packConfig_eq, hc, Option.map_some]⟩
  · obtain ⟨b, hb⟩ := Tree.buildBos_of_counted h
    exact ⟨b, hb, fun packedData => by rw [Packer.packBos_eq, hb, Option.map_some]⟩

/-- A keyboard, as libusb reads it. -/
def Libusb.keyboard : ConfigDescriptor :=
  let hid : InterfaceDescriptor :=
    { described := ⟨9, 4, 0, 0, 1, 3, 1, 1, 0⟩
      endpoint := some [⟨⟨7, 5, 0x81, 3, 8, 10, 0, 0⟩, none, 0⟩]
      extra := some [9, 0x21, 0x11, 1, 0, 1, 0x22, 63, 0]
      extraLength := 9 }
  ⟨⟨9, 2, 34, 1, 1, 0, 0xa0, 50⟩, some [⟨some [hid], 1⟩], none, 0⟩

theorem Libusb.counted_keyboard : Libusb.keyboard.Counted := by
  refine ⟨rfl, rfl, fun i hi => ?_⟩
  rw [List.mem_singleton.mp hi]
  refine ⟨rfl, fun a ha => ?_⟩
  rw [List.mem_singleton.mp ha]
  refine ⟨rfl, rfl, fun e he => ?_⟩
  rw [List.mem_singleton.mp he]
  exact ⟨rfl⟩

/-- Of the USB 2.0 extension. -/
def Libusb.extension : BosDescriptor := ⟨⟨5, 15, 12, 1⟩, [⟨⟨7, 16, 2⟩, [6, 0, 0, 0]⟩]⟩

theorem Libusb.counted_extension : Libusb.extension.Counted := by
  refine ⟨rfl, fun c hc => ?_⟩
  rw [List.mem_singleton.mp hc]
  exact ⟨by decide, rfl⟩

theorem packers_agree_keyboard :
    Packer.packConfig [] Libusb.keyboard = some [9, 2, 34, 0, 1, 1, 0, 0xa0, 50, 9, 4, 0, 0, 1, 3, 1, 1, 0,
      9, 0x21, 0x11, 1, 0, 1, 0x22, 63, 0, 7, 5, 0x81, 3, 8, 0, 10] ∧
    Packer.packBos [] Libusb.extension = some [5, 15, 12, 0, 1, 7, 16, 2, 6, 0, 0, 0] := by
  obtain ⟨hconfig, hbos⟩ := packers_agree
  obtain ⟨c, hc, hpack⟩ := hconfig Libusb.keyboard counted_keyboard
  obtain ⟨b, hb, hpack'⟩ := hbos Libusb.extension counted_extension
  have hc' : some c.pack = (Tree.buildConfig Libusb.keyboard).map Config.pack := by rw [hc, Option.map_some]
  have hb' : some b.pack = (Tree.buildBos Libusb.extension).map Bos.pack := by rw [hb, Option.map_some]
  refine ⟨(hpack []).trans (hc'.trans ?_), (hpack' []).trans (hb'.trans ?_)⟩
  · decide +kernel
  · decide +kernel

end Viu
