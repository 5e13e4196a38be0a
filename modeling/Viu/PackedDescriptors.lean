/-
# Packed descriptors

A packed tree is a row of descriptors, each of which begins with its length:
its own, in the order of the tree, and those in the extra bytes. So the bytes
can be walked by their lengths (`Config.Walkable.covers`,
`Bos.Walkable.covers`), and where the types tell the descriptors apart and the
interfaces are numbered the tree can be read off the walk: two trees with the
same bytes are the same in all that is packed (`Config.pack_inj`).
-/
import Viu.Descriptors
import Viu.Lib.Cut
import Viu.Lib.Records

namespace Viu

open Bytes Cut Records

/-! ### The layout of a descriptor -/

def lowByte (v : U16) : U8 := v.setWidth 8

def highByte (v : U16) : U8 := (v >>> 8).setWidth 8

/-- The bytes by their offset, as the USB standard has them. -/
def LibusbConfigDescriptor.layout (d : LibusbConfigDescriptor) : List U8 :=
  [d.bLength, d.bDescriptorType, lowByte d.wTotalLength, highByte d.wTotalLength, d.bNumInterfaces,
    d.bConfigurationValue, d.iConfiguration, d.bmAttributes, d.maxPower]

def LibusbInterfaceDescriptor.layout (d : LibusbInterfaceDescriptor) : List U8 :=
  [d.bLength, d.bDescriptorType, d.bInterfaceNumber, d.bAlternateSetting, d.bNumEndpoints, d.bInterfaceClass,
    d.bInterfaceSubClass, d.bInterfaceProtocol, d.iInterface]

def LibusbEndpointDescriptor.layout (d : LibusbEndpointDescriptor) : List U8 :=
  [d.bLength, d.bDescriptorType, d.bEndpointAddress, d.bmAttributes, lowByte d.wMaxPacketSize,
    highByte d.wMaxPacketSize, d.bInterval] ++ if d.isAudio then [d.bRefresh, d.bSynchAddress] else []

def LibusbBosDescriptor.layout (d : LibusbBosDescriptor) : List U8 :=
  [d.bLength, d.bDescriptorType, lowByte d.wTotalLength, highByte d.wTotalLength, d.bNumDeviceCaps]

def LibusbBosDevCapabilityDescriptor.layout (d : LibusbBosDevCapabilityDescriptor) : List U8 :=
  [d.bLength, d.bDescriptorType, d.bDevCapabilityType]

theorem packMembers_cons (m : Member) (members : List Member) :
    packMembers (m :: members) = store .little m.2 ++ packMembers members := rfl

theorem store_byte (v : U8) : store .little v = [v] := by
  show [BitVec.ofNat 8 v.toNat] = [v]
  rw [BitVec.ofNat_toNat, BitVec.setWidth_eq]

theorem store_word (v : U16) : store .little v = [lowByte v, highByte v] := by
  have hhigh : BitVec.ofNat 8 (v.toNat / 256) = highByte v := by
    rw [highByte, ← BitVec.ofNat_toNat, BitVec.toNat_ushiftRight, Nat.shiftRight_eq_div_pow]
  show [BitVec.ofNat 8 v.toNat, BitVec.ofNat 8 (v.toNat / 256)] = [lowByte v, highByte v]
  rw [hhigh, BitVec.ofNat_toNat]
  rfl

theorem packMembers_nil : packMembers [] = [] := rfl

theorem LibusbConfigDescriptor.pack_eq (d : LibusbConfigDescriptor) : packMembers d.members = d.layout := by
  simp only [members, packMembers_cons, packMembers_nil, store_byte, store_word]
  rfl

theorem LibusbInterfaceDescriptor.pack_eq (d : LibusbInterfaceDescriptor) : packMembers d.members = d.layout := by
  simp only [members, packMembers_cons, packMembers_nil, store_byte]
  rfl

theorem LibusbEndpointDescriptor.pack_eq (d : LibusbEndpointDescriptor) : d.pack = d.layout := by
  unfold pack layout
  split <;>
  · simp only [audioMembers, members, List.cons_append, List.nil_append, packMembers_cons, packMembers_nil,
      store_byte, store_word]

theorem LibusbBosDescriptor.pack_eq (d : LibusbBosDescriptor) : packMembers d.members = d.layout := by
  simp only [members, packMembers_cons, packMembers_nil, store_byte, store_word]
  rfl

theorem LibusbBosDevCapabilityDescriptor.pack_eq (d : LibusbBosDevCapabilityDescriptor) :
    packMembers d.members = d.layout := by
  simp only [members, packMembers_cons, packMembers_nil, store_byte]
  rfl

theorem LibusbEndpointDescriptor.length_layout (d : LibusbEndpointDescriptor) :
    d.layout.length = if d.isAudio then 9 else 7 := by
  unfold layout
  split <;> rfl

/-! ### The layout determines the fields -/

theorem word_eq {v w : U16} (hlow : lowByte v = lowByte w) (hhigh : highByte v = highByte w) : v = w := by
  have hv : store .little v = store .little w := by rw [store_word, store_word, hlow, hhigh]
  rw [← load_store (by decide) .little v, hv, load_store (by decide)]

theorem LibusbConfigDescriptor.layout_inj {d d' : LibusbConfigDescriptor} (h : d.layout = d'.layout) : d = d' := by
  obtain ⟨bLength, bDescriptorType, wTotalLength, bNumInterfaces, bConfigurationValue, iConfiguration, bmAttributes,
    maxPower⟩ := d
  simp only [layout, List.cons.injEq, and_true] at h
  obtain ⟨rfl, rfl, hlow, hhigh, rfl, rfl, rfl, rfl, rfl⟩ := h
  rw [word_eq hlow hhigh]

theorem LibusbInterfaceDescriptor.layout_inj {d d' : LibusbInterfaceDescriptor} (h : d.layout = d'.layout) :
    d = d' := by
  cases d
  simp only [layout, List.cons.injEq, and_true] at h
  obtain ⟨rfl, rfl, rfl, rfl, rfl, rfl, rfl, rfl, rfl⟩ := h
  rfl

/-- The fields that are packed, the others zero. -/
def LibusbEndpointDescriptor.packed (d : LibusbEndpointDescriptor) : LibusbEndpointDescriptor :=
  if d.isAudio then d else { d with bRefresh := 0, bSynchAddress := 0 }

theorem LibusbEndpointDescriptor.layout_inj {d d' : LibusbEndpointDescriptor} (h : d.layout = d'.layout) :
    d.packed = d'.packed := by
  obtain ⟨bLength, bDescriptorType, bEndpointAddress, bmAttributes, wMaxPacketSize, bInterval, bRefresh,
    bSynchAddress⟩ := d
  simp only [layout, List.cons_append, List.nil_append, List.cons.injEq] at h
  obtain ⟨rfl, rfl, rfl, rfl, hlow, hhigh, rfl, hrest⟩ := h
  obtain rfl := word_eq hlow hhigh
  unfold packed
  by_cases haudio : d'.bLength = 0x09#8
  · simp only [isAudio, haudio, decide_true, ↓reduceIte, List.cons.injEq, and_true] at hrest ⊢
    obtain ⟨rfl, rfl⟩ := hrest
    rw [← haudio]
  · simp only [isAudio, haudio, decide_false, Bool.false_eq_true, ↓reduceIte]

/-! ### What a walk visits -/

/-- A descriptor: its first byte is its length, 2 at least. -/
abbrev IsDescriptor (d : List U8) : Prop := IsRecord BitVec.toNat 2 d

/-- From descriptor to descriptor by `bLength`; nothing, if it does not end with the bytes. -/
abbrev walkDescriptors (bs : List U8) : Option (List (List U8)) := walk BitVec.toNat 2 bs

/-- The descriptors of extra bytes. -/
def extras (extra : List U8) : List (List U8) := (walkDescriptors extra).getD []

/-- The extra bytes are descriptors in a row. -/
def IsChain (extra : List U8) : Prop := ∃ ds : List (List U8), extra = ds.flatten ∧ ∀ d ∈ ds, IsDescriptor d

theorem isChain_iff {extra : List U8} : IsChain extra ↔ (walkDescriptors extra).isSome = true := by
  rw [Option.isSome_iff_exists]
  exact exists_congr fun ds => (walk_eq_some_iff (by decide)).symm

instance (extra : List U8) : Decidable (IsChain extra) := decidable_of_iff _ isChain_iff.symm

theorem IsChain.extras {extra : List U8} (h : IsChain extra) :
    (extras extra).flatten = extra ∧ ∀ d ∈ extras extra, IsDescriptor d := by
  obtain ⟨ds, rfl, hds⟩ := h
  have hwalk : walkDescriptors ds.flatten = some ds := walk_flatten (by decide) hds
  have hextras : Viu.extras ds.flatten = ds := by rw [Viu.extras, hwalk, Option.getD_some]
  rw [hextras]
  exact ⟨rfl, hds⟩

def Endpoint.descriptors (e : Endpoint) : List (List U8) := e.wrapped.layout :: extras e.extra

def Interface.descriptors (i : Interface) : List (List U8) :=
  i.wrapped.layout :: (extras i.extra ++ i.ep.flatMap Endpoint.descriptors)

def UsbInterface.descriptors (i : UsbInterface) : List (List U8) := i.altsetting.flatMap Interface.descriptors

def Config.descriptors (c : Config) : List (List U8) :=
  c.wrapped.layout :: (extras c.extra ++ c.interface.flatMap UsbInterface.descriptors)

def Bos.descriptors (b : Bos) : List (List U8) :=
  b.wrapped.layout :: b.devCapability.map fun d => d.wrapped.layout ++ d.devCapabilityData

/-! ### Trees with their lengths -/

structure Endpoint.Walkable (e : Endpoint) : Prop where
  bLength : e.wrapped.bLength = 7 ∨ e.wrapped.bLength = 9
  extra : IsChain e.extra

structure Interface.Walkable (i : Interface) : Prop where
  bLength : i.wrapped.bLength = 9
  extra : IsChain i.extra
  ep : ∀ e ∈ i.ep, e.Walkable

/-- The lengths are those of what is packed. -/
structure Config.Walkable (c : Config) : Prop where
  bLength : c.wrapped.bLength = 9
  extra : IsChain c.extra
  altsetting : ∀ i ∈ c.interface, ∀ a ∈ i.altsetting, a.Walkable

structure Bos.Walkable (b : Bos) : Prop where
  bLength : b.wrapped.bLength = 5
  devCapability : ∀ d ∈ b.devCapability, d.wrapped.bLength.toNat = 3 + d.devCapabilityData.length

/-- The bytes are these descriptors. -/
structure Covers (bs : List U8) (ds : List (List U8)) : Prop where
  eq : bs = ds.flatten
  all : ∀ d ∈ ds, IsDescriptor d

theorem Covers.walk {bs : List U8} {ds : List (List U8)} (h : Covers bs ds) : walkDescriptors bs = some ds := by
  rw [h.eq]
  exact walk_flatten (by decide) h.all

theorem covers_extras {extra : List U8} (h : IsChain extra) : Covers extra (extras extra) :=
  ⟨h.extras.1.symm, h.extras.2⟩

theorem Covers.cons {d bs : List U8} {ds : List (List U8)} (hd : IsDescriptor d) (h : Covers bs ds) :
    Covers (d ++ bs) (d :: ds) :=
  ⟨by rw [List.flatten_cons, h.eq], List.forall_mem_cons.mpr ⟨hd, h.all⟩⟩

theorem Covers.append {bs bs' : List U8} {ds ds' : List (List U8)} (h : Covers bs ds) (h' : Covers bs' ds') :
    Covers (bs ++ bs') (ds ++ ds') :=
  ⟨by rw [List.flatten_append, h.eq, h'.eq], List.forall_mem_append.mpr ⟨h.all, h'.all⟩⟩

theorem covers_flatMap {β : Type} {pack : β → List U8} {descriptors : β → List (List U8)} {bs : List β}
    (h : ∀ b ∈ bs, Covers (pack b) (descriptors b)) : Covers (bs.flatMap pack) (bs.flatMap descriptors) := by
  induction bs with
  | nil => exact ⟨rfl, fun d hd => nomatch hd⟩
  | cons b bs ih =>
    rw [List.flatMap_cons, List.flatMap_cons]
    exact (h b List.mem_cons_self).append (ih fun x hx => h x (List.mem_cons_of_mem b hx))

theorem Endpoint.Walkable.covers {e : Endpoint} (h : e.Walkable) : Covers e.pack e.descriptors := by
  have hlen : e.wrapped.bLength.toNat = e.wrapped.layout.length := by
    rw [LibusbEndpointDescriptor.length_layout, LibusbEndpointDescriptor.isAudio]
    rcases h.bLength with hseven | hnine
    · rw [hseven]
      rfl
    · rw [hnine]
      rfl
  rw [pack, LibusbEndpointDescriptor.pack_eq]
  refine .cons ⟨e.wrapped.bLength, rfl, hlen, ?_⟩ (covers_extras h.extra)
  rw [LibusbEndpointDescriptor.length_layout]
  split <;> decide

theorem Interface.Walkable.covers {i : Interface} (h : i.Walkable) : Covers i.pack i.descriptors := by
  rw [pack, LibusbInterfaceDescriptor.pack_eq, List.append_assoc]
  refine .cons ⟨i.wrapped.bLength, rfl, ?_, by simp [LibusbInterfaceDescriptor.layout]⟩ ?_
  · rw [h.bLength]
    rfl
  · exact (covers_extras h.extra).append (covers_flatMap fun e he => (h.ep e he).covers)

theorem Config.Walkable.covers {c : Config} (h : c.Walkable) : Covers c.pack c.descriptors := by
  rw [pack, LibusbConfigDescriptor.pack_eq, List.append_assoc]
  refine .cons ⟨c.wrapped.bLength, rfl, ?_, by simp [LibusbConfigDescriptor.layout]⟩ ?_
  · rw [h.bLength]
    rfl
  · refine (covers_extras h.extra).append (covers_flatMap fun i hi => ?_)
    exact covers_flatMap fun a ha => (h.altsetting i hi a ha).covers

theorem Bos.Walkable.covers {b : Bos} (h : b.Walkable) : Covers b.pack b.descriptors := by
  rw [pack, LibusbBosDescriptor.pack_eq]
  refine .cons ⟨b.wrapped.bLength, rfl, ?_, by simp [LibusbBosDescriptor.layout]⟩ ?_
  · rw [h.bLength]
    rfl
  · rw [← List.flatMap_singleton' (b.devCapability.map _), List.flatMap_map]
    refine covers_flatMap fun d hd => ?_
    rw [BosDevCapabilityDescriptor.pack, LibusbBosDevCapabilityDescriptor.pack_eq]
    refine ⟨by simp, fun x hx => ?_⟩
    rw [List.mem_singleton.mp hx]
    have hlen : (d.wrapped.layout ++ d.devCapabilityData).length = 3 + d.devCapabilityData.length :=
      List.length_append
    refine ⟨d.wrapped.bLength, rfl, ?_, by omega⟩
    rw [h.devCapability d hd, hlen]

/-! ### The tree of the bytes -/

/-- `bDescriptorType` of a descriptor. -/
def isType (t : U8) (d : List U8) : Bool := d[1]? = some t

/-- No interface and no endpoint among the extra descriptors. -/
def NoTree (extra : List U8) : Prop := ∀ d ∈ extras extra, isType 4 d = false ∧ isType 5 d = false

instance (extra : List U8) : Decidable (NoTree extra) := inferInstanceAs (Decidable (∀ d ∈ extras extra, _))

structure Endpoint.Typed (e : Endpoint) : Prop where
  bDescriptorType : e.wrapped.bDescriptorType = 5
  extra : NoTree e.extra

structure Interface.Typed (i : Interface) : Prop where
  bDescriptorType : i.wrapped.bDescriptorType = 4
  extra : NoTree i.extra
  ep : ∀ e ∈ i.ep, e.Typed

def Interface.number (a : Interface) : ℕ := a.wrapped.bInterfaceNumber.toNat

/-- The types tell the descriptors apart, and the altsettings of an interface have its
number. -/
structure Config.Typed (c : Config) : Prop where
  bDescriptorType : c.wrapped.bDescriptorType = 2
  extra : NoTree c.extra
  altsetting : ∀ i ∈ c.interface, ∀ a ∈ i.altsetting, a.Typed
  numbered : Numbered Interface.number 0 (c.interface.map UsbInterface.altsetting)

/-- What is packed of the tree. -/
def Endpoint.packed (e : Endpoint) : Endpoint := { e with wrapped := e.wrapped.packed }

def Interface.packed (i : Interface) : Interface := { i with ep := i.ep.map Endpoint.packed }

def UsbInterface.packed (i : UsbInterface) : UsbInterface := ⟨i.altsetting.map Interface.packed⟩

def Config.packed (c : Config) : Config := { c with interface := c.interface.map UsbInterface.packed }

theorem extra_of_extras {extra extra' : List U8} (h : IsChain extra) (h' : IsChain extra')
    (heq : extras extra = extras extra') : extra = extra' := by
  rw [← h.extras.1, heq, h'.extras.1]

theorem Endpoint.packed_eq {e e' : Endpoint} (h : e.Walkable) (h' : e'.Walkable)
    (hlayout : e.wrapped.layout = e'.wrapped.layout) (hextra : extras e.extra = extras e'.extra) :
    e.packed = e'.packed := by
  rw [packed, packed, LibusbEndpointDescriptor.layout_inj hlayout, extra_of_extras h.extra h'.extra hextra]

theorem isType_endpoint {e : Endpoint} (h : e.Typed) (t : U8) : isType t e.wrapped.layout = decide (5 = t) := by
  rw [← h.bDescriptorType]
  simp [isType, LibusbEndpointDescriptor.layout]

theorem isType_interface {i : Interface} (h : i.Typed) (t : U8) : isType t i.wrapped.layout = decide (4 = t) := by
  rw [← h.bDescriptorType]
  simp [isType, LibusbInterfaceDescriptor.layout]

/-- An endpoint and its extra descriptors. -/
theorem isGroup_endpoint {e : Endpoint} (h : e.Typed) :
    IsGroup (fun d => !isType 5 d) (fun e : Endpoint => e.wrapped.layout) (fun e => extras e.extra) e where
  head := by rw [isType_endpoint h]; rfl
  tail d hd := by rw [(h.extra d hd).2]; rfl

/-- An interface, and what belongs to it. -/
theorem isGroup_interface {i : Interface} (h : i.Typed) :
    IsGroup (fun d => !isType 4 d) (fun i : Interface => i.wrapped.layout)
      (fun i => extras i.extra ++ i.ep.flatMap Endpoint.descriptors) i where
  head := by rw [isType_interface h]; rfl
  tail d hd := by
    rcases List.mem_append.mp hd with hd | hd
    · rw [(h.extra d hd).1]
      rfl
    · obtain ⟨e, he, hd⟩ := List.mem_flatMap.mp hd
      rcases List.mem_cons.mp hd with rfl | hd
      · rw [isType_endpoint (h.ep e he)]
        rfl
      · rw [((h.ep e he).extra d hd).1]
        rfl

theorem Interface.packed_eq {i i' : Interface} (h : i.Walkable) (h' : i'.Walkable) (ht : i.Typed) (ht' : i'.Typed)
    (hlayout : i.wrapped.layout = i'.wrapped.layout)
    (htail : extras i.extra ++ i.ep.flatMap Endpoint.descriptors =
      extras i'.extra ++ i'.ep.flatMap Endpoint.descriptors) : i.packed = i'.packed := by
  have hextra : ∀ {x : Interface}, x.Typed → ∀ d ∈ extras x.extra, (!isType 5 d) = true := fun hx d hd => by
    rw [(hx.extra d hd).2]
    rfl
  obtain ⟨hextras, heps⟩ := groups_inj htail (hextra ht) (hextra ht') (fun e he => isGroup_endpoint (ht.ep e he))
    (fun e he => isGroup_endpoint (ht'.ep e he))
  have hep : i.ep.map Endpoint.packed = i'.ep.map Endpoint.packed := by
    refine map_eq_of_map_eq heps fun e he e' he' heq => ?_
    exact Endpoint.packed_eq (h.ep e he) (h'.ep e' he') (Prod.mk.inj heq).1 (Prod.mk.inj heq).2
  rw [packed, packed, LibusbInterfaceDescriptor.layout_inj hlayout, extra_of_extras h.extra h'.extra hextras, hep]

theorem Config.descriptors_eq (c : Config) :
    c.descriptors = c.wrapped.layout ::
      (extras c.extra ++ (c.interface.flatMap UsbInterface.altsetting).flatMap Interface.descriptors) := by
  rw [List.flatMap_assoc]
  rfl

/-- The numbers tell which altsettings are of one interface. -/
theorem interfaces_eq {is is' : List UsbInterface}
    (hnum : Numbered Interface.number 0 (is.map UsbInterface.altsetting))
    (hnum' : Numbered Interface.number 0 (is'.map UsbInterface.altsetting))
    (hflat : (is.flatMap UsbInterface.altsetting).map Interface.packed =
      (is'.flatMap UsbInterface.altsetting).map Interface.packed) :
    is.map UsbInterface.packed = is'.map UsbInterface.packed := by
  have hpacked : ∀ a : Interface, a.packed.number = a.number := fun _ => rfl
  have hnested : (is.map UsbInterface.altsetting).map (List.map Interface.packed) =
      (is'.map UsbInterface.altsetting).map (List.map Interface.packed) := by
    apply Cut.flatten_inj (hnum.map hpacked) (hnum'.map hpacked)
    rw [← List.map_flatten, ← List.map_flatten]
    exact hflat
  have hmk := congrArg (List.map UsbInterface.mk) hnested
  simp only [List.map_map] at hmk
  exact hmk

/-- Equal bytes are of trees that are equal in all that is packed. -/
theorem Config.pack_inj {c c' : Config} (h : c.Walkable) (h' : c'.Walkable) (ht : c.Typed) (ht' : c'.Typed)
    (hpack : c.pack = c'.pack) : c.packed = c'.packed := by
  have hwalk : some c.descriptors = some c'.descriptors := by rw [← h.covers.walk, ← h'.covers.walk, hpack]
  have hdescriptors := Option.some.inj hwalk
  rw [descriptors_eq, descriptors_eq] at hdescriptors
  obtain ⟨hlayout, htail⟩ := List.cons.inj hdescriptors
  have hextra : ∀ {x : Config}, x.Typed → ∀ d ∈ extras x.extra, (!isType 4 d) = true := fun hx d hd => by
    rw [(hx.extra d hd).1]
    rfl
  have hmem : ∀ {x : Config} {P : Interface → Prop}, (∀ i ∈ x.interface, ∀ a ∈ i.altsetting, P a) →
      ∀ a ∈ x.interface.flatMap UsbInterface.altsetting, P a := fun hx a ha => by
    obtain ⟨i, hi, ha⟩ := List.mem_flatMap.mp ha
    exact hx i hi a ha
  obtain ⟨hextras, haltsettings⟩ := groups_inj htail (hextra ht) (hextra ht')
    (fun a ha => isGroup_interface (hmem ht.altsetting a ha))
    (fun a ha => isGroup_interface (hmem ht'.altsetting a ha))
  have hflat : (c.interface.flatMap UsbInterface.altsetting).map Interface.packed =
      (c'.interface.flatMap UsbInterface.altsetting).map Interface.packed := by
    refine map_eq_of_map_eq haltsettings fun a ha a' ha' heq => ?_
    exact Interface.packed_eq (hmem h.altsetting a ha) (hmem h'.altsetting a' ha') (hmem ht.altsetting a ha)
      (hmem ht'.altsetting a' ha') (Prod.mk.inj heq).1 (Prod.mk.inj heq).2
  have hinterface := interfaces_eq ht.numbered ht'.numbered hflat
  rw [packed, packed, LibusbConfigDescriptor.layout_inj hlayout, extra_of_extras h.extra h'.extra hextras, hinterface]

/-- **Packed descriptors can be walked** from descriptor to descriptor, and a
configuration be read off the walk. -/
theorem packed_descriptors :
    (∀ c : Config, c.Walkable → walkDescriptors c.pack = some c.descriptors) ∧
    (∀ c c' : Config, c.Walkable → c'.Walkable → c.Typed → c'.Typed → c.pack = c'.pack → c.packed = c'.packed) ∧
    ∀ b : Bos, b.Walkable → walkDescriptors b.pack = some b.descriptors :=
  ⟨fun _ h => h.covers.walk, fun _ _ h h' ht ht' => Config.pack_inj h h' ht ht', fun _ h => h.covers.walk⟩

/-- A keyboard's interface, with its HID descriptor and an endpoint. -/
def keyboardInterface (bRefresh : U8) : Interface :=
  ⟨⟨9, 4, 0, 0, 1, 3, 1, 1, 0⟩, [9, 0x21, 0x11, 1, 0, 1, 0x22, 63, 0], [⟨⟨7, 5, 0x81, 3, 8, 10, bRefresh, 0⟩, []⟩]⟩

def keyboard (bRefresh : U8) : Config := ⟨⟨9, 2, 34, 1, 1, 0, 0xa0, 50⟩, [], [⟨[keyboardInterface bRefresh]⟩]⟩

theorem walkable_keyboard (bRefresh : U8) : (keyboard bRefresh).Walkable := by
  have hnil : IsChain [] := by decide
  have hhid : IsChain [9, 0x21, 0x11, 1, 0, 1, 0x22, 63, 0] := by decide +kernel
  refine ⟨rfl, hnil, fun i hi a ha => ?_⟩
  obtain rfl := List.mem_singleton.mp hi
  obtain rfl := List.mem_singleton.mp ha
  refine ⟨rfl, hhid, fun e he => ?_⟩
  rw [List.mem_singleton.mp he]
  exact ⟨.inl rfl, hnil⟩

theorem typed_keyboard (bRefresh : U8) : (keyboard bRefresh).Typed := by
  have hnil : NoTree [] := by decide
  have hhid : NoTree [9, 0x21, 0x11, 1, 0, 1, 0x22, 63, 0] := by decide +kernel
  have hnumbered : ∀ a ∈ [keyboardInterface bRefresh], a.number = 0 := fun a ha => by
    rw [List.mem_singleton.mp ha]
    rfl
  refine ⟨rfl, hnil, fun i hi a ha => ?_, List.cons_ne_nil _ _, hnumbered, trivial⟩
  obtain rfl := List.mem_singleton.mp hi
  obtain rfl := List.mem_singleton.mp ha
  refine ⟨rfl, hhid, fun e he => ?_⟩
  rw [List.mem_singleton.mp he]
  exact ⟨rfl, hnil⟩

/-- A BOS with the USB 2.0 extension. -/
def extensionBos : Bos := ⟨⟨5, 15, 12, 1⟩, [⟨⟨7, 16, 2⟩, [6, 0, 0, 0]⟩]⟩

theorem packed_descriptors_keyboard :
    walkDescriptors (keyboard 0).pack = some [[9, 2, 34, 0, 1, 1, 0, 0xa0, 50], [9, 4, 0, 0, 1, 3, 1, 1, 0],
      [9, 0x21, 0x11, 1, 0, 1, 0x22, 63, 0], [7, 5, 0x81, 3, 8, 0, 10]] ∧
    (keyboard 0).packed = (keyboard 1).packed ∧
    walkDescriptors extensionBos.pack = some [[5, 15, 12, 0, 1], [7, 16, 2, 6, 0, 0, 0]] := by
  obtain ⟨hwalk, hinj, hbos⟩ := packed_descriptors
  refine ⟨(hwalk _ (walkable_keyboard 0)).trans (by decide +kernel), ?_, (hbos _ ⟨rfl, fun d hd => ?_⟩).trans rfl⟩
  · have hpack : (keyboard 0).pack = (keyboard 1).pack := by decide +kernel
    exact hinj _ _ (walkable_keyboard 0) (walkable_keyboard 1) (typed_keyboard 0) (typed_keyboard 1) hpack
  · rw [List.mem_singleton.mp hd]
    rfl

end Viu
