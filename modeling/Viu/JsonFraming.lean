/-
# Sections that keep their numbers

The stream between the parser and the reader has no marks, so each number
the reader takes for a count has to be the count of what the parser wrote. Two
are not made so: the size of a string is the length that its descriptor
states, and the parser writes every configuration where the reader reads one.
Where a document's own numbers keep the two together (`SectionsFramed`), a reader
that comes to the end has read each section from the numbers of that section
(`framed_sections`).
-/
import Viu.JsonLoads

namespace Viu

open Bytes Text Tokens Json Json.Schema

variable {ms : Members} {key : String} {v : Json} {vs : List Json}

/-! ### Numbers and bytes -/

theorem follows_num {n : BitVec 32} {m : ℕ} (h : n.toNat = m) : Follows out (Parser.writeNum n) inSize (· = m) := by
  apply Follows.next
  intro b hb
  have hcast : lexicalCastUnsigned 64 (out n) = .ok (BitVec.ofNat 64 n.toNat) := by
    have hout : out n = out (BitVec.ofNat 64 n.toNat) := by
      rw [out_ofNat (by omega)]
      rfl
    rw [hout, lexicalCastUnsigned_out]
  rw [hcast] at hb
  cases hb
  show (BitVec.ofNat 64 n.toNat).toNat = m
  rw [BitVec.toNat_ofNat]
  omega

theorem follows_u8_num (n : BitVec 32) : Follows out (Parser.writeNum n) inU8 fun _ => True :=
  Follows.next _ fun _ _ => trivial

theorem follows_u8 (x : Except JsonExn (BitVec 32)) : Follows out (Parser.writeRead x) inU8 fun _ => True :=
  Follows.lift (Hungry.next _ _) fun n _ => follows_u8_num n

theorem follows_u16 (x : Except JsonExn (BitVec 32)) : Follows out (Parser.writeRead x) inU16 fun _ => True :=
  Follows.lift (Hungry.next _ _) fun _ _ => Follows.next _ fun _ _ => trivial

theorem hungry_u8 : Hungry inU8 := Hungry.next _ _

theorem hungry_vector : Hungry inVector := (Hungry.next _ _).bind _

/-- The reader of a node begins with a byte of its descriptor. -/
theorem hungry_node {β γ : Type} (f : U8 → In β) (g : β → In γ) : Hungry (Reader.bind (Reader.bind inU8 f) g) :=
  (hungry_u8.bind f).bind g

/-- The reader of a list begins with its size. -/
theorem hungry_list {β γ : Type} (f : ℕ → In β) (g : β → In γ) : Hungry (Reader.bind (Reader.bind inSize f) g) :=
  ((Hungry.next _ _).bind f).bind g

theorem follows_da (vs : List Json) : Follows out (Parser.writeDa vs) (Reader.many inU8 vs.length) fun _ => True :=
  Follows.forEach (Until.of_forall fun v _ => follows_u8 (Parser.readU32 v))

theorem follows_nums (ns : List (BitVec 32)) :
    Follows out (Writer.forEach Parser.writeNum ns) (Reader.many inU8 ns.length) fun _ => True :=
  Follows.forEach (Until.of_forall fun n _ => follows_u8_num n)

theorem follows_fields (d : Members) (keys : List String) :
    Follows out (Parser.writeFields d keys) (Reader.many inU8 keys.length) fun _ => True :=
  Follows.forEach (Until.of_forall fun key _ => follows_u8 (Parser.readU32At d key))

/-! ### Sizes of arrays -/

/-- What the JSON library made. -/
def Parsed (v : Json) : Prop := v.all parsedNode = true

theorem Parsed.size (h : Parsed (array vs)) : vs.length < 2 ^ 32 - 6 := by
  have hle : vs.length ≤ maxStructuredSize := of_decide_eq_true (all_self h)
  have hmax := lt_of_le_maxStructuredSize hle
  omega

theorem lookup_of_memberAt (h : memberAt ms key = .ok v) : ms.lookup key = some v := by
  unfold memberAt at h
  cases hv : ms.lookup key with
  | none =>
    rw [hv] at h
    cases h
  | some x =>
    rw [hv] at h
    cases h
    rfl

theorem Parsed.memberAt (hp : Parsed (object ms)) (h : Viu.memberAt ms key = .ok v) : Parsed v :=
  all_lookup hp (lookup_of_memberAt h)

theorem asObject_ok {ms' : Members} (h : asObject v = .ok ms') : v = object ms' := by
  cases v <;> simp_all [asObject]

theorem asArray_ok (h : asArray v = .ok vs) : v = array vs := by
  cases v <;> simp_all [asArray]

theorem Parsed.objectAt {ms' : Members} (hp : Parsed (object ms)) (h : Viu.objectAt ms key = .ok ms') :
    Parsed (object ms') := by
  unfold Viu.objectAt at h
  cases hv : Viu.memberAt ms key with
  | error e =>
    rw [hv] at h
    cases h
  | ok x =>
    rw [hv] at h
    rw [← asObject_ok h]
    exact hp.memberAt hv

theorem Parsed.arrayAt (hp : Parsed (object ms)) (h : Viu.arrayAt ms key = .ok vs) : Parsed (array vs) := by
  unfold Viu.arrayAt at h
  cases hv : Viu.memberAt ms key with
  | error e =>
    rw [hv] at h
    cases h
  | ok x =>
    rw [hv] at h
    rw [← asArray_ok h]
    exact hp.memberAt hv

/-- `value::at`, then an array. -/
theorem Parsed.arrayAtValue (hp : Parsed v) (h : (valueAt v key >>= asArray) = .ok vs) : Parsed (array vs) := by
  cases v with
  | object ms => exact hp.arrayAt h
  | _ => cases h

theorem Parsed.elem (hp : Parsed (array vs)) (hv : v ∈ vs) : Parsed v := all_elem hp hv

theorem follows_size {n : ℕ} (h : n < 2 ^ 32) : Follows out (Parser.writeSize n) inSize (· = n) :=
  follows_num (toNat_ofNat32 (k := 32) h (by decide))

theorem follows_vector (hp : Parsed (array vs)) :
    Follows out (Writer.bind (Parser.writeSize vs.length) fun _ => Parser.writeDa vs) inVector fun _ => True := by
  have hlt := hp.size
  exact (follows_size (by omega)).counted (follows_da vs)

/-- Each element an object. -/
theorem follows_objects {β : Type} {build : Members → JsonOut} {r : In β} (hr : Hungry r) (hp : Parsed (array vs))
    (h : ∀ ms, Parsed (object ms) → Follows out (build ms) r fun _ => True) :
    Follows out (Parser.forEachObject build vs) (Reader.many r vs.length) fun _ => True := by
  apply Follows.forEach
  apply Until.of_forall
  intro v hv
  apply Follows.lift hr
  intro ms hms
  have hpv := hp.elem hv
  rw [asObject_ok hms] at hpv
  exact h ms hpv

/-! ### Extra bytes -/

theorem follows_companion : Follows out (Parser.buildCompanion ms) (Reader.many inU8 (Parser.companionBytes ms))
    fun _ => True := by
  unfold Parser.buildCompanion Parser.companionBytes
  split
  · apply Follows.lift (hungry_u8.bind _)
    intro ec _
    apply Follows.many_add (m := 4) (n := 2) (follows_fields ec _)
    apply Follows.lift (hungry_u8.bind _)
    exact fun wBytes _ => follows_nums _
  · exact Follows.pure trivial

theorem extraOf_parsed {extra : List Json} (hp : Parsed (object ms)) (h : Parser.extraOf ms = .ok extra) :
    Parsed (array extra) := by
  unfold Parser.extraOf at h
  split at h
  · exact hp.arrayAt h
  · cases h
    rfl

theorem follows_extra (hp : Parsed (object ms)) : Follows out (Parser.buildExtra ms) inVector fun _ => True := by
  apply Follows.lift hungry_vector
  intro extra hextra
  have hlt := (extraOf_parsed hp hextra).size
  have h6 : Parser.companionBytes ms ≤ 6 := by
    unfold Parser.companionBytes
    split <;> omega
  have htotal : (BitVec.ofNat 32 (Parser.companionBytes ms + extra.length)).toNat =
      Parser.companionBytes ms + extra.length := toNat_ofNat32 (k := 32) (by omega) (by decide)
  by_cases h0 : BitVec.ofNat 32 (Parser.companionBytes ms + extra.length) = 0
  · simp only [h0, ne_eq, not_true_eq_false, ↓reduceIte]
    rw [← Writer.bind_pure (Parser.writeNum 0)]
    exact (follows_num rfl).counted (Follows.pure trivial)
  · simp only [h0, ne_eq, not_false_eq_true, ↓reduceIte]
    exact (follows_num htotal).counted (follows_companion.many_add (follows_da extra))

/-! ### The configuration -/

theorem follows_device (d : Members) :
    Follows out (Parser.buildDevice d) LibusbDeviceDescriptor.streamIn fun _ => True :=
  (follows_u8 _).bind fun _ _ => (follows_u8 _).bind fun _ _ => (follows_u16 _).bind fun _ _ =>
    (follows_u8 _).bind fun _ _ => (follows_u8 _).bind fun _ _ => (follows_u8 _).bind fun _ _ =>
    (follows_u8 _).bind fun _ _ => (follows_u16 _).bind fun _ _ => (follows_u16 _).bind fun _ _ =>
    (follows_u16 _).bind fun _ _ => (follows_u8 _).bind fun _ _ => (follows_u8 _).bind fun _ _ =>
    (follows_u8 _).bind fun _ _ => (follows_u8 _).bind fun _ _ => Follows.pure trivial

theorem follows_endpoint (ep : Members) (hp : Parsed (object ep)) :
    Follows out (Parser.buildEndpoint ep) Endpoint.streamIn fun _ => True := by
  apply Follows.lift (hungry_node _ _)
  intro d _
  have hwrapped : Follows out (Parser.writeFields d ["bLength", "bDescriptorType", "bEndpointAddress", "bmAttributes",
      "wMaxPacketSize", "bInterval", "bRefresh", "bSynchAddress"]) LibusbEndpointDescriptor.streamIn fun _ => True :=
    (follows_u8 _).bind fun _ _ => (follows_u8 _).bind fun _ _ => (follows_u8 _).bind fun _ _ =>
      (follows_u8 _).bind fun _ _ => (follows_u16 _).bind fun _ _ => (follows_u8 _).bind fun _ _ =>
      (follows_u8 _).bind fun _ _ => (follows_u8 _).bind fun _ _ => Follows.pure trivial
  exact hwrapped.bind fun _ _ => (follows_extra hp).last fun _ _ => trivial

theorem follows_interface (iface : Members) (hp : Parsed (object iface)) :
    Follows out (Parser.buildInterface iface) Interface.streamIn fun _ => True := by
  apply Follows.lift (hungry_node _ _)
  intro d hd
  have hwrapped : Follows out (Parser.writeFields d ["bLength", "bDescriptorType", "bInterfaceNumber",
      "bAlternateSetting", "bNumEndpoints", "bInterfaceClass", "bInterfaceSubClass", "bInterfaceProtocol",
      "iInterface"]) LibusbInterfaceDescriptor.streamIn fun _ => True :=
    (follows_u8 _).bind fun _ _ => (follows_u8 _).bind fun _ _ => (follows_u8 _).bind fun _ _ =>
      (follows_u8 _).bind fun _ _ => (follows_u8 _).bind fun _ _ => (follows_u8 _).bind fun _ _ =>
      (follows_u8 _).bind fun _ _ => (follows_u8 _).bind fun _ _ => (follows_u8 _).bind fun _ _ =>
      Follows.pure trivial
  apply hwrapped.bind
  intro _ _
  apply Follows.lift (hungry_list _ _)
  intro eps heps
  have hpd := hp.objectAt hd
  have hpeps := hpd.arrayAt heps
  have hlt := hpeps.size
  have hloop := follows_objects (hungry_node _ _) hpeps follows_endpoint
  exact (follows_size (by omega)).counted_bind hloop fun _ => (follows_extra hpd).last fun _ _ => trivial

theorem follows_altsettings (hp : Parsed v) :
    Follows out (Parser.buildAltsettings v) UsbInterface.streamIn fun _ => True := by
  apply Follows.lift (hungry_list _ _)
  intro ifs hifs
  have hpifs := hp.arrayAtValue hifs
  have hlt := hpifs.size
  have hloop := follows_objects (hungry_node _ _) hpifs follows_interface
  exact ((follows_size (by omega)).counted hloop).last fun _ _ => trivial

theorem follows_configuration (cfg : Members) (hp : Parsed (object cfg)) :
    Follows out (Parser.buildConfiguration cfg) Config.streamIn fun _ => True := by
  apply Follows.lift (hungry_node _ _)
  intro d hd
  have hwrapped : Follows out (Parser.writeFields d ["bLength", "bDescriptorType", "wTotalLength", "bNumInterfaces",
      "bConfigurationValue", "iConfiguration", "bmAttributes", "MaxPower"]) LibusbConfigDescriptor.streamIn
      fun _ => True :=
    (follows_u8 _).bind fun _ _ => (follows_u8 _).bind fun _ _ => (follows_u16 _).bind fun _ _ =>
      (follows_u8 _).bind fun _ _ => (follows_u8 _).bind fun _ _ => (follows_u8 _).bind fun _ _ =>
      (follows_u8 _).bind fun _ _ => (follows_u8 _).bind fun _ _ => Follows.pure trivial
  apply hwrapped.bind
  intro _ _
  apply Follows.lift (hungry_list _ _)
  intro alts halts
  have hpalts := (hp.objectAt hd).arrayAt halts
  have hlt := hpalts.size
  have hloop : Follows out (Writer.forEach Parser.buildAltsettings alts)
      (Reader.many UsbInterface.streamIn alts.length) fun _ => True :=
    Follows.forEach (Until.of_forall fun alt halt => follows_altsettings (hpalts.elem halt))
  exact (follows_size (by omega)).counted_bind hloop fun _ => (follows_extra hp).last fun _ _ => trivial

/-! ### The BOS -/

theorem follows_capabilityData {c : Members} (hp : Parsed (object c)) (n : BitVec 32) :
    Follows out (Parser.buildCapabilityData n c) inVector fun _ => True := by
  unfold Parser.buildCapabilityData
  split_ifs
  · apply Follows.lift hungry_vector
    intro ext _
    apply Follows.lift hungry_vector
    exact fun attr _ => (follows_num rfl).counted (follows_nums _)
  · apply Follows.lift hungry_vector
    intro ss _
    exact Follows.lift hungry_vector fun _ _ => Follows.lift hungry_vector fun _ _ =>
      Follows.lift hungry_vector fun _ _ => Follows.lift hungry_vector fun _ _ =>
      Follows.lift hungry_vector fun _ _ => (follows_num rfl).counted (follows_nums _)
  · unfold Parser.buildDevCapability
    split
    · apply Follows.lift hungry_vector
      exact fun d hd => follows_vector (hp.arrayAt hd)
    · rw [← Writer.bind_pure (Parser.writeNum 0)]
      exact (follows_num rfl).counted (Follows.pure trivial)

/-- The reader of a capability, its fields one after the other. -/
theorem capability_streamIn_eq : BosDevCapabilityDescriptor.streamIn =
    Reader.bind inU8 fun bLength => Reader.bind inU8 fun bDescriptorType => Reader.bind inU8 fun bDevCapabilityType =>
      Reader.bind inVector fun data => Reader.pure ⟨⟨bLength, bDescriptorType, bDevCapabilityType⟩, data⟩ := by
  show Reader.bind (Reader.bind inU8 _) _ = _
  rw [Reader.bind_assoc]
  congr
  funext bLength
  show Reader.bind (Reader.bind inU8 _) _ = _
  rw [Reader.bind_assoc]
  congr
  funext bDescriptorType
  show Reader.bind (Reader.bind inU8 _) _ = _
  rw [Reader.bind_assoc]
  rfl

theorem follows_capability (c : Members) (hp : Parsed (object c)) :
    Follows out (Parser.buildCapability c) BosDevCapabilityDescriptor.streamIn fun _ => True := by
  rw [capability_streamIn_eq]
  have hwriter : Parser.buildCapability c = Writer.bind (Parser.writeRead (Parser.readU32At c "bLength")) fun _ =>
      Writer.bind (Parser.writeRead (Parser.readU32At c "bDescriptorType")) fun _ =>
      Writer.bind (Writer.lift (Parser.readU32At c "bDevCapabilityType")) fun devCapType =>
      Writer.bind (Parser.writeNum devCapType) fun _ => Parser.buildCapabilityData devCapType c := by
    show Writer.bind (Writer.bind _ fun _ => Writer.bind _ fun _ => Writer.pure ()) _ = _
    rw [Writer.bind_pure, Writer.bind_assoc]
    rfl
  rw [hwriter]
  apply (follows_u8 _).bind
  intro _ _
  apply (follows_u8 _).bind
  intro _ _
  apply Follows.lift (hungry_u8.bind _)
  intro devCapType _
  exact (follows_u8_num _).bind fun _ _ => (follows_capabilityData hp devCapType).last fun _ _ => trivial

theorem follows_bos (b : Members) (hp : Parsed (object b)) :
    Follows out (Parser.buildBos b) Bos.streamIn fun _ => True := by
  have hwrapped : Follows out (Parser.writeFields b ["bLength", "bDescriptorType", "wTotalLength", "bNumDeviceCaps"])
      LibusbBosDescriptor.streamIn fun _ => True :=
    (follows_u8 _).bind fun _ _ => (follows_u8 _).bind fun _ _ => (follows_u16 _).bind fun _ _ =>
      (follows_u8 _).bind fun _ _ => Follows.pure trivial
  apply hwrapped.bind
  intro _ _
  apply Follows.lift (hungry_list _ _)
  intro caps hcaps
  have hpcaps := hp.arrayAt hcaps
  have hlt := hpcaps.size
  have hhungry : Hungry BosDevCapabilityDescriptor.streamIn := hungry_node _ _
  have hloop := follows_objects hhungry hpcaps follows_capability
  exact ((follows_size (by omega)).counted hloop).last fun _ _ => trivial

/-! ### The strings -/

/-- The bytes that the parser writes of a text. -/
def textLength : Json → ℕ
  | array vs => vs.length
  | string s => 2 * (Parser.stringBytes s).length
  | _ => 0

/-- The length that a string descriptor states is that of what is written. -/
def StringFramed (s : Json) : Prop :=
  ∀ d str n, (valueAt s "StringDescriptor" >>= asObject) = .ok d → memberAt d "string" = .ok str →
    Parser.readU32At d "bLength" = .ok n → n.toNat = 2 + textLength str

/-- .. of each string of the language that the parser comes to. -/
def LanguageFramed (lang : Json) : Prop :=
  ∀ strings, (valueAt lang "aofStrings" >>= asArray) = .ok strings → Until Parser.buildString StringFramed strings

def StringsFramed (dev : Members) : Prop :=
  ∀ langs, arrayAt dev "aofStringDescriptors" = .ok langs → Until Parser.buildLanguage LanguageFramed langs

theorem length_char_pairs (bytes : List U8) :
    (bytes.flatMap fun c => [c.setWidth 32, (0 : BitVec 32)]).length = 2 * bytes.length := by
  induction bytes with
  | nil => rfl
  | cons b bytes ih =>
    rw [List.flatMap_cons, List.length_append, ih]
    simp only [List.length_cons, List.length_nil]
    omega

theorem follows_text (h : (isString v || isArray v) = true) :
    Follows out (Parser.buildText v) (Reader.many inU8 (textLength v)) fun _ => True := by
  cases v with
  | array vs => exact follows_da vs
  | string s =>
    show Follows out (Writer.forEach Parser.writeNum _) (Reader.many inU8 (2 * (Parser.stringBytes s).length)) _
    rw [← length_char_pairs]
    exact follows_nums _
  | _ => cases h

theorem follows_read (x : Except JsonExn (BitVec 32)) :
    Follows out (Parser.writeRead x) inSize fun m => ∃ n, x = .ok n ∧ n.toNat = m := by
  apply Follows.lift (Hungry.next _ _)
  intro n hn
  exact (follows_num rfl).mono fun m hm => ⟨n, hn, hm.symm⟩

theorem follows_string (h : Schema.stringEntry v = true) (hf : StringFramed v) :
    Follows out (Parser.buildString v) inVector fun _ => True := by
  obtain ⟨s, rfl, hfields, -, hkeys⟩ := closed_iff.mp h
  obtain ⟨entry, hentry⟩ := required_lookup (k := "StringDescriptor") hkeys (by decide)
  obtain ⟨d, rfl, hdfields, -, hdkeys⟩ := closed_iff.mp (properties_lookup hfields rfl hentry)
  obtain ⟨str, hstr⟩ := required_lookup (k := "string") hdkeys (by decide)
  have hat : (valueAt (object s) "StringDescriptor" >>= asObject) = .ok d := by
    show (memberAt s "StringDescriptor" >>= asObject) = .ok d
    rw [memberAt_ok hentry]
    rfl
  have hkind : (isString str || isArray str) = true := properties_lookup hdfields rfl hstr
  have hwriter : Parser.buildString (object s) =
      Writer.bind (Parser.writeRead (Parser.readU32At d "bLength")) fun _ =>
        Writer.bind (Parser.writeFields d ["bLength", "bDescriptorType"]) fun _ => Parser.buildText str := by
    show Writer.bind (Writer.lift (valueAt (object s) "StringDescriptor" >>= asObject)) _ = _
    rw [hat]
    show Writer.bind (Parser.writeFields d ["bLength", "bLength", "bDescriptorType"]) (fun _ =>
      Writer.bind (Writer.lift (memberAt d "string")) Parser.buildText) = _
    rw [memberAt_ok hstr]
    exact Writer.bind_assoc _ _ _
  rw [hwriter]
  apply (follows_read _).bind
  rintro m ⟨n, hn, rfl⟩
  -- the size of the vector is the stated length
  rw [hf d str n hat (memberAt_ok hstr) hn]
  exact (follows_fields d ["bLength", "bDescriptorType"]).many_add (follows_text hkind)

/-- The schema allows one number for the language. -/
theorem follows_languageId (h : Schema.usbWord v = true) :
    Follows out (Parser.buildLanguageId v) inU16 fun _ => True := by
  cases v with
  | array vs => cases h
  | _ => exact follows_u16 _

theorem follows_language (h : Schema.language v = true) (hp : Parsed v) (hf : LanguageFramed v) :
    Follows out (Parser.buildLanguage v) inStrings fun _ => True := by
  obtain ⟨lang, rfl, hfields, -, hkeys⟩ := closed_iff.mp h
  apply Follows.lift ((Hungry.next _ _).bind _)
  intro id hid
  have hvalid : Schema.usbWord id = true := properties_lookup hfields rfl (lookup_of_memberAt hid)
  apply (follows_languageId hvalid).bind
  intro _ _
  apply Follows.lift (hungry_list _ _)
  intro strings hstrings
  have hlt := (hp.arrayAtValue hstrings).size
  have hall : ∀ s ∈ strings, Schema.stringEntry s = true := by
    obtain ⟨x, hx⟩ := required_lookup (k := "aofStrings") hkeys (by decide)
    obtain ⟨vs, rfl, hvs⟩ := arrayOf_iff.mp (properties_lookup hfields rfl hx)
    have hat : (memberAt lang "aofStrings" >>= asArray) = .ok strings := hstrings
    rw [memberAt_ok hx] at hat
    cases hat
    exact hvs
  have hloop : Follows out (Writer.forEach Parser.buildString strings) (Reader.many inVector strings.length)
      fun _ => True :=
    Follows.forEach ((hf strings hstrings).mono fun s hs hfs => follows_string (hall s hs) hfs)
  exact ((follows_size (by omega)).counted hloop).last fun _ _ => trivial

theorem follows_strings {dev : Members} (h : properties Schema.deviceFields (object dev) = true)
    (hp : Parsed (object dev)) (hf : StringsFramed dev) :
    Follows out (Parser.buildStringDescriptors dev) StringDescriptorMap.streamIn fun _ => True := by
  apply Follows.lift (hungry_list _ _)
  intro langs hlangs
  have hplangs := hp.arrayAt hlangs
  have hlt := hplangs.size
  have hall : ∀ lang ∈ langs, Schema.language lang = true := by
    cases hx : dev.lookup "aofStringDescriptors" with
    | none =>
      rw [arrayAt, memberAt, hx] at hlangs
      cases hlangs
    | some x =>
      obtain ⟨vs, rfl, hvs⟩ := arrayOf_iff.mp (properties_lookup h rfl hx)
      rw [arrayAt, memberAt_ok hx] at hlangs
      cases hlangs
      exact hvs
  have hloop : Follows out (Writer.forEach Parser.buildLanguage langs) (Reader.many inStrings langs.length)
      fun _ => True :=
    Follows.forEach ((hf langs hlangs).mono fun lang hl hfl => follows_language (hall lang hl) (hplangs.elem hl) hfl)
  exact ((follows_size (by omega)).counted hloop).last fun _ _ => trivial

/-! ### The document -/

/-- One configuration, unless the first is never whole. -/
def ConfigurationsFramed : List Json → Prop
  | [] => False
  | cfg :: rest => (Writer.bind (Writer.lift (asObject cfg)) Parser.buildConfiguration).result = .ok () → rest = []

/-- The counts that the reader takes from a document are those of what the parser
writes, as far as the parser gets. -/
structure SectionsFramed (root : Json) : Prop where
  devices : (root.get "aofDevices").elems ≠ []
  configurations : ∀ dev dd cfgs, Parser.firstDevice root = .ok dev → objectAt dev "Device Descriptor" = .ok dd →
    (Parser.buildDevice dd).result = .ok () → arrayAt dd "aofConfigurations" = .ok cfgs → ConfigurationsFramed cfgs
  strings : ∀ dev dd, Parser.firstDevice root = .ok dev → objectAt dev "Device Descriptor" = .ok dd →
    (Parser.buildDevice dd).result = .ok () → (Parser.buildConfigurations dd).result = .ok () → StringsFramed dev

/-- The byte of a number in the document. -/
def ReadsAs (v : Json) (b : U8) : Prop := ∃ n, Parser.readU32 v = .ok n ∧ b = n.setWidth 8

/-- Each part of the tree is what the reader makes of the numbers of the document's own
section, all of them and no others; the report is the elements of `daReportDescriptor`. -/
def OwnSections (root : Json) (t : Tree) : Prop :=
  ∃ dev dd cfgs langs report bos, Parser.firstDevice root = .ok dev ∧ objectAt dev "Device Descriptor" = .ok dd ∧
    arrayAt dd "aofConfigurations" = .ok cfgs ∧ arrayAt dev "aofStringDescriptors" = .ok langs ∧
    arrayAt dev "daReportDescriptor" = .ok report ∧ objectAt dev "BOS Descriptor" = .ok bos ∧
    Own out (Parser.buildDevice dd) LibusbDeviceDescriptor.streamIn t.deviceDescriptor ∧
    (∃ cfg, object cfg ∈ cfgs ∧ Own out (Parser.buildConfiguration cfg) Config.streamIn t.deviceConfig) ∧
    Own out (Writer.bind (Parser.writeSize langs.length) fun _ => Writer.forEach Parser.buildLanguage langs)
      StringDescriptorMap.streamIn t.stringDescriptors ∧
    List.Forall₂ ReadsAs report t.reportDescriptor ∧
    Own out (Parser.buildBos bos) Bos.streamIn t.bosDescriptor

/-- A writer that throws never comes to what follows. -/
theorem bind_of_error {w : JsonOut} {e : JsonExn} (h : w.result = .error e) (f : Unit → JsonOut) :
    Writer.bind w f = w := by
  obtain ⟨items, result⟩ := w
  cases h
  rfl

theorem follows_configurations {dd : Members} (hp : Parsed (object dd))
    (hf : ∀ cfgs, arrayAt dd "aofConfigurations" = .ok cfgs → ConfigurationsFramed cfgs) :
    Follows out (Parser.buildConfigurations dd) Config.streamIn fun c =>
      ∃ cfgs, arrayAt dd "aofConfigurations" = .ok cfgs ∧ ∃ cfg ∈ cfgs,
        Own out (Writer.bind (Writer.lift (asObject cfg)) Parser.buildConfiguration) Config.streamIn c := by
  apply Follows.lift (hungry_node _ _)
  intro cfgs hcfgs
  have hpcfgs := hp.arrayAt hcfgs
  have hframed := hf cfgs hcfgs
  cases cfgs with
  | nil => exact hframed.elim
  | cons cfg rest =>
    have hfirst : Parser.forEachObject Parser.buildConfiguration (cfg :: rest) =
        Writer.bind (Writer.lift (asObject cfg)) Parser.buildConfiguration := by
      show Writer.bind (Writer.bind (Writer.lift (asObject cfg)) Parser.buildConfiguration)
        (fun _ => Parser.forEachObject Parser.buildConfiguration rest) = _
      cases hres : (Writer.bind (Writer.lift (asObject cfg)) Parser.buildConfiguration).result with
      | error e => exact bind_of_error hres _
      | ok u =>
        rw [hframed hres]
        exact Writer.bind_pure _
    rw [hfirst]
    have hfollows : Follows out (Writer.bind (Writer.lift (asObject cfg)) Parser.buildConfiguration) Config.streamIn
        fun _ => True := by
      apply Follows.lift (hungry_node _ _)
      intro ms hms
      have hpcfg := hpcfgs.elem List.mem_cons_self
      rw [asObject_ok hms] at hpcfg
      exact follows_configuration ms hpcfg
    exact hfollows.own.mono fun c hc => ⟨cfg :: rest, hcfgs, cfg, List.mem_cons_self, hc.2⟩

theorem follows_byte (v : Json) : Follows out (Parser.writeRead (Parser.readU32 v)) inU8 (ReadsAs v) := by
  apply Follows.lift (Hungry.next _ _)
  intro n hn
  apply Follows.next
  intro b hb
  rw [out, lexicalCastInt32_toDigits_eq] at hb
  split at hb
  · refine ⟨n, hn, ?_⟩
    rw [← Except.ok.inj hb, BitVec.ofNat_toNat, BitVec.setWidth_eq]
  · cases hb

theorem follows_report {dev : Members} (hp : Parsed (object dev)) :
    Follows out (Parser.buildReport dev) inVector fun bytes =>
      ∃ report, arrayAt dev "daReportDescriptor" = .ok report ∧ List.Forall₂ ReadsAs report bytes := by
  apply Follows.lift hungry_vector
  intro report hreport
  have hlt := (hp.arrayAt hreport).size
  have hsize := follows_size (n := report.length) (by omega)
  have hbytes := hsize.counted (Follows.forEach_rel fun v _ => follows_byte v)
  exact hbytes.mono fun bytes h => ⟨report, hreport, h⟩

/-- The first device of a valid document. -/
theorem device_of_first (doc : Document) {dev : Members} (h : Parser.firstDevice doc.root = .ok dev) :
    properties Schema.deviceFields (object dev) = true ∧ Parsed (object dev) := by
  obtain ⟨root, hroot, hfields, -, hkeys⟩ := closed_iff.mp doc.valid
  have hparsed : Parsed (object root) := hroot ▸ doc.parsed
  obtain ⟨x, hx⟩ := required_lookup (k := "aofDevices") hkeys (by decide)
  obtain ⟨devices, rfl, hdevices⟩ := arrayOf_iff.mp (properties_lookup hfields rfl hx)
  have hpdevices : Parsed (array devices) := all_lookup hparsed hx
  rw [hroot, Parser.firstDevice] at h
  have hat : (valueAt (object root) "aofDevices" >>= asArray) = .ok devices := by
    show (memberAt root "aofDevices" >>= asArray) = .ok devices
    rw [memberAt_ok hx]
    rfl
  rw [hat] at h
  cases devices with
  | nil => cases h
  | cons d rest =>
    have hd : asObject d = .ok dev := h
    have hvalid := hdevices d List.mem_cons_self
    have hpd := hpdevices.elem List.mem_cons_self
    rw [asObject_ok hd] at hvalid hpd
    obtain ⟨ms, hms, hprops, -⟩ := closed_iff.mp hvalid
    cases hms
    exact ⟨hprops, hpd⟩

theorem follows_document (doc : Document) (hf : SectionsFramed doc.root) :
    Follows out (Parser.buildDescriptor doc.root) Tree.streamIn (OwnSections doc.root) := by
  apply Follows.lift (hungry_node _ _)
  intro root hroot
  rw [← jsonParse_eq hroot]
  apply Follows.lift (hungry_node _ _)
  intro dev hdev
  obtain ⟨hvalid, hp⟩ := device_of_first doc hdev
  apply Follows.lift (hungry_node _ _)
  intro dd hdd
  apply (follows_device dd).own.bind
  rintro d ⟨-, hd⟩
  apply (follows_configurations (hp.objectAt hdd) (hf.configurations dev dd · hdev hdd hd.1)).own.bind
  rintro c ⟨⟨cfgs, hcfgs, hc⟩, hcs⟩
  apply (follows_strings hvalid hp (hf.strings dev dd hdev hdd hd.1 hcs.1)).own.bind
  rintro m ⟨-, hm⟩
  apply (follows_report hp).own.bind
  rintro r ⟨⟨report, hreport, hr⟩, -⟩
  have hbos : Follows out (Writer.bind (Writer.lift (objectAt dev "BOS Descriptor")) Parser.buildBos) Bos.streamIn
      fun _ => True := by
    apply Follows.lift (hungry_node _ _)
    exact fun b hb => follows_bos b (hp.objectAt hb)
  obtain ⟨langs, hlangs, hm⟩ := hm.of_lift
  obtain ⟨cfg, hmem, hc⟩ := hc
  obtain ⟨ms, hms, hc⟩ := hc.of_lift
  rw [asObject_ok hms] at hmem
  apply hbos.own.last
  rintro b ⟨-, hb⟩
  obtain ⟨bos, hbosAt, hb⟩ := hb.of_lift
  exact ⟨dev, dd, cfgs, langs, report, bos, hdev, hdd, hcfgs, hlangs, hreport, hbosAt, hd, ⟨ms, hmem, hc⟩, hm, hr, hb⟩

/-- **Sections keep their numbers**: a framed document throws when it is loaded, or each
part of the tree comes from its own section. -/
theorem framed_sections (doc : Document) (hf : SectionsFramed doc.root) :
    (∃ e, Tree.loadJson doc.root = .error e) ∨
      ∃ t, Tree.loadJson doc.root = .ok t ∧ OwnSections doc.root t := by
  have hfollows := follows_document doc hf
  rw [loadJson_eq]
  cases hres : (Parser.buildDescriptor doc.root).result with
  | error e =>
    obtain ⟨e', he'⟩ := hfollows.thrown e hres
    refine .inl ⟨e', ?_⟩
    rw [he']
    rfl
  | ok u =>
    rcases hfollows.whole hres with ⟨t, ht, hread⟩ | hread
    · refine .inr ⟨t, ?_, ht⟩
      have halone := hread []
      rw [List.append_nil] at halone
      rw [halone]
      rfl
    · obtain ⟨e, he⟩ := hread []
      refine .inl ⟨e, ?_⟩
      rw [List.append_nil] at he
      rw [he]
      rfl

/-- A string of six bytes and the length that its descriptor states. -/
def sixBytes (n : ℤ) : Members :=
  [("bLength", int64 n), ("bDescriptorType", int64 3),
    ("string", array [int64 0, int64 5, int64 15, int64 5, int64 0, int64 0])]

def sixBytesDescriptor : Members :=
  [("bLength", int64 18), ("bDescriptorType", int64 1), ("bcdUSB", int64 512), ("bDeviceClass", int64 0),
    ("bDeviceSubClass", int64 0), ("bDeviceProtocol", int64 0), ("bMaxPacketSize0", int64 64), ("idVendor", int64 0),
    ("idProduct", int64 1), ("bcdDevice", int64 256), ("iManufacturer", int64 0), ("iProduct", int64 0),
    ("iSerial", int64 0), ("bNumConfigurations", int64 1), ("aofConfigurations", array [object [
      ("Configuration Descriptor", object [("bLength", int64 9), ("bDescriptorType", int64 2),
        ("wTotalLength", int64 9), ("bNumInterfaces", int64 1), ("bConfigurationValue", int64 1),
        ("iConfiguration", int64 0), ("bmAttributes", int64 128), ("MaxPower", int64 50),
        ("aofAltsettings", array [])])]])]

/-- The device with that string, three bytes of report descriptor and a BOS without
capabilities. -/
def sixBytesDevice (n : ℤ) : Members :=
  [("Device Descriptor", object sixBytesDescriptor),
    ("aofStringDescriptors", array [object [("wLanguageId", int64 0),
      ("aofStrings", array [object [("StringDescriptor", object (sixBytes n))]])]]),
    ("daReportDescriptor", array [int64 6, int64 0, int64 255]),
    ("BOS Descriptor", object [("bLength", int64 5), ("bDescriptorType", int64 15), ("wTotalLength", int64 5),
      ("bNumDeviceCaps", int64 0), ("aofDeviceCaps", array [])])]

def sixBytesRoot (n : ℤ) : Json := object [("aofDevices", array [object (sixBytesDevice n)])]

/-- The length is that of the leading two bytes alone. -/
def Document.short : Document := ⟨sixBytesRoot 2, by decide, by decide⟩

/-- The tree it loads as: report descriptor and BOS are read from the bytes of the string. -/
def Tree.short : Tree where
  deviceDescriptor := ⟨18, 1, 512, 0, 0, 0, 64, 0, 1, 256, 0, 0, 0, 1⟩
  deviceConfig := ⟨⟨9, 2, 9, 1, 1, 0, 128, 50⟩, [], []⟩
  stringDescriptors := [(0, [[2, 3]])]
  bosDescriptor := ⟨⟨5, 15, 5, 0⟩, []⟩
  reportDescriptor := []

theorem short_loads : Tree.loadJson Document.short.root = .ok Tree.short := by
  rw [loadJson_eq]
  decide +kernel

/-- The document's own report descriptor has three bytes. -/
theorem sections_mixed : ¬ ∀ doc : Document, (doc.root.get "aofDevices").elems ≠ [] →
    (∃ e, Tree.loadJson doc.root = .error e) ∨
      ∃ t, Tree.loadJson doc.root = .ok t ∧ OwnSections doc.root t := by
  intro h
  rcases h Document.short (by decide) with ⟨e, he⟩ | ⟨t, ht, hown⟩
  · rw [short_loads] at he
    cases he
  · rw [short_loads] at ht
    cases ht
    obtain ⟨dev, -, -, -, report, -, hdev, -, -, -, hreport, -, -, -, -, hbytes, -⟩ := hown
    obtain rfl : sixBytesDevice 2 = dev := Except.ok.inj hdev
    obtain rfl : [int64 6, int64 0, int64 255] = report := Except.ok.inj hreport
    cases hbytes

/-- With the true length, 8, the document is framed. -/
theorem framed_sixBytes : SectionsFramed (sixBytesRoot 8) where
  devices := by decide
  configurations := by
    intro dev dd cfgs hdev hdd _ hcfgs
    obtain rfl : sixBytesDevice 8 = dev := Except.ok.inj hdev
    obtain rfl : sixBytesDescriptor = dd := Except.ok.inj hdd
    obtain rfl : [_] = cfgs := Except.ok.inj hcfgs
    exact fun _ => rfl
  strings := by
    intro dev dd hdev _ _ _ langs hlangs
    obtain rfl : sixBytesDevice 8 = dev := Except.ok.inj hdev
    obtain rfl : [_] = langs := Except.ok.inj hlangs
    refine ⟨fun strings hstrings => ?_, fun _ => trivial⟩
    obtain rfl : [_] = strings := Except.ok.inj hstrings
    refine ⟨fun d str n hd hstr hn => ?_, fun _ => trivial⟩
    obtain rfl : sixBytes 8 = d := Except.ok.inj hd
    obtain rfl : _ = str := Except.ok.inj hstr
    obtain rfl : BitVec.ofInt 32 8 = n := Except.ok.inj hn
    rfl

theorem framed_sections_sixBytes :
    ∃ t, Tree.loadJson (sixBytesRoot 8) = .ok t ∧ OwnSections (sixBytesRoot 8) t := by
  refine (framed_sections ⟨sixBytesRoot 8, by decide, by decide⟩ framed_sixBytes).resolve_left ?_
  rintro ⟨e, he⟩
  have hloads : (Tree.loadJson (sixBytesRoot 8)).isOk = true := by
    rw [loadJson_eq]
    decide +kernel
  have hfails : (Tree.loadJson (sixBytesRoot 8)).isOk = false := by
    rw [show Tree.loadJson (sixBytesRoot 8) = .error e from he]
    rfl
  exact absurd hloads (by rw [hfails]; exact Bool.false_ne_true)

end Viu
