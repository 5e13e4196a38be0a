/-
# A complete document loads as what it denotes

The parser writes the numbers that `save` writes of the denoted tree, but for
the order of the languages, and the map that reads them does not mind it
(`foldl_insert_eq`). The reader of saved configurations does the rest
(`json_loads`).
-/
import Viu.JsonWrites

namespace Viu

open Bytes Text Tokens Json Json.Schema

variable {ps : List (String × Schema)} {ms : Members} {v : Json} {vs : List Json} {s : Schema}

/-! ### What the parts denote fits in memory -/

theorem sized_bytes (h : Elements Schema.usbByte vs) : (bytesOf (array vs)).length < 2 ^ 32 - 6 := by
  have hlen : (bytesOf (array vs)).length = vs.length := List.length_map _
  have hle := lt_of_le_maxStructuredSize h.size
  omega

theorem sized_array {α : Type} {p : α → Prop} {f : Json → α} (h : Elements s vs) (hp : ∀ v ∈ vs, p (f v)) :
    (vs.map f).length < maxSize ∧ ∀ a ∈ vs.map f, p a := by
  have hle := lt_of_le_maxStructuredSize h.size
  have hmax : maxSize = 2 ^ 64 := rfl
  refine ⟨?_, List.forall_mem_map.mpr hp⟩
  rw [List.length_map]
  omega

theorem sized_extra (h : Fields ps ms) (hx : ps.lookup "daExtra" = some Schema.daUsbBytes) :
    (bytesOf ((object ms).get "daExtra")).length < 2 ^ 32 - 6 := by
  obtain ⟨vs, -, hget, hvs⟩ := extra_of h hx
  rw [hget]
  exact sized_bytes hvs

theorem sized_endpoint (h : Schema.endpoint v = true) (hv : Plain v) : (Meaning.endpoint v).Sized := by
  obtain ⟨ep, rfl, hep⟩ := closed_of h hv
  have hextra := sized_extra hep.toFields rfl
  have hcomp : (Meaning.companion (object ep)).length ≤ 6 := by
    unfold Meaning.companion
    split <;> simp
  have hmax : maxSize = 2 ^ 64 := rfl
  show (Meaning.companion (object ep) ++ bytesOf ((object ep).get "daExtra")).length < maxSize
  rw [List.length_append]
  omega

theorem sized_interface (h : Schema.interface v = true) (hv : Plain v) : (Meaning.interface v).Sized := by
  obtain ⟨iface, rfl, hiface⟩ := closed_of h hv
  obtain ⟨d, -, hget, hd⟩ := hiface.objectAt "Interface Descriptor" (by decide) rfl
  obtain ⟨eps, -, hgeteps, heps⟩ := hd.arrayAt "aofEndpoints" (by decide) rfl
  have hextra := sized_extra hd.toFields rfl
  have hmax : maxSize = 2 ^ 64 := rfl
  simp only [Interface.Sized, Meaning.interface, hget, hgeteps]
  refine ⟨by omega, sized_array heps fun ep hep => ?_⟩
  exact sized_endpoint (heps.elem ep hep).1 (heps.elem ep hep).2

theorem sized_altsettings (h : Schema.altsetting v = true) (hv : Plain v) : (Meaning.altsettings v).Sized := by
  obtain ⟨alt, rfl, halt⟩ := closed_of h hv
  obtain ⟨ifs, -, hget, hifs⟩ := halt.arrayAt "aofInterfaces" (by decide) rfl
  simp only [UsbInterface.Sized, Meaning.altsettings, hget]
  exact sized_array hifs fun i hi => sized_interface (hifs.elem i hi).1 (hifs.elem i hi).2

theorem sized_configuration (h : Schema.configuration v = true) (hv : Plain v) :
    (Meaning.configuration v).Sized := by
  obtain ⟨cfg, rfl, hcfg⟩ := closed_of h hv
  obtain ⟨d, -, hget, hd⟩ := hcfg.objectAt "Configuration Descriptor" (by decide) rfl
  obtain ⟨alts, -, hgetalts, halts⟩ := hd.arrayAt "aofAltsettings" (by decide) rfl
  have hextra := sized_extra hcfg.toFields rfl
  have hmax : maxSize = 2 ^ 64 := rfl
  simp only [Config.Sized, Meaning.configuration, hget, hgetalts]
  refine ⟨by omega, sized_array halts fun a ha => ?_⟩
  exact sized_altsettings (halts.elem a ha).1 (halts.elem a ha).2

/-- The length of a string is a byte. -/
theorem sized_string (h : Schema.stringEntry v = true) (hv : Plain v) (hf : StringFits v) :
    (Meaning.string v).length < maxSize := by
  obtain ⟨s, rfl, hs⟩ := closed_of h hv
  obtain ⟨d, -, hget, hd⟩ := hs.objectAt "StringDescriptor" (by decide) rfl
  have hlength : Schema.stringDescriptorFields.lookup "bLength" = some Schema.usbByte := rfl
  have hlt : num ((object d).get "bLength") < 2 ^ 8 := (hd.read hlength fun _ => isNumber_usbByte).2
  have hlen := hf.length
  have hmax : maxSize = 2 ^ 64 := rfl
  rw [hget] at hlen
  simp only [Meaning.string, hget, List.length_cons]
  omega

theorem sized_language (h : Schema.language v = true) (hv : Plain v)
    (hf : ∀ s ∈ (v.get "aofStrings").elems, StringFits s) : StringsSized (Meaning.language v) := by
  obtain ⟨lang, rfl, hlang⟩ := closed_of h hv
  obtain ⟨strings, -, hget, hstrings⟩ := hlang.arrayAt "aofStrings" (by decide) rfl
  rw [hget] at hf
  simp only [StringsSized, Meaning.language, hget]
  exact sized_array (p := fun bytes : List U8 => bytes.length < maxSize) hstrings fun s hs =>
    sized_string (hstrings.elem s hs).1 (hstrings.elem s hs).2 (hf s hs)

theorem sized_capability (h : Schema.bosDevcap v = true) (hv : Plain v) : (Meaning.capability v).Sized := by
  obtain ⟨c, rfl, hc⟩ := capability_of h hv
  have hmax : maxSize = 2 ^ 64 := rfl
  simp only [BosDevCapabilityDescriptor.Sized, Meaning.capability, Meaning.capabilityData]
  split_ifs
  · simp [hmax]
  · simp [Meaning.superspeedUsb, hmax]
  · cases hd : c.lookup "daDevCapability" with
    | none =>
      rw [get_of_none hd]
      exact Nat.two_pow_pos 64
    | some d =>
      obtain ⟨vs, -, hget, hvs⟩ := hc.arrayAt hd rfl
      have hlt := sized_bytes hvs
      rw [hget]
      omega

theorem sized_bos (h : Schema.bos v = true) (hv : Plain v) : (Meaning.bos v).Sized := by
  obtain ⟨b, rfl, hb⟩ := closed_of h hv
  obtain ⟨caps, -, hget, hcaps⟩ := hb.arrayAt "aofDeviceCaps" (by decide) rfl
  simp only [Bos.Sized, Meaning.bos, hget]
  exact sized_array hcaps fun c hc => sized_capability (hcaps.elem c hc).1 (hcaps.elem c hc).2

/-! ### The map of languages -/

variable {m qs : StringDescriptorMap} {p : U16 × List (List U8)}

theorem insert_perm (h : ∀ q ∈ m, p.1 ≠ q.1) : (m.insert p).Perm (p :: m) := by
  induction m with
  | nil => exact List.Perm.refl _
  | cons q rest ih =>
    rw [StringDescriptorMap.insert]
    by_cases hlt : p.1 < q.1
    · rw [if_pos hlt]
    · rw [if_neg hlt, if_neg (h q List.mem_cons_self)]
      have hrest := ih fun x hx => h x (List.mem_cons_of_mem _ hx)
      exact (hrest.cons q).trans (List.Perm.swap p q rest)

theorem mem_insert {x : U16 × List (List U8)} (h : x ∈ m.insert p) : x = p ∨ x ∈ m := by
  induction m with
  | nil => exact .inl (List.mem_singleton.mp h)
  | cons q rest ih =>
    rw [StringDescriptorMap.insert] at h
    split_ifs at h
    · exact List.mem_cons.mp h
    · exact .inr h
    · rcases List.mem_cons.mp h with rfl | hx
      · exact .inr List.mem_cons_self
      · exact (ih hx).imp_right (List.mem_cons_of_mem _)

/-- A map stays in order. -/
theorem insert_sorted (h : m.Pairwise fun p q => p.1 < q.1) : (m.insert p).Pairwise fun p q => p.1 < q.1 := by
  induction m with
  | nil => exact List.pairwise_singleton _ _
  | cons q rest ih =>
    obtain ⟨hq, hrest⟩ := List.pairwise_cons.mp h
    rw [StringDescriptorMap.insert]
    by_cases hlt : p.1 < q.1
    · rw [if_pos hlt]
      refine List.pairwise_cons.mpr ⟨fun x hx => ?_, h⟩
      rcases List.mem_cons.mp hx with rfl | hx
      · exact hlt
      · exact BitVec.lt_trans hlt (hq x hx)
    · rw [if_neg hlt]
      by_cases heq : p.1 = q.1
      · rwa [if_pos heq]
      · rw [if_neg heq]
        refine List.pairwise_cons.mpr ⟨fun x hx => ?_, ih hrest⟩
        rcases mem_insert hx with rfl | hx
        · bv_omega
        · exact hq x hx

theorem foldl_insert_sorted : (qs.foldl StringDescriptorMap.insert []).Pairwise fun p q => p.1 < q.1 := by
  induction qs using List.reverseRecOn with
  | nil => exact List.Pairwise.nil
  | append_singleton qs p ih =>
    rw [List.foldl_append, List.foldl_cons, List.foldl_nil]
    exact insert_sorted ih

theorem foldl_insert_perm (h : (qs.map (·.1)).Nodup) : (qs.foldl StringDescriptorMap.insert []).Perm qs := by
  induction qs using List.reverseRecOn with
  | nil => exact List.Perm.refl _
  | append_singleton qs p ih =>
    rw [List.map_append, List.nodup_append] at h
    obtain ⟨hqs, -, hne⟩ := h
    have hperm := ih hqs
    rw [List.foldl_append, List.foldl_cons, List.foldl_nil]
    refine (insert_perm fun q hq => ?_).trans ?_
    · have hmem : q.1 ∈ qs.map (·.1) := List.mem_map_of_mem (hperm.mem_iff.mp hq)
      exact (hne q.1 hmem p.1 (by simp)).symm
    · exact (hperm.cons p).trans (List.perm_append_singleton p qs).symm

/-- Languages with different numbers make the map in the order of the numbers. -/
theorem foldl_insert_eq (h : (qs.map (·.1)).Nodup) :
    qs.foldl StringDescriptorMap.insert [] = qs.insertionSort fun p q => p.1 ≤ q.1 := by
  have htotal : Std.Total fun p q : U16 × List (List U8) => p.1 ≤ q.1 := ⟨fun p q => by bv_omega⟩
  have htrans : IsTrans (U16 × List (List U8)) fun p q => p.1 ≤ q.1 := ⟨fun p q r hpq hqr => BitVec.le_trans hpq hqr⟩
  have hsort := List.pairwise_insertionSort (fun p q : U16 × List (List U8) => p.1 ≤ q.1) qs
  have hperm := foldl_insert_perm h
  refine List.Perm.eq_of_pairwise (fun p q hp hq hpq hqp => ?_) (foldl_insert_sorted.imp fun hlt => ?_) hsort
    (hperm.trans (List.perm_insertionSort _ qs).symm)
  · -- one number, one language
    have heq : p.1 = q.1 := BitVec.le_antisymm hpq hqp
    exact List.inj_on_of_nodup_map h (hperm.mem_iff.mp hp) ((List.mem_insertionSort _).mp hq) heq
  · bv_omega

theorem reads_languages (hsize : qs.length < maxSize) (hsized : ∀ p ∈ qs, StringsSized p) :
    Reads StringDescriptorMap.streamIn (outSize qs.length :: qs.flatMap outStrings)
      (qs.foldl StringDescriptorMap.insert []) :=
  (Reads.counted (reads_inSize hsize) fun p hp => reads_strings (hsized p hp)).last

/-! ### The sections -/

variable {dev : Members}

theorem first_device (doc : Document) (h : Complete doc.root) :
    ∃ dev, Parser.firstDevice doc.root = .ok dev ∧ deviceOf doc.root = object dev ∧
      Closed Schema.deviceFields [] dev := by
  obtain ⟨root, hroot, hclosed⟩ := closed_of doc.valid ⟨doc.parsed, h.integers⟩
  obtain ⟨devices, hat, hget, hdevices⟩ := hclosed.arrayAt "aofDevices" (by decide) rfl
  have hone := h.configuration
  rw [hroot] at hone ⊢
  unfold deviceOf at hone ⊢
  rw [hget] at hone ⊢
  cases devices with
  | nil => cases hone
  | cons dev rest =>
    obtain ⟨hdev, hplain⟩ := hdevices.elem dev List.mem_cons_self
    obtain ⟨ms, rfl, hms⟩ := closed_of hdev hplain
    refine ⟨ms, ?_, rfl, hms⟩
    have hvalue : (valueAt (object root) "aofDevices" >>= asArray) = arrayAt root "aofDevices" := rfl
    rw [Parser.firstDevice, hvalue, hat]
    rfl

theorem writes_deviceDescriptor {dd : Members} (h : Fields Schema.deviceDescriptorFields dd) :
    Writes out (Parser.buildDevice dd) (outMembers (Meaning.deviceDescriptor (object dd)).members) () :=
  (h.writes_u8 rfl).cons <| (h.writes_u8 rfl).cons <| (h.writes_u16 rfl).cons <| (h.writes_u8 rfl).cons <|
    (h.writes_u8 rfl).cons <| (h.writes_u8 rfl).cons <| (h.writes_u8 rfl).cons <| (h.writes_u16 rfl).cons <|
    (h.writes_u16 rfl).cons <| (h.writes_u16 rfl).cons <| (h.writes_u8 rfl).cons <| (h.writes_u8 rfl).cons <|
    (h.writes_u8 rfl).cons <| (h.writes_positive rfl).cons <| Writes.pure ()

/-- The device descriptor and its one configuration. -/
theorem section_configuration (h : Closed Schema.deviceFields [] dev)
    (hone : (configurationsOf (object dev)).length = 1) :
    ∃ dd cfg, objectAt dev "Device Descriptor" = .ok dd ∧ (object dev).get "Device Descriptor" = object dd ∧
      Fields Schema.deviceDescriptorFields dd ∧ configurationsOf (object dev) = [cfg] ∧
      Writes out (Parser.buildConfigurations dd) (Meaning.configuration cfg).streamOut () ∧
      (Meaning.configuration cfg).Sized := by
  cases hv : dev.lookup "Device Descriptor" with
  | none =>
    rw [configurationsOf, get_of_none hv] at hone
    cases hone
  | some v =>
    obtain ⟨dd, hat, hget, hdd⟩ := h.toFields.objectAt hv rfl
    obtain ⟨cfgs, hatcfgs, hgetcfgs, hcfgs⟩ := hdd.arrayAt "aofConfigurations" (by decide) rfl
    have hconf : configurationsOf (object dev) = cfgs := by
      rw [configurationsOf, hget, hgetcfgs]
      rfl
    rw [hconf] at hone ⊢
    obtain ⟨cfg, rfl⟩ := List.length_eq_one_iff.mp hone
    obtain ⟨hvalid, hplain⟩ := hcfgs.elem cfg List.mem_cons_self
    refine ⟨dd, cfg, hat, hget, hdd.toFields, rfl, Writes.lift hatcfgs ?_, sized_configuration hvalid hplain⟩
    exact (writes_configuration hvalid hplain).last

theorem section_strings (h : Fields Schema.deviceFields dev)
    (hhas : (object dev).has "aofStringDescriptors" = true)
    (hf : ∀ lang ∈ languagesOf (object dev), ∀ s ∈ (lang.get "aofStrings").elems, StringFits s) :
    Writes out (Parser.buildStringDescriptors dev)
        (outSize ((languagesOf (object dev)).map Meaning.language).length ::
          ((languagesOf (object dev)).map Meaning.language).flatMap outStrings) () ∧
      ((languagesOf (object dev)).map Meaning.language).length < maxSize ∧
      (∀ p ∈ (languagesOf (object dev)).map Meaning.language, StringsSized p) ∧
      ∀ lang ∈ languagesOf (object dev), num (lang.get "wLanguageId") < 2 ^ 16 := by
  obtain ⟨v, hv⟩ := Option.isSome_iff_exists.mp hhas
  obtain ⟨langs, hat, hget, hlangs⟩ := h.arrayAt hv rfl
  have heq : languagesOf (object dev) = langs := by
    rw [languagesOf, hget]
    rfl
  rw [heq] at hf ⊢
  obtain ⟨hlen, hsized⟩ := sized_array (p := StringsSized) hlangs fun lang hl =>
    sized_language (hlangs.elem lang hl).1 (hlangs.elem lang hl).2 (hf lang hl)
  refine ⟨Writes.lift hat (writes_languages hlangs hf), hlen, hsized, fun lang hl => ?_⟩
  obtain ⟨ms, rfl, hms⟩ := closed_of (hlangs.elem lang hl).1 (hlangs.elem lang hl).2
  have hid : Schema.languageFields.lookup "wLanguageId" = some Schema.usbWord := rfl
  exact (hms.read hid fun _ => isNumber_usbWord).2

theorem section_report (h : Fields Schema.deviceFields dev) (hhas : (object dev).has "daReportDescriptor" = true) :
    Writes out (Parser.buildReport dev) (outVector (bytesOf ((object dev).get "daReportDescriptor"))) () ∧
      (bytesOf ((object dev).get "daReportDescriptor")).length < maxSize := by
  obtain ⟨v, hv⟩ := Option.isSome_iff_exists.mp hhas
  obtain ⟨bytes, hat, hget, hbytes⟩ := h.arrayAt hv rfl
  have hlt := sized_bytes hbytes
  have hmax : maxSize = 2 ^ 64 := rfl
  rw [hget]
  exact ⟨Writes.lift hat (writes_vector hbytes), by omega⟩

theorem section_bos (h : Fields Schema.deviceFields dev) (hhas : (object dev).has "BOS Descriptor" = true) :
    Writes out (Writer.bind (Writer.lift (objectAt dev "BOS Descriptor")) Parser.buildBos)
        (Meaning.bos ((object dev).get "BOS Descriptor")).streamOut () ∧
      (Meaning.bos ((object dev).get "BOS Descriptor")).Sized := by
  obtain ⟨v, hv⟩ := Option.isSome_iff_exists.mp hhas
  obtain ⟨hvalid, hplain⟩ := h.member rfl hv
  have hat : objectAt dev "BOS Descriptor" = asObject v := by
    rw [objectAt, memberAt_ok hv]
    rfl
  rw [hat, get_of_lookup hv]
  exact ⟨writes_bos hvalid hplain, sized_bos hvalid hplain⟩

/-- Numbers that differ are different keys. -/
theorem nodup_languages {langs : List Json} (h : (langs.map fun lang => num (lang.get "wLanguageId")).Nodup)
    (hlt : ∀ lang ∈ langs, num (lang.get "wLanguageId") < 2 ^ 16) :
    ((langs.map Meaning.language).map (·.1)).Nodup := by
  have hmap : (langs.map Meaning.language).map (·.1) =
      (langs.map fun lang => num (lang.get "wLanguageId")).map (BitVec.ofNat 16) := by
    rw [List.map_map, List.map_map]
    rfl
  rw [hmap]
  apply h.map_on
  intro x hx y hy hxy
  obtain ⟨lx, hlx, rfl⟩ := List.mem_map.mp hx
  obtain ⟨ly, hly, rfl⟩ := List.mem_map.mp hy
  have hnat := congrArg BitVec.toNat hxy
  rwa [BitVec.toNat_ofNat, BitVec.toNat_ofNat, Nat.mod_eq_of_lt (hlt lx hlx), Nat.mod_eq_of_lt (hlt ly hly)] at hnat

/-- **JSON configurations mean what they say**: a document that is valid and complete,
and nested no deeper than the JSON library goes, loads as the tree it denotes. -/
theorem json_loads (doc : Document) (h : Complete doc.root) (hdepth : doc.root.depth ≤ maxDepth) :
    Tree.loadJson doc.root = .ok (Meaning.tree doc.root) := by
  obtain ⟨dev, hfirst, hdev, hfields⟩ := first_device doc h
  obtain ⟨-, hone, hstrings, hlangs, hfits, hreport, hbos⟩ := h
  rw [hdev] at hone hstrings hlangs hfits hreport hbos
  obtain ⟨dd, cfg, hat, hget, hdd, hcfg, hwcfg, hscfg⟩ := section_configuration hfields hone
  obtain ⟨hwstr, hsize, hsized, hlt⟩ := section_strings hfields.toFields hstrings hfits
  obtain ⟨hwrep, hsrep⟩ := section_report hfields.toFields hreport
  obtain ⟨hwbos, hsbos⟩ := section_bos hfields.toFields hbos
  have hparse : jsonParse doc.root = .ok doc.root := if_pos hdepth
  have hwrite : Writes out (Parser.buildDescriptor doc.root) _ () := Writes.lift hparse (Writes.lift hfirst
    (Writes.lift hat ((writes_deviceDescriptor hdd).bind (hwcfg.bind (hwstr.bind (hwrep.bind hwbos))))))
  have hread : Reads Tree.streamIn _ _ := (reads_device (Meaning.deviceDescriptor (object dd))).bind
    ((reads_config hscfg).bind ((reads_languages hsize hsized).bind ((reads_vector hsrep).bind (reads_bos hsbos).last)))
  have hmap := foldl_insert_eq (nodup_languages hlangs hlt)
  have hwhole := hread.whole []
  rw [List.append_nil, ← hwrite.tokens, hmap] at hwhole
  rw [loadJson_eq, hwhole, Meaning.tree, hdev, hget, hcfg]
  rfl

/-- The configuration of the repository's test, with one endpoint, and `other` members
of its capability. -/
def testDeviceConfigWith (other : Members) : Json :=
  object [("aofDevices", array [object [
    ("Device Descriptor", object [("bLength", int64 18), ("bDescriptorType", int64 1), ("bcdUSB", string "0x320"),
      ("bDeviceClass", int64 0), ("bDeviceSubClass", int64 0), ("bDeviceProtocol", int64 0),
      ("bMaxPacketSize0", int64 9), ("idVendor", string "0x0000"), ("idProduct", string "0x0001"),
      ("bcdDevice", string "0x504"), ("iManufacturer", int64 1), ("iProduct", int64 2), ("iSerial", int64 3),
      ("bNumConfigurations", int64 1), ("aofConfigurations", array [object [
        ("Configuration Descriptor", object [("bLength", int64 9), ("bDescriptorType", int64 2),
          ("wTotalLength", string "0x0062"), ("bNumInterfaces", int64 1), ("bConfigurationValue", int64 1),
          ("iConfiguration", int64 0), ("bmAttributes", string "0x80"), ("MaxPower", int64 50),
          ("aofAltsettings", array [object [("aofInterfaces", array [object [
            ("Interface Descriptor", object [("bLength", int64 9), ("bDescriptorType", int64 4),
              ("bInterfaceNumber", int64 0), ("bAlternateSetting", int64 0), ("bNumEndpoints", int64 1),
              ("bInterfaceClass", string "0xff"), ("bInterfaceSubClass", int64 66), ("bInterfaceProtocol", int64 1),
              ("iInterface", int64 0), ("aofEndpoints", array [object [
                ("Endpoint Descriptor", object [("bLength", int64 7), ("bDescriptorType", int64 5),
                  ("bEndpointAddress", string "0x82"), ("bmAttributes", int64 5), ("wMaxPacketSize", string "0x0400"),
                  ("bInterval", int64 1)]),
                ("Endpoint Companion", object [("bLength", int64 6), ("bDescriptorType", int64 48),
                  ("bMaxBurst", int64 0), ("bmAttributes", int64 0), ("wBytesPerInterval", string "0x0400")])]])])]])]])
          ])]])]),
    ("aofStringDescriptors", array [
      object [("wLanguageId", string "0x0409"), ("aofStrings", array [object [("StringDescriptor", object [
        ("bLength", int64 8), ("bDescriptorType", int64 3), ("string", string "viu")])]])],
      object [("wLanguageId", int64 0), ("aofStrings", array [object [("StringDescriptor", object [
        ("bLength", int64 4), ("bDescriptorType", int64 3), ("string", array [string "0x09", string "0x04"])])]])]]),
    ("daReportDescriptor", array []),
    ("BOS Descriptor", object [("bLength", int64 5), ("bDescriptorType", int64 15), ("wTotalLength", string "0x0016"),
      ("bNumDeviceCaps", int64 1), ("aofDeviceCaps", array [object ([("bLength", int64 10),
        ("bDescriptorType", int64 16), ("bDevCapabilityType", int64 3), ("SuperSpeed USB", object [
          ("bmAttributes", int64 0), ("wSpeedSupported", string "0x000F"), ("bFunctionalitySupport", int64 1),
          ("bU1DevExitLat", int64 10), ("bU2DevExitLat", int64 500)])] ++ other)])])]])]

def testDeviceConfig : Json := testDeviceConfigWith []

def Document.test : Document := ⟨testDeviceConfig, by decide, by decide⟩

/-- The tree of the test. -/
def Tree.test : Tree where
  deviceDescriptor := ⟨18, 1, 0x320, 0, 0, 0, 9, 0, 1, 0x504, 1, 2, 3, 1⟩
  deviceConfig := ⟨⟨9, 2, 0x62, 1, 1, 0, 0x80, 50⟩, [], [⟨[⟨⟨9, 4, 0, 0, 1, 255, 66, 1, 0⟩, [],
    [⟨⟨7, 5, 0x82, 5, 0x400, 1, 0, 0⟩, [6, 48, 0, 0, 0, 4]⟩]⟩]⟩]⟩
  stringDescriptors := [(0, [[4, 3, 9, 4]]), (0x409, [[8, 3, 118, 0, 105, 0, 117, 0]])]
  bosDescriptor := ⟨⟨5, 15, 22, 1⟩, [⟨⟨10, 16, 3⟩, [0, 15, 0, 1, 10, 244, 1]⟩]⟩
  reportDescriptor := []

theorem fits_of_all {dev : Json}
    (h : ∀ lang ∈ languagesOf dev, (lang.get "aofStrings").elems.all stringFits = true) :
    ∀ lang ∈ languagesOf dev, ∀ s ∈ (lang.get "aofStrings").elems, StringFits s :=
  fun lang hl s hs => .of_eq (List.all_eq_true.mp (h lang hl) s hs)

theorem test_complete : Complete testDeviceConfig :=
  ⟨by decide, by decide, by decide, by decide, fits_of_all (by decide), by decide, by decide⟩

theorem json_loads_test : Tree.loadJson testDeviceConfig = .ok Tree.test := by
  have htree : Meaning.tree testDeviceConfig = Tree.test := by decide
  rw [← htree]
  exact json_loads Document.test test_complete (by decide +kernel)

/-- `n` arrays, one in the other. -/
def nested : ℕ → Json
  | 0 => null
  | n + 1 => array [nested n]

/-- The same, with a member of the capability that the schema does not know, 33 deep in
all. -/
def Document.deep : Document := ⟨testDeviceConfigWith [("nested", nested 27)], by decide, by decide⟩

theorem deep_complete : Complete Document.deep.root :=
  ⟨by decide, by decide, by decide, by decide, fits_of_all (by decide), by decide, by decide⟩

/-- The JSON library goes no deeper than 32. -/
theorem json_too_deep : Document.deep.root.depth = 33 ∧
    ¬ ∀ doc : Document, Complete doc.root → Tree.loadJson doc.root = .ok (Meaning.tree doc.root) := by
  have hdepth : Document.deep.root.depth = 33 := by decide +kernel
  refine ⟨hdepth, fun h => ?_⟩
  have hload := h Document.deep deep_complete
  rw [load_of_deep (by rw [hdepth]; decide)] at hload
  cases hload

end Viu
