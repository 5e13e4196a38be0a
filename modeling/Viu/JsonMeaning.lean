/-
# What a JSON configuration means

The tree a document denotes, from the names of its members alone: a number
is its value, an absent one is 0, a list keeps its order, and the strings make
a map by language. `Complete` names the documents that describe one device
whole. What the parser reads of a value that the schema allows is the number
it denotes (`isNumber_of_usbNumber`), and of any string that denotes an integer
that integer modulo a power of two (`stoul_eq`).
-/
import Mathlib.Data.List.Sort
import Mathlib.Data.List.TakeWhile
import Viu.JsonSchema
import Viu.Lib.Cut
import Viu.Lib.Digits

namespace Viu

open Bytes Text Tokens Json Json.Schema

/-! ### The tree a document denotes -/

/-- The number a value denotes. -/
def num : Json → ℕ
  | int64 n => n.toNat
  | string s => ofDigits 16 (s.toList.drop 2)
  | _ => 0

def numAt (w : ℕ) (v : Json) (key : String) : BitVec w := BitVec.ofNat w (num (v.get key))

abbrev u8 := numAt 8
abbrev u16 := numAt 16

def bytesOf (v : Json) : List U8 := v.elems.map fun e => BitVec.ofNat 8 (num e)

namespace Meaning

def companion (ep : Json) : List U8 :=
  if ep.has "Endpoint Companion" then
    let c := ep.get "Endpoint Companion"
    [u8 c "bLength", u8 c "bDescriptorType", u8 c "bMaxBurst", u8 c "bmAttributes"] ++
      store .little (u16 c "wBytesPerInterval")
  else []

def endpoint (ep : Json) : Endpoint :=
  let d := ep.get "Endpoint Descriptor"
  ⟨⟨u8 d "bLength", u8 d "bDescriptorType", u8 d "bEndpointAddress", u8 d "bmAttributes", u16 d "wMaxPacketSize",
    u8 d "bInterval", u8 d "bRefresh", u8 d "bSynchAddress"⟩, companion ep ++ bytesOf (ep.get "daExtra")⟩

def interface (iface : Json) : Interface :=
  let d := iface.get "Interface Descriptor"
  ⟨⟨u8 d "bLength", u8 d "bDescriptorType", u8 d "bInterfaceNumber", u8 d "bAlternateSetting",
    u8 d "bNumEndpoints", u8 d "bInterfaceClass", u8 d "bInterfaceSubClass", u8 d "bInterfaceProtocol",
    u8 d "iInterface"⟩, bytesOf (d.get "daExtra"), (d.get "aofEndpoints").elems.map endpoint⟩

def altsettings (alt : Json) : UsbInterface := ⟨(alt.get "aofInterfaces").elems.map interface⟩

def configuration (cfg : Json) : Config :=
  let d := cfg.get "Configuration Descriptor"
  ⟨⟨u8 d "bLength", u8 d "bDescriptorType", u16 d "wTotalLength", u8 d "bNumInterfaces", u8 d "bConfigurationValue",
    u8 d "iConfiguration", u8 d "bmAttributes", u8 d "MaxPower"⟩, bytesOf (cfg.get "daExtra"),
    (d.get "aofAltsettings").elems.map altsettings⟩

/-- A text in 16-bit characters, or the bytes themselves. -/
def text : Json → List U8
  | string s => s.toList.flatMap fun c => store .little (BitVec.ofNat 16 c.toNat)
  | v => bytesOf v

def string (s : Json) : List U8 :=
  let d := s.get "StringDescriptor"
  u8 d "bLength" :: u8 d "bDescriptorType" :: text (d.get "string")

def language (lang : Json) : U16 × List (List U8) :=
  (u16 lang "wLanguageId", (lang.get "aofStrings").elems.map string)

/-- The languages in the order of their numbers. -/
def strings (langs : List Json) : StringDescriptorMap :=
  (langs.map language).insertionSort fun p q => p.1 ≤ q.1

def superspeedUsb (s : Json) : List U8 :=
  [u8 s "bmAttributes"] ++ store .little (u16 s "wSpeedSupported") ++
    [u8 s "bFunctionalitySupport", u8 s "bU1DevExitLat"] ++ store .little (u16 s "bU2DevExitLat")

def capabilityData (c : Json) : List U8 :=
  if num (c.get "bDevCapabilityType") = 2 ∧ c.has "USB 2.0 Extension" then
    store .little (numAt 32 (c.get "USB 2.0 Extension") "bmAttributes")
  else if num (c.get "bDevCapabilityType") = 3 ∧ c.has "SuperSpeed USB" then
    superspeedUsb (c.get "SuperSpeed USB")
  else bytesOf (c.get "daDevCapability")

def capability (c : Json) : BosDevCapabilityDescriptor :=
  ⟨⟨u8 c "bLength", u8 c "bDescriptorType", u8 c "bDevCapabilityType"⟩, capabilityData c⟩

def bos (b : Json) : Bos :=
  ⟨⟨u8 b "bLength", u8 b "bDescriptorType", u16 b "wTotalLength", u8 b "bNumDeviceCaps"⟩,
    (b.get "aofDeviceCaps").elems.map capability⟩

def deviceDescriptor (d : Json) : LibusbDeviceDescriptor :=
  ⟨u8 d "bLength", u8 d "bDescriptorType", u16 d "bcdUSB", u8 d "bDeviceClass", u8 d "bDeviceSubClass",
    u8 d "bDeviceProtocol", u8 d "bMaxPacketSize0", u16 d "idVendor", u16 d "idProduct", u16 d "bcdDevice",
    u8 d "iManufacturer", u8 d "iProduct", u8 d "iSerial", u8 d "bNumConfigurations"⟩

end Meaning

/-! ### Documents that describe one device -/

/-- The first device. -/
def deviceOf (root : Json) : Json := (root.get "aofDevices").elems.headD .null

def configurationsOf (dev : Json) : List Json := ((dev.get "Device Descriptor").get "aofConfigurations").elems

def languagesOf (dev : Json) : List Json := (dev.get "aofStringDescriptors").elems

/-- The tree that the first device denotes. -/
def Meaning.tree (root : Json) : Tree :=
  let dev := deviceOf root
  ⟨deviceDescriptor (dev.get "Device Descriptor"), configuration ((configurationsOf dev).headD .null),
    strings (languagesOf dev), bos (dev.get "BOS Descriptor"), bytesOf (dev.get "daReportDescriptor")⟩

/-- An ASCII text, or an array of bytes. -/
def isText : Json → Bool
  | string s => s.toList.all fun c => c.toNat < 128
  | v => Schema.daUsbBytes v

/-- The length of a string descriptor is that of its two leading bytes and its text. -/
structure StringFits (s : Json) : Prop where
  isText : Viu.isText ((s.get "StringDescriptor").get "string") = true
  length : num ((s.get "StringDescriptor").get "bLength") =
    2 + (Meaning.text ((s.get "StringDescriptor").get "string")).length

def stringFits (s : Json) : Bool :=
  isText ((s.get "StringDescriptor").get "string") &&
    num ((s.get "StringDescriptor").get "bLength") = 2 + (Meaning.text ((s.get "StringDescriptor").get "string")).length

theorem StringFits.of_eq {s : Json} (h : stringFits s = true) : StringFits s := by
  rw [stringFits, Bool.and_eq_true, decide_eq_true_eq] at h
  exact ⟨h.1, h.2⟩

/-- One configuration, all sections, different languages, string lengths that fit, and no
number written with a fraction or an exponent. -/
structure Complete (root : Json) : Prop where
  integers : root.all notDouble = true
  configuration : (configurationsOf (deviceOf root)).length = 1
  strings : (deviceOf root).has "aofStringDescriptors" = true
  languages : ((languagesOf (deviceOf root)).map fun lang => num (lang.get "wLanguageId")).Nodup
  fits : ∀ lang ∈ languagesOf (deviceOf root), ∀ s ∈ (lang.get "aofStrings").elems, StringFits s
  report : (deviceOf root).has "daReportDescriptor" = true
  bos : (deviceOf root).has "BOS Descriptor" = true

/-! ### Numbers -/

theorem ofDigits_lt {b : ℕ} {ds : List Char} (h : ∀ c ∈ ds, digitValue c < b) : ofDigits b ds < b ^ ds.length :=
  Digits.value_lt h

/-- What the pattern of a hexadecimal number allows. -/
theorem hex_iff {n : ℕ} {s : String} : Schema.hex n s = true ↔
    ∃ x d ds, s.toList = '0' :: x :: d :: ds ∧ (x = 'x' ∨ x = 'X') ∧ (d :: ds).length ≤ n ∧
      ∀ c ∈ d :: ds, digitValue c < 16 := by
  unfold Schema.hex
  constructor
  · intro h
    split at h
    · rename_i x ds heq
      simp only [decide_eq_true_eq, Schema.isHexDigit, List.all_eq_true] at h
      obtain ⟨hx, hne, hlen, hall⟩ := h
      cases ds with
      | nil => exact absurd rfl hne
      | cons d ds => exact ⟨x, d, ds, heq, hx, hlen, hall⟩
    · cases h
  · rintro ⟨x, d, ds, heq, hx, hlen, hall⟩
    simp only [heq, decide_eq_true_eq, Schema.isHexDigit, List.all_eq_true]
    exact ⟨hx, List.cons_ne_nil _ _, hlen, hall⟩

/-- A number, its sign and its digits apart. -/
def withSign (negative : Bool) (n : ℕ) : ℤ := if negative then -n else n

/-- The integer that a string denotes, in the base its prefix tells. -/
def literalValue (cs : List Char) : Option ℤ :=
  let (base, ds) := basePrefix (signed cs).2
  if ds ≠ [] ∧ ds.all (fun c => digitValue c < base) then some (withSign (signed cs).1 (ofDigits base ds)) else none

theorem withSign_ofInt (k : ℕ) (negative : Bool) (n : ℕ) :
    BitVec.ofInt k (withSign negative n) = if negative then -BitVec.ofNat k n else BitVec.ofNat k n := by
  unfold withSign
  cases negative with
  | true => exact BitVec.ofInt_neg
  | false => exact BitVec.ofInt_natCast k n

theorem natAbs_withSign (negative : Bool) (n : ℕ) : (withSign negative n).natAbs = n := by
  unfold withSign
  cases negative with
  | true => exact Int.natAbs_neg n
  | false => rfl

theorem signed_cases (w : Word) : (∃ c, (c = '-' ∨ c = '+') ∧ w = c :: (signed w).2) ∨ signed w = (false, w) := by
  match w with
  | [] => exact .inr rfl
  | c :: ds =>
    by_cases hminus : c = '-'
    · subst hminus
      exact .inl ⟨'-', .inl rfl, rfl⟩
    by_cases hplus : c = '+'
    · subst hplus
      exact .inl ⟨'+', .inr rfl, rfl⟩
    exact .inr (signed_of_ne hminus hplus ds)

theorem isSpace_sign {c : Char} (h : c = '-' ∨ c = '+') : isSpace c = false := by
  rcases h with rfl | rfl <;> rfl

theorem isSpace_of_digitValue {c : Char} (h : digitValue c < 16) : isSpace c = false := by
  rw [isSpace, decide_eq_false_iff_not]
  intro hspace
  have h0 : ¬ '0' ≤ c := fun hle => by
    have hle : 48 ≤ c.toNat := hle
    omega
  have ha : ¬ 'a' ≤ c := fun hle => by
    have hle : 97 ≤ c.toNat := hle
    omega
  have hA : ¬ 'A' ≤ c := fun hle => by
    have hle : 65 ≤ c.toNat := hle
    omega
  unfold digitValue at h
  rw [if_neg (fun hc => h0 hc.1), if_neg (fun hc => ha hc.1), if_neg (fun hc => hA hc.1)] at h
  omega

theorem basePrefix_le (cs : List Char) : (basePrefix cs).1 ≤ 16 := by
  unfold basePrefix
  split
  · split
    · exact Nat.le_refl 16
    · exact (by decide : 8 ≤ 16)
  · exact (by decide : 8 ≤ 16)
  · exact (by decide : 10 ≤ 16)

/-- A prefix begins with a zero. -/
theorem basePrefix_snd (cs : List Char) : (basePrefix cs).2 = cs ∨ ∃ ds, cs = '0' :: ds := by
  unfold basePrefix
  split
  · exact .inr ⟨_, rfl⟩
  · exact .inr ⟨_, rfl⟩
  · exact .inl rfl

theorem literalValue_eq_some {cs : List Char} {z : ℤ} (h : literalValue cs = some z) :
    (basePrefix (signed cs).2).2 ≠ [] ∧
      (∀ c ∈ (basePrefix (signed cs).2).2, digitValue c < (basePrefix (signed cs).2).1) ∧
      withSign (signed cs).1 (ofDigits (basePrefix (signed cs).2).1 (basePrefix (signed cs).2).2) = z := by
  unfold literalValue at h
  generalize basePrefix (signed cs).2 = p at h ⊢
  dsimp only at h
  split at h
  · next hds =>
    refine ⟨hds.1, ?_, Option.some.inj h⟩
    intro c hc
    exact of_decide_eq_true (List.all_eq_true.mp hds.2 c hc)
  · cases h

/-- A number begins with its sign or a digit. -/
theorem dropWhile_isSpace_of_literal {cs : List Char} {z : ℤ} (h : literalValue cs = some z) :
    cs.dropWhile isSpace = cs := by
  obtain ⟨-, hall, -⟩ := literalValue_eq_some h
  apply Cut.dropWhile_stop
  intro c hc
  rcases signed_cases cs with ⟨sign, hsign, hcs⟩ | hcs
  · rw [hcs] at hc
    exact Option.some.inj hc ▸ isSpace_sign hsign
  · rw [hcs] at hall
    rcases basePrefix_snd cs with hds | ⟨ds, hds⟩
    · apply isSpace_of_digitValue
      calc digitValue c < (basePrefix cs).1 := hall c (by rw [hds]; exact List.mem_of_mem_head? hc)
        _ ≤ 16 := basePrefix_le cs
    · rw [hds] at hc
      exact Option.some.inj hc ▸ rfl

/-- `std::stoul` of a number: its value modulo `2 ^ 64`, if the digits fit. -/
theorem stoul_eq {s : String} {z : ℤ} (h : literalValue s.toList = some z) :
    stoul s = if z.natAbs < 2 ^ 64 then .ok (BitVec.ofInt 64 z) else .error .outOfRange := by
  have hdrop := dropWhile_isSpace_of_literal h
  obtain ⟨hne, hall, rfl⟩ := literalValue_eq_some h
  have htake : (basePrefix (signed s.toList).2).2.takeWhile
      (fun c => digitValue c < (basePrefix (signed s.toList).2).1) = (basePrefix (signed s.toList).2).2 := by
    apply List.takeWhile_eq_self_iff.mpr
    intro c hc
    exact decide_eq_true (hall c hc)
  unfold stoul
  rw [hdrop, natAbs_withSign, withSign_ofInt]
  dsimp only
  rw [htake, if_neg hne]

theorem stoul_hex {s : String} {x d : Char} {ds : List Char} (hs : s.toList = '0' :: x :: d :: ds)
    (hx : x = 'x' ∨ x = 'X') (hlen : (d :: ds).length ≤ 8) (hall : ∀ c ∈ d :: ds, digitValue c < 16) :
    stoul s = .ok (BitVec.ofNat 64 (ofDigits 16 (d :: ds))) := by
  have hprefix : basePrefix (signed ('0' :: x :: d :: ds)).2 = (16, d :: ds) := by
    show basePrefix ('0' :: x :: d :: ds) = _
    rw [basePrefix, if_pos ⟨hx, hall d List.mem_cons_self⟩]
  have hvalue : literalValue s.toList = some (ofDigits 16 (d :: ds) : ℤ) := by
    unfold literalValue
    rw [hs, hprefix]
    refine if_pos ⟨List.cons_ne_nil _ _, List.all_eq_true.mpr ?_⟩
    intro c hc
    exact decide_eq_true (hall c hc)
  have hlt : ofDigits 16 (d :: ds) < 2 ^ 64 := by
    calc ofDigits 16 (d :: ds) < 16 ^ (d :: ds).length := ofDigits_lt hall
      _ ≤ 16 ^ 8 := Nat.pow_le_pow_right (by decide) hlen
      _ ≤ 2 ^ 64 := by decide
  rw [stoul_eq hvalue, Int.natAbs_natCast, if_pos hlt, BitVec.ofInt_natCast]

/-- The parser reads the number that `v` denotes. -/
structure IsNumber (w : ℕ) (v : Json) : Prop where
  reads : Parser.readU32 v = .ok (BitVec.ofNat 32 (num v))
  lt : num v < 2 ^ w

/-- Parsed, and with no `double` inside. -/
structure Plain (v : Json) : Prop where
  parsed : v.all parsedNode = true
  integers : v.all notDouble = true

theorem Plain.lookup {ms : Members} {key : String} {v : Json} (h : Plain (object ms))
    (hv : ms.lookup key = some v) : Plain v := ⟨all_lookup h.parsed hv, all_lookup h.integers hv⟩

theorem Plain.elem {vs : List Json} {v : Json} (h : Plain (array vs)) (hv : v ∈ vs) : Plain v :=
  ⟨all_elem h.parsed hv, all_elem h.integers hv⟩

theorem Plain.length_le {vs : List Json} (h : Plain (array vs)) : vs.length ≤ maxStructuredSize :=
  of_decide_eq_true (all_self h.parsed)

/-- Only an integer or a hexadecimal string is a number of the schema. -/
theorem usbNumber_iff {max digits : ℕ} {v : Json} : Schema.usbNumber max digits v = true ↔
    (∃ q, number v = some q ∧ q.den = 1 ∧ 0 ≤ q ∧ q ≤ max) ∨ ∃ s, v = string s ∧ Schema.hex digits s = true := by
  unfold Schema.usbNumber oneOf allOf integer minimum maximum
  cases v <;> simp [number, isString, pattern, List.countP_cons]

theorem isNumber_of_usbNumber {max digits w : ℕ} {v : Json} (h : Schema.usbNumber max digits v = true) (hv : Plain v)
    (hmax : max < 2 ^ w) (hdigits : 16 ^ digits ≤ 2 ^ w) (hd8 : digits ≤ 8) (hw : max < 2 ^ 32) : IsNumber w v := by
  rcases usbNumber_iff.mp h with ⟨q, hq, -, h0, hle⟩ | ⟨s, rfl, hs⟩
  · cases v with
    | int64 n =>
      obtain rfl : (n : ℚ) = q := Option.some.inj hq
      have hn0 : 0 ≤ n := by exact_mod_cast h0
      have hnle : n ≤ max := by exact_mod_cast hle
      have hcast : n = (n.toNat : ℤ) := (Int.toNat_of_nonneg hn0).symm
      refine ⟨?_, show n.toNat < 2 ^ w by omega⟩
      show Except.ok (BitVec.ofInt 32 n) = .ok (BitVec.ofNat 32 n.toNat)
      rw [hcast, BitVec.ofInt_natCast]
      rfl
    | uint64 n =>
      -- a small integer is never of this kind
      obtain rfl : (n : ℚ) = q := Option.some.inj hq
      have hnle : n ≤ max := by exact_mod_cast hle
      have hbig : 2 ^ 63 ≤ n ∧ n < 2 ^ 64 := of_decide_eq_true (all_self hv.parsed)
      omega
    | double q => exact absurd (all_self hv.integers) Bool.false_ne_true
    | _ => cases hq
  · obtain ⟨x, d, ds, hlist, hx, hlen, hall⟩ := hex_iff.mp hs
    have hnum : num (string s) = ofDigits 16 (d :: ds) := by rw [num, hlist]; rfl
    have hlt : ofDigits 16 (d :: ds) < 16 ^ (d :: ds).length := ofDigits_lt hall
    constructor
    · rw [hnum]
      show (stoul s).map _ = _
      rw [stoul_hex hlist hx (Nat.le_trans hlen hd8) hall]
      exact congrArg Except.ok (BitVec.setWidth_ofNat_of_le (by decide) _)
    · rw [hnum]
      calc ofDigits 16 (d :: ds) < 16 ^ (d :: ds).length := hlt
        _ ≤ 16 ^ digits := Nat.pow_le_pow_right (by decide) hlen
        _ ≤ 2 ^ w := hdigits

theorem isNumber_usbByte {v : Json} (h : Schema.usbByte v = true) (hv : Plain v) : IsNumber 8 v :=
  isNumber_of_usbNumber h hv (by decide) (by decide) (by decide) (by decide)

theorem isNumber_usbWord {v : Json} (h : Schema.usbWord v = true) (hv : Plain v) : IsNumber 16 v :=
  isNumber_of_usbNumber h hv (by decide) (by decide) (by decide) (by decide)

theorem isNumber_usbDWord {v : Json} (h : Schema.usbDWord v = true) (hv : Plain v) : IsNumber 32 v :=
  isNumber_of_usbNumber h hv (by decide) (by decide) (by decide) (by decide)

end Viu
