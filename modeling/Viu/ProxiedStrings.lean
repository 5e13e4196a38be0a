/-
# Proxied strings

`string_descriptors` reads the strings of each language from index 1 on into a
vector, up to the first index without a string and never further than 254;
`pack_string_descriptor` looks an index up in that vector by its position, 0
being the first. The language table is kept under language 0.

So a string comes back as the device's own exactly when none before it is
missing or empty and its index is not 255 (`proxied_string_iff`).
-/
import Viu.Open

namespace Viu

open Bytes Table

theorem StringDescriptor.bytes_ne_nil (s : StringDescriptor) : s.bytes ≠ [] := by
  intro h
  have hlen := s.two_le_length
  simp [h] at hlen

theorem StringDescriptor.ext_bytes {s t : StringDescriptor} (h : s.bytes = t.bytes) : s = t := by
  cases s
  cases t
  cases h
  rfl

namespace LibusbDevice

variable {E : Order} {dev : LibusbDevice} {table : StringDescriptor} {l : U16} {i : U8}

/-- The languages a table lists, little-endian words behind its header. -/
def languages (table : StringDescriptor) : List U16 := (wordsOf .little table.bytes).drop 1

/-- The languages as the machine reads them. -/
def langIds (E : Order) (table : StringDescriptor) : List U16 := (wordsOf E table.bytes).drop 1

/-- The device has a string there, and it is not empty. -/
def HasString (dev : LibusbDevice) (languageId : U16) (index : U8) : Prop :=
  ∃ s, dev.strings languageId index = some s ∧ 2 < s.bytes.length

/-- The proxy's device answers as the device does: a string by its own bytes or with
nothing, index 0 with the language table. -/
def AnswersLikeDevice (dev : LibusbDevice) (d : Device) (table : StringDescriptor) (languageId : U16)
    (index : U8) : Prop :=
  d.packStringDescriptor languageId index =
    .ok (if index = 0 then table.bytes else ((dev.strings languageId index).map (·.bytes)).getD [])

/-- The device has no descriptor there, or strings at every index up to it, which
is not 255. Index 0 is asked under language 0; under another language string 1
stands in for it. If the table lists language 0, the table stands in for its
string 1. -/
def StringKept (E : Order) (dev : LibusbDevice) (table : StringDescriptor) (languageId : U16)
    (index : U8) : Prop :=
  if index = 0 then languageId = 0 ∨ languageId ∈ langIds E table ∧ dev.strings languageId 1 = some table
  else if languageId = 0 then
    if index = 1 then dev.strings 0 1 = some table else dev.strings 0 index = none
  else dev.strings languageId index = none ∨
    languageId ∈ langIds E table ∧ index ≠ 255 ∧ ∀ j, j ≠ 0 → j ≤ index → dev.HasString languageId j

/-! ### What is read -/

/-- A descriptor is read whole. -/
theorem stringDescriptor_eq : dev.stringDescriptor l i = (dev.strings l i).map (·.bytes) := by
  unfold stringDescriptor libusbGetStringDescriptor
  cases dev.strings l i with
  | none => rfl
  | some s =>
    have hlen := s.length_lt
    have htwo := s.two_le_length
    have htake : s.bytes.take 256 = s.bytes := List.take_of_length_le (by omega)
    simp only [Option.map_some, htake]
    exact if_neg (by omega)

/-- The length in its first byte says whether a string is empty. -/
theorem sizeOf_ne_zero_iff : sizeOf (dev.stringDescriptor l i) ≠ 0 ↔ dev.HasString l i := by
  rw [stringDescriptor_eq]
  unfold HasString
  cases dev.strings l i with
  | none => simp [sizeOf]
  | some s =>
    have hlen := s.length_lt
    have htwo := s.two_le_length
    have hhead : s.bytes.headD 0 = BitVec.ofNat 8 s.bytes.length := by
      rw [List.headD_eq_head?_getD, s.bLength_eq]
      rfl
    have hnat : (BitVec.ofNat 8 s.bytes.length).toNat = s.bytes.length := by
      rw [BitVec.toNat_ofNat]
      omega
    simp only [Option.map_some, sizeOf, if_neg (Nat.not_lt.mpr htwo), hhead, hnat, Option.some.injEq,
      exists_eq_left']
    omega

/-- The vector holds a string at a position just when there is one at every index
up to it. -/
theorem getElem?_stringsFrom {n first k : ℕ} {bytes : List U8} :
    (dev.stringsFrom l first n)[k]? = some bytes ↔
      k < n ∧ (∀ j, j ≤ k → dev.HasString l (BitVec.ofNat 8 (first + j))) ∧
        (dev.strings l (BitVec.ofNat 8 (first + k))).map (·.bytes) = some bytes := by
  induction n generalizing first k with
  | zero => simp [stringsFrom]
  | succ n ih =>
    unfold stringsFrom
    dsimp only
    by_cases hs : dev.HasString l (BitVec.ofNat 8 first)
    · rw [if_pos (sizeOf_ne_zero_iff.mpr hs)]
      cases k with
      | zero =>
        obtain ⟨s, hsome, -⟩ := id hs
        simp [stringDescriptor_eq, hsome, hs]
      | succ k =>
        rw [List.getElem?_cons_succ, ih, Nat.add_lt_add_iff_right, Nat.add_assoc, Nat.add_comm 1 k]
        refine and_congr_right fun _ => and_congr_left fun _ => ?_
        constructor
        · intro h j hj
          cases j with
          | zero => exact hs
          | succ j =>
            have := h j (Nat.le_of_succ_le_succ hj)
            rwa [Nat.add_assoc, Nat.add_comm 1 j] at this
        · intro h j hj
          have := h (j + 1) (Nat.succ_le_succ hj)
          rwa [Nat.add_assoc, Nat.add_comm 1 j]
    · rw [if_neg (sizeOf_ne_zero_iff.not.mpr hs)]
      refine iff_of_false (by simp) ?_
      rintro ⟨-, hall, -⟩
      exact hs (hall 0 (Nat.zero_le k))

/-! ### The map -/

/-- The insertion of one language. -/
def insertLanguage (dev : LibusbDevice) (stringMap : StringDescriptorMap) (langId : U16) : StringDescriptorMap :=
  let stringDesc := dev.pairWithStringDesc langId
  if stringDesc.2.isEmpty then stringMap else insertBy BitVec.toNat stringMap stringDesc.1 stringDesc.2

/-- The strings of a language that has some. -/
def kept (dev : LibusbDevice) (langId : U16) : Option (List (List U8)) :=
  if dev.stringsFrom langId 1 254 = [] then none else some (dev.stringsFrom langId 1 254)

theorem insertLanguage_spec {m : StringDescriptorMap} (hm : Sorted BitVec.toNat m) (langId : U16) :
    Sorted BitVec.toNat (dev.insertLanguage m langId) ∧
      (dev.insertLanguage m langId).lookup l = (m.lookup l).or (if langId = l then dev.kept l else none) := by
  unfold insertLanguage kept pairWithStringDesc
  dsimp only
  by_cases he : dev.stringsFrom langId 1 254 = []
  · have hempty : (dev.stringsFrom langId 1 254).isEmpty = true := by rw [he]; rfl
    rw [if_pos hempty]
    refine ⟨hm, ?_⟩
    by_cases hl : langId = l
    · rw [if_pos hl, ← hl, if_pos he, Option.or_none]
    · rw [if_neg hl, Option.or_none]
  · have hempty : ¬ (dev.stringsFrom langId 1 254).isEmpty = true := by simpa using he
    have hinj : Function.Injective (BitVec.toNat : U16 → ℕ) := fun _ _ => BitVec.eq_of_toNat_eq
    rw [if_neg hempty]
    refine ⟨sorted_insertBy hm, ?_⟩
    rw [lookup_insertBy hinj hm]
    by_cases hl : langId = l
    · subst hl
      rw [if_pos rfl, if_pos rfl, if_neg he]
    · rw [if_neg hl, if_neg hl]

theorem foldl_insertLanguage {langs : List U16} {m : StringDescriptorMap} (hm : Sorted BitVec.toNat m) :
    (langs.foldl dev.insertLanguage m).lookup l =
      (m.lookup l).or (if l ∈ langs then dev.kept l else none) := by
  induction langs generalizing m with
  | nil => simp
  | cons langId langs ih =>
    obtain ⟨hsorted, hlookup⟩ := dev.insertLanguage_spec (l := l) hm langId
    rw [List.foldl_cons, ih hsorted, hlookup, Option.or_assoc]
    congr 1
    by_cases hl : langId = l
    · have hmem : l ∈ langId :: langs := by simp [hl]
      rw [if_pos hl, if_pos hmem]
      split_ifs <;> simp
    · have hmem : l ∈ langId :: langs ↔ l ∈ langs := by simp [Ne.symm hl]
      simp [hl, hmem]

/-- What the tree has under a language. -/
theorem lookup_stringDescriptors (ht : dev.strings 0 0 = some table) : (dev.stringDescriptors E).lookup l =
    if l = 0 then some [table.bytes] else if l ∈ langIds E table then dev.kept l else none := by
  have htable : dev.stringDescriptor 0 0 = some table.bytes := by rw [stringDescriptor_eq, ht]; rfl
  have hlangs : ((dev.stringDescriptor16 E 0 0).getD []).drop 1 = langIds E table := by
    rw [stringDescriptor16, htable]
    rfl
  have hfold : dev.stringDescriptors E = (langIds E table).foldl dev.insertLanguage [(0, [table.bytes])] := by
    rw [← hlangs]
    unfold stringDescriptors
    rw [htable]
    rfl
  have hone : Sorted BitVec.toNat [((0 : U16), [table.bytes])] := List.pairwise_singleton _ _
  rw [hfold, foldl_insertLanguage hone]
  by_cases hl : l = 0
  · simp [hl]
  · have hne : (l == 0) = false := beq_eq_false_iff_ne.mpr hl
    rw [if_neg hl, List.lookup_cons, hne]
    rfl

/-! ### What is answered -/

theorem open_pack (l : U16) (i : U8) (ht : dev.strings 0 0 = some table) :
    (Device.opened E dev).packStringDescriptor l i =
      match (if l = 0 then some [table.bytes] else if l ∈ langIds E table then dev.kept l else none) with
      | none => .ok []
      | some strings =>
        if strings.length < i.toNat then .ok []
        else
          match strings[if i = 0 then 0 else i.toNat - 1]? with
          | none => .error .outOfRange
          | some descriptor => .ok descriptor := by
  rw [← lookup_stringDescriptors (E := E) ht]
  rfl

/-- Where an index is looked up. -/
def position (index : U8) : ℕ := if index = 0 then 0 else index.toNat - 1

/-- A string is looked up by position. -/
theorem pack_of_language (hl : l ≠ 0) (ht : dev.strings 0 0 = some table) :
    (Device.opened E dev).packStringDescriptor l i =
      .ok (if l ∈ langIds E table then ((dev.stringsFrom l 1 254)[position i]?).getD [] else []) := by
  have hpos : i ≠ 0 → i.toNat ≠ 0 := fun hi hz => hi (BitVec.eq_of_toNat_eq hz)
  rw [open_pack l i ht, if_neg hl]
  by_cases hmem : l ∈ langIds E table
  · rw [if_pos hmem, if_pos hmem]
    unfold kept
    by_cases he : dev.stringsFrom l 1 254 = []
    · rw [if_pos he, he]
      rfl
    · have hlen := List.length_pos_iff.mpr he
      rw [if_neg he]
      show (if (dev.stringsFrom l 1 254).length < i.toNat then _ else
        match (dev.stringsFrom l 1 254)[position i]? with | none => _ | some descriptor => _) = _
      by_cases hlt : (dev.stringsFrom l 1 254).length < i.toNat
      · have hi : i ≠ 0 := fun hz => by simp [hz] at hlt
        have hnone : (dev.stringsFrom l 1 254)[position i]? = none := by
          rw [position, if_neg hi]
          exact List.getElem?_eq_none (by omega)
        rw [if_pos hlt, hnone]
        rfl
      · have hin : position i < (dev.stringsFrom l 1 254).length := by
          unfold position
          split_ifs with hi
          · exact hlen
          · have := hpos hi
            omega
        rw [if_neg hlt, List.getElem?_eq_getElem hin]
        rfl
  · rw [if_neg hmem, if_neg hmem]

theorem getD_bytes_eq_nil_iff (s : Option StringDescriptor) : [] = (s.map (·.bytes)).getD [] ↔ s = none := by
  cases s with
  | none => simp
  | some s => simpa using s.bytes_ne_nil.symm

theorem bytes_eq_getD_iff (s : Option StringDescriptor) :
    table.bytes = (s.map (·.bytes)).getD [] ↔ s = some table := by
  cases s with
  | none => simpa using table.bytes_ne_nil
  | some s =>
    refine ⟨fun h => congrArg some (StringDescriptor.ext_bytes h.symm), fun h => ?_⟩
    cases h
    rfl

/-- What stands at a position. -/
theorem getD_stringsFrom_eq_iff {k : ℕ} (s : StringDescriptor) :
    ((dev.stringsFrom l 1 254)[k]?).getD [] = s.bytes ↔
      k < 254 ∧ (∀ j, j ≤ k → dev.HasString l (BitVec.ofNat 8 (1 + j))) ∧
        dev.strings l (BitVec.ofNat 8 (1 + k)) = some s := by
  have hget : ((dev.stringsFrom l 1 254)[k]?).getD [] = s.bytes ↔
      (dev.stringsFrom l 1 254)[k]? = some s.bytes := by
    cases (dev.stringsFrom l 1 254)[k]? with
    | none => exact iff_of_false (fun h => s.bytes_ne_nil h.symm) (by simp)
    | some bytes => simp
  have hmap : (dev.strings l (BitVec.ofNat 8 (1 + k))).map (·.bytes) = some s.bytes ↔
      dev.strings l (BitVec.ofNat 8 (1 + k)) = some s := by
    cases dev.strings l (BitVec.ofNat 8 (1 + k)) with
    | none => simp
    | some s' => simpa using ⟨StringDescriptor.ext_bytes, congrArg StringDescriptor.bytes⟩
  rw [hget, getElem?_stringsFrom, hmap]

theorem ofNat_position (hi : i ≠ 0) : BitVec.ofNat 8 (1 + position i) = i := by
  have hpos : i.toNat ≠ 0 := fun hz => hi (BitVec.eq_of_toNat_eq hz)
  rw [position, if_neg hi, show 1 + (i.toNat - 1) = i.toNat by omega, BitVec.ofNat_toNat, BitVec.setWidth_eq]

/-- An index above 0 is answered with its string just when there is one at every
index up to it. -/
theorem getD_position_iff {s : StringDescriptor} (hi : i ≠ 0) (hs : dev.strings l i = some s) :
    ((dev.stringsFrom l 1 254)[position i]?).getD [] = s.bytes ↔
      i ≠ 255 ∧ ∀ j, j ≠ 0 → j ≤ i → dev.HasString l j := by
  have hlt := i.isLt
  have hpos : i.toNat ≠ 0 := fun hz => hi (BitVec.eq_of_toNat_eq hz)
  have hposition : position i = i.toNat - 1 := if_neg hi
  have hlast : i ≠ 255 ↔ position i < 254 := by
    have hne : i ≠ 255 ↔ i.toNat ≠ 255 := not_congr BitVec.toNat_inj.symm
    rw [hne, hposition]
    omega
  have hall : (∀ j, j ≠ 0 → j ≤ i → dev.HasString l j) ↔
      ∀ j, j ≤ position i → dev.HasString l (BitVec.ofNat 8 (1 + j)) := by
    rw [hposition]
    constructor
    · intro h j hj
      have hnat : (BitVec.ofNat 8 (1 + j)).toNat = 1 + j := by
        rw [BitVec.toNat_ofNat]
        omega
      refine h _ (fun hz => ?_) (BitVec.le_def.mpr (by omega))
      have hzero : (BitVec.ofNat 8 (1 + j)).toNat = 0 := by rw [hz]; rfl
      omega
    · intro h j hj hle
      have hjpos : j.toNat ≠ 0 := fun hz => hj (BitVec.eq_of_toNat_eq hz)
      have hjle := BitVec.le_def.mp hle
      have hhas := h (j.toNat - 1) (by omega)
      rwa [show 1 + (j.toNat - 1) = j.toNat by omega, BitVec.ofNat_toNat, BitVec.setWidth_eq] at hhas
  rw [getD_stringsFrom_eq_iff, ofNat_position hi, hlast, hall]
  simp [hs]

/-- A table that lists a language is no empty string. -/
theorem two_lt_length_of_language (hl : l ∈ languages table) : 2 < table.bytes.length := by
  have hpos := List.length_pos_of_mem hl
  simp only [languages, wordsOf, List.length_drop, List.length_map, List.length_range] at hpos
  omega

/-- Under a language that has strings, index 0 is answered with string 1. -/
theorem getD_zero_iff (hl : l ∈ languages table) :
    ((dev.stringsFrom l 1 254)[position 0]?).getD [] = table.bytes ↔ dev.strings l 1 = some table := by
  rw [getD_stringsFrom_eq_iff]
  constructor
  · rintro ⟨-, -, h⟩
    exact h
  · intro h
    refine ⟨by decide, fun j hj => ?_, h⟩
    rw [Nat.le_zero.mp hj]
    exact ⟨table, h, two_lt_length_of_language hl⟩

/-- Language 0, under which the tree has the table. -/
theorem answers_zero_iff (ht : dev.strings 0 0 = some table) :
    AnswersLikeDevice dev (.opened E dev) table 0 i ↔ StringKept E dev table 0 i := by
  unfold AnswersLikeDevice StringKept
  rw [open_pack 0 i ht, if_pos rfl]
  by_cases hi : i = 0
  · simp [hi]
  simp only [if_neg hi, ↓reduceIte]
  by_cases h1 : i = 1
  · subst h1
    rw [if_pos rfl, ← bytes_eq_getD_iff]
    simp
  · have hlt : [table.bytes].length < i.toNat := by
      have hpos : i.toNat ≠ 0 := fun hz => hi (BitVec.eq_of_toNat_eq hz)
      have hone : i.toNat ≠ 1 := fun hz => h1 (BitVec.eq_of_toNat_eq hz)
      rw [List.length_singleton]
      omega
    rw [if_neg h1, ← getD_bytes_eq_nil_iff]
    simp only [if_pos hlt, Except.ok.injEq]

/-- Nothing stands at the position of a string that is not there. -/
theorem getD_position_of_none (hi : i ≠ 0) (hs : dev.strings l i = none) :
    ((dev.stringsFrom l 1 254)[position i]?).getD [] = [] := by
  cases hget : (dev.stringsFrom l 1 254)[position i]? with
  | none => rfl
  | some bytes =>
    obtain ⟨-, -, hsome⟩ := getElem?_stringsFrom.mp hget
    rw [ofNat_position hi, hs] at hsome
    cases hsome

theorem answers_language_iff (hz : l ≠ 0) (ht : dev.strings 0 0 = some table) (hl : l ∈ languages table) :
    AnswersLikeDevice dev (.opened E dev) table l i ↔ StringKept E dev table l i := by
  unfold AnswersLikeDevice StringKept
  rw [pack_of_language hz ht, Except.ok.injEq]
  by_cases hmem : l ∈ langIds E table
  · simp only [hmem, ↓reduceIte, true_and, hz, false_or]
    by_cases hi : i = 0
    · rw [if_pos hi, if_pos hi, hi]
      exact getD_zero_iff hl
    rw [if_neg hi, if_neg hi]
    cases hs : dev.strings l i with
    | some s => simpa using getD_position_iff hi hs
    | none => exact iff_of_true (getD_position_of_none hi hs) (.inl rfl)
  · simp only [hmem, ↓reduceIte, false_and, or_false, hz]
    by_cases hi : i = 0
    · rw [if_pos hi, if_pos hi]
      exact iff_of_false table.bytes_ne_nil.symm id
    · rw [if_neg hi, if_neg hi]
      exact getD_bytes_eq_nil_iff _

theorem answers_iff (ht : dev.strings 0 0 = some table) (hl : l ∈ languages table ∨ l = 0 ∧ i = 0) :
    AnswersLikeDevice dev (.opened E dev) table l i ↔ StringKept E dev table l i := by
  by_cases hz : l = 0
  · subst hz
    exact answers_zero_iff ht
  · exact answers_language_iff hz ht (hl.resolve_right fun h => hz h.1)

/-- **Proxied strings**: of a device that has been opened, a supported language and an
index are answered as the device does exactly when the string is kept. -/
theorem proxied_string_iff {libusbOpen : I32} {libusbClaimInterface : U8 → I32} {d : Device}
    (ho : Device.open E dev libusbOpen libusbClaimInterface = .ok d) (ht : dev.strings 0 0 = some table)
    (hl : l ∈ languages table ∨ l = 0 ∧ i = 0) :
    AnswersLikeDevice dev d table l i ↔ StringKept E dev table l i := by
  rw [Device.eq_opened ho]
  exact answers_iff ht hl

end LibusbDevice

/-- The table of language 0x409. -/
def oneLanguage : StringDescriptor := ⟨[4, 3, 9, 4], by decide, by decide, by decide⟩

/-- A device with strings 1 and 3 in language 0x409, and none between. -/
def gapped : LibusbDevice :=
  { LibusbDevice.plain with
    strings := fun l i =>
      if l = 0 ∧ i = 0 then some oneLanguage
      else if l = 0x409 ∧ (i = 1 ∨ i = 3) then some ⟨[4, 3, 86, 0], by decide, by decide, by decide⟩
      else none }

theorem open_gapped : Device.open .little gapped LIBUSB_SUCCESS (fun _ => LIBUSB_SUCCESS) =
    .ok (.opened .little gapped) := rfl

/-- String 3 is lost behind the gap. -/
theorem proxied_string_lost : ¬ ∀ (dev : LibusbDevice) (d : Device) (table : StringDescriptor) (l : U16) (i : U8),
    Device.open .little dev LIBUSB_SUCCESS (fun _ => LIBUSB_SUCCESS) = .ok d →
    dev.strings 0 0 = some table → l ∈ LibusbDevice.languages table ∨ l = 0 ∧ i = 0 →
    LibusbDevice.AnswersLikeDevice dev d table l i := by
  intro h
  have hlike := h gapped _ oneLanguage 0x409 3 open_gapped rfl (.inl (by decide))
  rw [LibusbDevice.answers_language_iff (by decide) rfl (by decide)] at hlike
  rcases hlike with hnone | ⟨-, -, hall⟩
  · cases hnone
  · obtain ⟨s, hs, -⟩ := hall 2 (by decide) (by decide)
    cases hs

theorem proxied_string_first :
    LibusbDevice.AnswersLikeDevice gapped (.opened .little gapped) oneLanguage 0x409 1 := by
  have hkept : LibusbDevice.StringKept .little gapped oneLanguage 0x409 1 := by
    refine .inr ⟨by decide, by decide, fun j hj hle => ?_⟩
    obtain rfl : j = 1 := by
      revert j
      decide
    exact ⟨_, rfl, by decide⟩
  exact (LibusbDevice.proxied_string_iff open_gapped rfl (.inl (by decide))).mpr hkept

end Viu
