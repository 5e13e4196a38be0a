/-
# The parser writes what a document denotes

What each part of the parser writes of a valid part of a document is what
`stream_out` writes of the node the part denotes (`writes_endpoint`, ..,
`writes_bos`). The two are made apart: the parser counts six bytes for a
companion, four or seven for a capability, and takes the size of a string from
its descriptor.
-/
import Viu.JsonMeaning

namespace Viu

open Bytes Text Tokens Json Json.Schema

variable {ps ps' : List (String × Schema)} {keys : List String} {ms : Members} {key : String} {v : Json}
  {vs : List Json} {s : Schema} {w : ℕ}

/-! ### Parts of a valid document -/

/-- An object whose members follow their schemas. -/
structure Fields (ps : List (String × Schema)) (ms : Members) : Prop where
  valid : properties ps (object ms) = true
  plain : Plain (object ms)

/-- .. that has no others and has those of `keys`. -/
structure Closed (ps : List (String × Schema)) (keys : List String) (ms : Members) : Prop extends Fields ps ms where
  other : noOther ps (object ms) = true
  present : Json.Schema.required keys (object ms) = true

/-- The elements of an array. -/
structure Elements (s : Schema) (vs : List Json) : Prop where
  elem : ∀ v ∈ vs, s v = true ∧ Plain v
  size : vs.length ≤ maxStructuredSize

theorem closed_of (h : closed ps keys v = true) (hv : Plain v) : ∃ ms, v = object ms ∧ Closed ps keys ms := by
  obtain ⟨ms, rfl, hps, hother, hkeys⟩ := closed_iff.mp h
  exact ⟨ms, rfl, ⟨hps, hv⟩, hother, hkeys⟩

theorem elements_of (h : arrayOf s v = true) (hv : Plain v) : ∃ vs, v = array vs ∧ Elements s vs := by
  obtain ⟨vs, rfl, hs⟩ := arrayOf_iff.mp h
  exact ⟨vs, rfl, fun x hx => ⟨hs x hx, hv.elem hx⟩, hv.length_le⟩

theorem get_of_lookup (hv : ms.lookup key = some v) : (object ms).get key = v := by
  rw [Json.get, hv, Option.getD_some]

theorem get_of_none (hv : ms.lookup key = none) : (object ms).get key = null := by
  rw [Json.get, hv, Option.getD_none]

theorem Fields.member (h : Fields ps ms) (hs : ps.lookup key = some s) (hv : ms.lookup key = some v) :
    s v = true ∧ Plain v :=
  ⟨properties_lookup h.valid hs hv, h.plain.lookup hv⟩

theorem memberAt_ok (hv : ms.lookup key = some v) : memberAt ms key = .ok v := by
  rw [memberAt, hv]

theorem Fields.objectAt (h : Fields ps ms) (hv : ms.lookup key = some v)
    (hs : ps.lookup key = some (closed ps' keys)) :
    ∃ ms', objectAt ms key = .ok ms' ∧ (object ms).get key = object ms' ∧ Closed ps' keys ms' := by
  obtain ⟨hvalid, hplain⟩ := h.member hs hv
  obtain ⟨ms', rfl, hms'⟩ := closed_of hvalid hplain
  refine ⟨ms', ?_, get_of_lookup hv, hms'⟩
  rw [Viu.objectAt, memberAt_ok hv]
  rfl

theorem Fields.arrayAt (h : Fields ps ms) (hv : ms.lookup key = some v) (hs : ps.lookup key = some (arrayOf s)) :
    ∃ vs, arrayAt ms key = .ok vs ∧ (object ms).get key = array vs ∧ Elements s vs := by
  obtain ⟨hvalid, hplain⟩ := h.member hs hv
  obtain ⟨vs, rfl, hvs⟩ := elements_of hvalid hplain
  refine ⟨vs, ?_, get_of_lookup hv, hvs⟩
  rw [Viu.arrayAt, memberAt_ok hv]
  rfl

/-- A member that has to be there. -/
theorem Closed.objectAt {keys' : List String} (h : Closed ps keys ms) (key : String) (hk : key ∈ keys)
    (hs : ps.lookup key = some (closed ps' keys')) :
    ∃ ms', Viu.objectAt ms key = .ok ms' ∧ (object ms).get key = object ms' ∧ Closed ps' keys' ms' := by
  obtain ⟨v, hv⟩ := required_lookup h.present hk
  exact h.toFields.objectAt hv hs

theorem Closed.arrayAt (h : Closed ps keys ms) (key : String) (hk : key ∈ keys)
    (hs : ps.lookup key = some (arrayOf s)) :
    ∃ vs, Viu.arrayAt ms key = .ok vs ∧ (object ms).get key = array vs ∧ Elements s vs := by
  obtain ⟨v, hv⟩ := required_lookup h.present hk
  exact h.toFields.arrayAt hv hs

/-! ### Numbers are written -/

theorem out_ofNat {k n : ℕ} (h : n < 2 ^ k) : out (BitVec.ofNat k n) = Nat.toDigits 10 n := by
  rw [out, BitVec.toNat_ofNat, Nat.mod_eq_of_lt h]

theorem writes_num (n : BitVec 32) : Writes out (Parser.writeNum n) [out n] () := Writes.tell n

theorem writes_nums (ns : List (BitVec 32)) : Writes out (Writer.forEach Parser.writeNum ns) (ns.map out) () := by
  rw [List.map_eq_flatMap]
  exact Writes.forEach fun n _ => writes_num n

theorem writes_size {n : ℕ} (h : n < 2 ^ 32) : Writes out (Parser.writeSize n) [outSize n] () := by
  have hn : out (BitVec.ofNat 32 n) = outSize n := by
    rw [outSize, out_ofNat h, out_ofNat (by omega)]
  rw [← hn]
  exact writes_num _

theorem writes_read {x : Except JsonExn (BitVec 32)} {n : BitVec 32} (h : x = .ok n) :
    Writes out (Parser.writeRead x) [out n] () := Writes.lift h (writes_num n)

/-- A member that is a number, or is not there. -/
theorem Fields.read (h : Fields ps ms) (hs : ps.lookup key = some s)
    (hn : ∀ v, s v = true → Plain v → IsNumber w v) :
    Parser.readU32At ms key = .ok (BitVec.ofNat 32 (num ((object ms).get key))) ∧
      num ((object ms).get key) < 2 ^ w := by
  unfold Parser.readU32At
  cases hv : ms.lookup key with
  | none =>
    rw [get_of_none hv]
    exact ⟨rfl, Nat.two_pow_pos w⟩
  | some v =>
    obtain ⟨hvalid, hplain⟩ := h.member hs hv
    rw [get_of_lookup hv]
    exact ⟨(hn v hvalid hplain).reads, (hn v hvalid hplain).lt⟩

theorem Fields.writes (h : Fields ps ms) (hs : ps.lookup key = some s)
    (hn : ∀ v, s v = true → Plain v → IsNumber w v) (hw : w ≤ 32) :
    Writes out (Parser.writeRead (Parser.readU32At ms key)) [out (numAt w (object ms) key)] () := by
  obtain ⟨hread, hlt⟩ := h.read hs hn
  have h32 : num ((object ms).get key) < 2 ^ 32 := Nat.lt_of_lt_of_le hlt (Nat.pow_le_pow_right (by decide) hw)
  rw [numAt, out_ofNat hlt, ← out_ofNat h32]
  exact writes_read hread

theorem Fields.writes_u8 (h : Fields ps ms) (hs : ps.lookup key = some Schema.usbByte) :
    Writes out (Parser.writeRead (Parser.readU32At ms key)) [out (u8 (object ms) key)] () :=
  h.writes hs (fun _ => isNumber_usbByte) (by decide)

theorem Fields.writes_u16 (h : Fields ps ms) (hs : ps.lookup key = some Schema.usbWord) :
    Writes out (Parser.writeRead (Parser.readU32At ms key)) [out (u16 (object ms) key)] () :=
  h.writes hs (fun _ => isNumber_usbWord) (by decide)

/-- A byte that is at least 1. -/
theorem Fields.writes_positive (h : Fields ps ms) (hs : ps.lookup key = some (allOf [Schema.usbByte, minimum 1])) :
    Writes out (Parser.writeRead (Parser.readU32At ms key)) [out (u8 (object ms) key)] () := by
  refine h.writes hs (fun v hv hp => isNumber_usbByte ?_ hp) (by decide)
  simp only [allOf, List.all_cons, Bool.and_eq_true] at hv
  exact hv.1

theorem isNumber_bytes (h : Elements Schema.usbByte vs) (hv : v ∈ vs) : IsNumber 8 v :=
  isNumber_usbByte (h.elem v hv).1 (h.elem v hv).2

theorem writes_da (h : Elements Schema.usbByte vs) :
    Writes out (Parser.writeDa vs) ((bytesOf (array vs)).map out) () := by
  have hmap : (bytesOf (array vs)).map out = vs.flatMap fun e => [out (BitVec.ofNat 32 (num e))] := by
    rw [← List.map_eq_flatMap]
    show (vs.map _).map out = _
    rw [List.map_map]
    apply List.map_congr_left
    intro e he
    have hlt : num e < 2 ^ 8 := (isNumber_bytes h he).lt
    show out (BitVec.ofNat 8 (num e)) = _
    rw [out_ofNat hlt, out_ofNat (by omega)]
  rw [hmap]
  apply Writes.forEach
  intro e he
  exact writes_read (isNumber_bytes h he).reads

theorem lt_of_le_maxStructuredSize {n : ℕ} (h : n ≤ maxStructuredSize) : n + 6 < 2 ^ 32 := by
  have hmax : maxStructuredSize = 0x7ffffffe := rfl
  omega

/-- The size of an array of bytes, and the bytes. -/
theorem writes_vector (h : Elements Schema.usbByte vs) :
    Writes out (Writer.bind (Parser.writeSize vs.length) fun _ => Parser.writeDa vs)
      (outVector (bytesOf (array vs))) () := by
  have hlen : (bytesOf (array vs)).length = vs.length := List.length_map _
  have hlt := lt_of_le_maxStructuredSize h.size
  rw [outVector, hlen]
  exact (writes_size (by omega)).cons (writes_da h)

/-- The size of an array, and what is written of each element. -/
theorem writes_array {α : Type} {out' : α → List Word} {f : Json → α} {write : Json → JsonOut} (h : Elements s vs)
    (hw : ∀ v ∈ vs, Writes out (write v) (out' (f v)) ()) :
    Writes out (Writer.bind (Parser.writeSize vs.length) fun _ => Writer.forEach write vs)
      (outSize (vs.map f).length :: (vs.map f).flatMap out') () := by
  have hlt := lt_of_le_maxStructuredSize h.size
  rw [List.length_map, List.flatMap_map]
  exact (writes_size (by omega)).cons (Writes.forEach hw)

/-- .. and what comes after. -/
theorem writes_array_then {α : Type} {out' : α → List Word} {f : Json → α} {write : Json → JsonOut} {next : JsonOut}
    {ws : List Word} (h : Elements s vs) (hw : ∀ v ∈ vs, Writes out (write v) (out' (f v)) ())
    (hnext : Writes out next ws ()) :
    Writes out (Writer.bind (Parser.writeSize vs.length) fun _ => Writer.bind (Writer.forEach write vs) fun _ => next)
      ((outSize (vs.map f).length :: (vs.map f).flatMap out') ++ ws) () := by
  have hlt := lt_of_le_maxStructuredSize h.size
  rw [List.length_map, List.flatMap_map]
  exact (writes_size (by omega)).cons ((Writes.forEach hw).bind hnext)

/-! ### Bytes of a word -/

theorem toNat_byteAt (n : BitVec 32) (shift : ℕ) : (Parser.byteAt n shift).toNat = n.toNat / 2 ^ shift % 256 := by
  rw [Parser.byteAt, BitVec.toNat_and, BitVec.toNat_ushiftRight, Nat.shiftRight_eq_div_pow]
  exact Nat.and_two_pow_sub_one_eq_mod _ 8

theorem out_byteAt {n : BitVec 32} {x shift : ℕ} (h : n.toNat / 2 ^ shift % 256 = x % 256) :
    out (Parser.byteAt n shift) = out (BitVec.ofNat 8 x) := by
  rw [out, out, toNat_byteAt, h, BitVec.toNat_ofNat]

theorem store_u16 (x : BitVec 16) :
    (store .little x).map out = [out (BitVec.ofNat 8 x.toNat), out (BitVec.ofNat 8 (x.toNat / 256))] := rfl

theorem store_u32 (x : BitVec 32) :
    (store .little x).map out = [out (BitVec.ofNat 8 x.toNat), out (BitVec.ofNat 8 (x.toNat / 256)),
      out (BitVec.ofNat 8 (x.toNat / 256 / 256)), out (BitVec.ofNat 8 (x.toNat / 256 / 256 / 256))] := rfl

theorem u8_eq (d : Json) (key : String) : u8 d key = BitVec.ofNat 8 (num (d.get key)) := rfl

theorem u16_eq (d : Json) (key : String) : u16 d key = BitVec.ofNat 16 (num (d.get key)) := rfl

/-- A word that was read is written low byte first. -/
theorem map_out_u16 {n : BitVec 32} {x : ℕ} (h : n.toNat = x) (hx : x < 2 ^ 16) :
    [Parser.byteAt n 0, Parser.byteAt n 8].map out = (store .little (BitVec.ofNat 16 x)).map out := by
  have hx' : (BitVec.ofNat 16 x).toNat = x := by rw [BitVec.toNat_ofNat, Nat.mod_eq_of_lt hx]
  rw [store_u16, hx', List.map_cons, List.map_cons, List.map_nil, out_byteAt (x := x) (by omega),
    out_byteAt (x := x / 256) (by omega)]

theorem map_out_u32 {n : BitVec 32} {x : ℕ} (h : n.toNat = x) (hx : x < 2 ^ 32) :
    [Parser.byteAt n 0, Parser.byteAt n 8, Parser.byteAt n 16, Parser.byteAt n 24].map out =
      (store .little (BitVec.ofNat 32 x)).map out := by
  have hx' : (BitVec.ofNat 32 x).toNat = x := by rw [BitVec.toNat_ofNat, Nat.mod_eq_of_lt hx]
  rw [store_u32, hx', List.map_cons, List.map_cons, List.map_cons, List.map_cons, List.map_nil,
    out_byteAt (x := x) (by omega), out_byteAt (x := x / 256) (by omega),
    out_byteAt (x := x / 256 / 256) (by omega), out_byteAt (x := x / 256 / 256 / 256) (by omega)]

theorem toNat_ofNat32 {n k : ℕ} (h : n < 2 ^ k) (hk : k ≤ 32) : (BitVec.ofNat 32 n).toNat = n := by
  rw [BitVec.toNat_ofNat]
  exact Nat.mod_eq_of_lt (Nat.lt_of_lt_of_le h (Nat.pow_le_pow_right (by decide) hk))

/-! ### Extra bytes -/

theorem extra_of (h : Fields ps ms) (hs : ps.lookup "daExtra" = some Schema.daUsbBytes) :
    ∃ vs, Parser.extraOf ms = .ok vs ∧ bytesOf ((object ms).get "daExtra") = bytesOf (array vs) ∧
      Elements Schema.usbByte vs := by
  unfold Parser.extraOf contains
  cases hv : ms.lookup "daExtra" with
  | none =>
    refine ⟨[], rfl, by rw [get_of_none hv]; rfl, fun v hv => ?_, by decide⟩
    simp at hv
  | some v =>
    obtain ⟨vs, hat, hget, hvs⟩ := h.arrayAt hv hs
    exact ⟨vs, hat, by rw [hget], hvs⟩

/-- The companion is absent, or one of the members. -/
theorem writes_companion (h : Fields ps ms) (hs : ps.lookup "Endpoint Companion" = some Schema.endpointCompanion ∨
      ms.lookup "Endpoint Companion" = none) :
    Writes out (Parser.buildCompanion ms) ((Meaning.companion (object ms)).map out) () ∧
      (Meaning.companion (object ms)).length = Parser.companionBytes ms := by
  have hhas : (object ms).has "Endpoint Companion" = contains ms "Endpoint Companion" := rfl
  unfold Parser.buildCompanion Parser.companionBytes Meaning.companion
  rw [hhas]
  unfold contains
  cases hv : ms.lookup "Endpoint Companion" with
  | none => exact ⟨Writes.pure (), rfl⟩
  | some v =>
    have hs' := hs.resolve_right (by rw [hv]; exact Option.some_ne_none v)
    obtain ⟨c, hat, hget, hc⟩ := h.objectAt hv hs'
    have hword : Schema.endpointCompanionFields.lookup "wBytesPerInterval" = some Schema.usbWord := rfl
    obtain ⟨hread, hlt⟩ := hc.toFields.read hword fun _ => isNumber_usbWord
    have hw : (((BitVec.ofNat 32 (num ((object c).get "wBytesPerInterval"))).setWidth 16).setWidth 32).toNat =
        num ((object c).get "wBytesPerInterval") := by
      rw [BitVec.toNat_setWidth, BitVec.toNat_setWidth, toNat_ofNat32 hlt (by decide)]
      omega
    simp only [hget, Option.isSome_some, ↓reduceIte, List.map_append]
    refine ⟨Writes.lift hat (Writes.bind (a := ()) ?_ (Writes.lift hread ?_)), by simp⟩
    · exact (hc.toFields.writes_u8 rfl).cons <| (hc.toFields.writes_u8 rfl).cons <| (hc.toFields.writes_u8 rfl).cons <|
        (hc.toFields.writes_u8 rfl).cons <| Writes.pure ()
    · rw [u16_eq, ← map_out_u16 hw hlt]
      exact writes_nums _

theorem writes_extra (h : Fields ps ms) (hs : ps.lookup "Endpoint Companion" = some Schema.endpointCompanion ∨
      ms.lookup "Endpoint Companion" = none) (hx : ps.lookup "daExtra" = some Schema.daUsbBytes) :
    Writes out (Parser.buildExtra ms)
      (outVector (Meaning.companion (object ms) ++ bytesOf ((object ms).get "daExtra"))) () := by
  obtain ⟨vs, hat, hget, hvs⟩ := extra_of h hx
  obtain ⟨hcomp, hlen⟩ := writes_companion h hs
  have hle := lt_of_le_maxStructuredSize hvs.size
  have h6 : Parser.companionBytes ms ≤ 6 := by
    unfold Parser.companionBytes
    split <;> omega
  have hbytes : (bytesOf (array vs)).length = vs.length := List.length_map _
  have htotal : (BitVec.ofNat 32 (Parser.companionBytes ms + vs.length)).toNat =
      Parser.companionBytes ms + vs.length := toNat_ofNat32 (k := 32) (by omega) (by decide)
  have hsize : out (BitVec.ofNat 32 (Parser.companionBytes ms + vs.length)) =
      outSize (Meaning.companion (object ms) ++ bytesOf (array vs)).length := by
    rw [List.length_append, hlen, hbytes, out_ofNat (by omega), outSize, out_ofNat (by omega)]
  rw [hget]
  refine Writes.lift hat ?_
  by_cases h0 : BitVec.ofNat 32 (Parser.companionBytes ms + vs.length) = 0
  · -- nothing to write but the size
    have hz : Parser.companionBytes ms + vs.length = 0 := by
      rw [← htotal, h0]
      rfl
    have hnil : Meaning.companion (object ms) ++ bytesOf (array vs) = [] := by
      apply List.eq_nil_of_length_eq_zero
      rw [List.length_append, hlen, hbytes, hz]
    simp only [h0, ne_eq, not_true_eq_false, ↓reduceIte]
    rw [hnil]
    exact writes_num 0
  · simp only [ne_eq, h0, not_false_eq_true, ↓reduceIte]
    rw [outVector, ← hsize, List.map_append]
    exact (writes_num _).cons (hcomp.bind (writes_da hvs))

/-! ### The configuration -/

theorem writes_endpoint (h : Schema.endpoint v = true) (hv : Plain v) :
    Writes out (Writer.bind (Writer.lift (asObject v)) Parser.buildEndpoint) (Meaning.endpoint v).streamOut () := by
  obtain ⟨ep, rfl, hep⟩ := closed_of h hv
  obtain ⟨d, hat, hget, hd⟩ := hep.objectAt "Endpoint Descriptor" (by decide) rfl
  simp only [Endpoint.streamOut, Meaning.endpoint, hget]
  refine Writes.lift rfl (Writes.lift hat (Writes.bind (a := ()) ?_ ?_))
  · exact (hd.writes_u8 rfl).cons <| (hd.writes_u8 rfl).cons <| (hd.writes_u8 rfl).cons <| (hd.writes_u8 rfl).cons <|
      (hd.writes_u16 rfl).cons <| (hd.writes_u8 rfl).cons <| (hd.writes_u8 rfl).cons <| (hd.writes_u8 rfl).cons <|
      Writes.pure ()
  · exact writes_extra hep.toFields (.inl rfl) rfl

/-- Without a companion the extra bytes are those of the document. -/
theorem writes_daExtra (h : Closed ps keys ms) (hs : ps.lookup "Endpoint Companion" = none)
    (hx : ps.lookup "daExtra" = some Schema.daUsbBytes) :
    Writes out (Parser.buildExtra ms) (outVector (bytesOf ((object ms).get "daExtra"))) () := by
  have hnone : ms.lookup "Endpoint Companion" = none := noOther_lookup h.other hs
  have hcomp : Meaning.companion (object ms) = [] := by
    have hhas : (object ms).has "Endpoint Companion" = (ms.lookup "Endpoint Companion").isSome := rfl
    rw [Meaning.companion, hhas, hnone]
    rfl
  have hextra := writes_extra h.toFields (.inr hnone) hx
  rwa [hcomp, List.nil_append] at hextra

theorem writes_interface (h : Schema.interface v = true) (hv : Plain v) :
    Writes out (Writer.bind (Writer.lift (asObject v)) Parser.buildInterface) (Meaning.interface v).streamOut () := by
  obtain ⟨iface, rfl, hiface⟩ := closed_of h hv
  obtain ⟨d, hat, hget, hd⟩ := hiface.objectAt "Interface Descriptor" (by decide) rfl
  obtain ⟨eps, hateps, hgeteps, heps⟩ := hd.arrayAt "aofEndpoints" (by decide) rfl
  simp only [Interface.streamOut, Meaning.interface, hget, hgeteps, List.append_assoc]
  refine Writes.lift rfl (Writes.lift hat (Writes.bind (a := ()) ?_ (Writes.lift hateps ?_)))
  · exact (hd.writes_u8 rfl).cons <| (hd.writes_u8 rfl).cons <| (hd.writes_u8 rfl).cons <| (hd.writes_u8 rfl).cons <|
      (hd.writes_u8 rfl).cons <| (hd.writes_u8 rfl).cons <| (hd.writes_u8 rfl).cons <| (hd.writes_u8 rfl).cons <|
      (hd.writes_u8 rfl).cons <| Writes.pure ()
  · refine writes_array_then heps (fun ep hep => ?_) (writes_daExtra hd rfl rfl)
    exact writes_endpoint (heps.elem ep hep).1 (heps.elem ep hep).2

theorem writes_altsettings (h : Schema.altsetting v = true) (hv : Plain v) :
    Writes out (Parser.buildAltsettings v) (Meaning.altsettings v).streamOut () := by
  obtain ⟨alt, rfl, halt⟩ := closed_of h hv
  obtain ⟨ifs, hat, hget, hifs⟩ := halt.arrayAt "aofInterfaces" (by decide) rfl
  simp only [UsbInterface.streamOut, Meaning.altsettings, hget]
  refine Writes.lift hat ?_
  exact writes_array hifs fun i hi => writes_interface (hifs.elem i hi).1 (hifs.elem i hi).2

theorem writes_configuration (h : Schema.configuration v = true) (hv : Plain v) :
    Writes out (Writer.bind (Writer.lift (asObject v)) Parser.buildConfiguration)
      (Meaning.configuration v).streamOut () := by
  obtain ⟨cfg, rfl, hcfg⟩ := closed_of h hv
  obtain ⟨d, hat, hget, hd⟩ := hcfg.objectAt "Configuration Descriptor" (by decide) rfl
  obtain ⟨alts, hatalts, hgetalts, halts⟩ := hd.arrayAt "aofAltsettings" (by decide) rfl
  simp only [Config.streamOut, Meaning.configuration, hget, hgetalts, List.append_assoc]
  refine Writes.lift rfl (Writes.lift hat (Writes.bind (a := ()) ?_ (Writes.lift hatalts ?_)))
  · exact (hd.writes_u8 rfl).cons <| (hd.writes_u8 rfl).cons <| (hd.writes_u16 rfl).cons <|
      (hd.writes_positive rfl).cons <| (hd.writes_u8 rfl).cons <| (hd.writes_u8 rfl).cons <|
      (hd.writes_u8 rfl).cons <| (hd.writes_u8 rfl).cons <| Writes.pure ()
  · refine writes_array_then halts (fun a ha => ?_) (writes_daExtra hcfg rfl rfl)
    exact writes_altsettings (halts.elem a ha).1 (halts.elem a ha).2

/-! ### The strings -/

theorem utf8EncodeChar_ascii {c : Char} (h : c.toNat < 128) : String.utf8EncodeChar c = [c.val.toUInt8] := by
  apply String.utf8EncodeChar_eq_singleton
  rw [Char.utf8Size_eq_one_iff, UInt32.le_iff_toNat_le]
  show c.toNat ≤ 127
  omega

/-- A character and the zero behind it are its 16 bits. -/
theorem map_out_char {c : Char} (h : c.toNat < 128) :
    [c.val.toUInt8.toBitVec.setWidth 32, 0].map out = (store .little (BitVec.ofNat 16 c.toNat)).map out := by
  have hc16 : (BitVec.ofNat 16 c.toNat).toNat = c.toNat := by
    rw [BitVec.toNat_ofNat]
    omega
  have hc8 : c.val.toUInt8.toBitVec.toNat = c.toNat := by
    show c.val.toUInt8.toNat = c.toNat
    rw [UInt32.toNat_toUInt8]
    show c.toNat % 2 ^ 8 = c.toNat
    omega
  rw [store_u16, hc16, List.map_cons, List.map_cons, List.map_nil, out_ofNat (by omega), out_ofNat (by omega), out,
    BitVec.toNat_setWidth, hc8, Nat.mod_eq_of_lt (by omega), Nat.div_eq_of_lt (by omega)]
  rfl

theorem map_out_chars {cs : List Char} (h : ∀ c ∈ cs, c.toNat < 128) :
    (((cs.flatMap String.utf8EncodeChar).map (·.toBitVec)).flatMap fun c => [c.setWidth 32, 0]).map out =
      (cs.flatMap fun c => store .little (BitVec.ofNat 16 c.toNat)).map out := by
  induction cs with
  | nil => rfl
  | cons c cs ih =>
    have hc := h c List.mem_cons_self
    rw [List.flatMap_cons, utf8EncodeChar_ascii hc, List.map_append, List.flatMap_append, List.map_append,
      List.flatMap_cons, List.map_append, ih fun d hd => h d (List.mem_cons_of_mem _ hd), ← map_out_char hc]
    rfl

theorem writes_text (h : isText v = true) (hv : Plain v) :
    Writes out (Parser.buildText v) ((Meaning.text v).map out) () := by
  cases v with
  | string s =>
    show Writes out _ ((s.toList.flatMap fun c => store .little (BitVec.ofNat 16 c.toNat)).map out) ()
    rw [← map_out_chars fun c hc => of_decide_eq_true (List.all_eq_true.mp h c hc)]
    exact Writes.lift rfl (writes_nums _)
  | array vs =>
    have hbytes : arrayOf Schema.usbByte (array vs) = true := h
    obtain ⟨vs', heq, hvs⟩ := elements_of hbytes hv
    cases heq
    exact writes_da hvs
  | _ => cases h

theorem writes_string (h : Schema.stringEntry v = true) (hv : Plain v) (hf : StringFits v) :
    Writes out (Parser.buildString v) (outVector (Meaning.string v)) () := by
  obtain ⟨s, rfl, hs⟩ := closed_of h hv
  obtain ⟨d, hat, hget, hd⟩ := hs.objectAt "StringDescriptor" (by decide) rfl
  obtain ⟨str, hstr⟩ := required_lookup (k := "string") hd.present (by decide)
  have hgetstr : (object d).get "string" = str := get_of_lookup hstr
  obtain ⟨htext, hlen⟩ := hf
  rw [hget, hgetstr] at htext hlen
  have hlength : Schema.stringDescriptorFields.lookup "bLength" = some Schema.usbByte := rfl
  have hlt : num ((object d).get "bLength") < 2 ^ 8 := (hd.read hlength fun _ => isNumber_usbByte).2
  -- the size of the vector is the length that the descriptor states
  have hsize : out (u8 (object d) "bLength") = outSize (Meaning.string (object s)).length := by
    have hcount : (Meaning.string (object s)).length = num ((object d).get "bLength") := by
      simp only [Meaning.string, hget, hgetstr, List.length_cons]
      omega
    rw [hcount, u8_eq, out_ofNat hlt, outSize, out_ofNat (by omega)]
  rw [outVector, ← hsize]
  simp only [Meaning.string, hget, hgetstr, List.map_cons]
  have hfields : Writes out (Parser.writeFields d ["bLength", "bLength", "bDescriptorType"])
      [out (u8 (object d) "bLength"), out (u8 (object d) "bLength"), out (u8 (object d) "bDescriptorType")] () :=
    (hd.writes_u8 rfl).cons <| (hd.writes_u8 rfl).cons <| (hd.writes_u8 rfl).cons <| Writes.pure ()
  refine Writes.lift hat (hfields.bind (Writes.lift (memberAt_ok hstr) ?_))
  exact writes_text htext (hd.plain.lookup hstr)

/-- A number of the schema is not an array. -/
theorem writes_languageId (h : Schema.usbWord v = true) (hv : Plain v) :
    Writes out (Parser.buildLanguageId v) [out (BitVec.ofNat 16 (num v))] () := by
  obtain ⟨hread, hlt⟩ := isNumber_usbWord h hv
  rw [out_ofNat hlt, ← out_ofNat (k := 32) (by omega)]
  cases v with
  | array vs => cases hread
  | _ => exact writes_read hread

theorem writes_language (h : Schema.language v = true) (hv : Plain v)
    (hf : ∀ s ∈ (v.get "aofStrings").elems, StringFits s) :
    Writes out (Parser.buildLanguage v) (outStrings (Meaning.language v)) () := by
  obtain ⟨lang, rfl, hlang⟩ := closed_of h hv
  obtain ⟨id, hid⟩ := required_lookup (k := "wLanguageId") hlang.present (by decide)
  obtain ⟨hidvalid, hidplain⟩ := hlang.member rfl hid
  obtain ⟨strings, hat, hget, hstrings⟩ := hlang.arrayAt "aofStrings" (by decide) rfl
  rw [hget] at hf
  have hlanguage : Meaning.language (object lang) = (BitVec.ofNat 16 (num id), strings.map Meaning.string) := by
    rw [Meaning.language, hget, u16_eq, get_of_lookup hid]
    rfl
  rw [hlanguage, outStrings]
  refine Writes.lift (memberAt_ok hid) ((writes_languageId hidvalid hidplain).cons (Writes.lift hat ?_))
  apply writes_array hstrings
  intro s hs
  exact writes_string (hstrings.elem s hs).1 (hstrings.elem s hs).2 (hf s hs)

theorem writes_languages (h : Elements Schema.language vs)
    (hf : ∀ lang ∈ vs, ∀ s ∈ (lang.get "aofStrings").elems, StringFits s) :
    Writes out (Writer.bind (Parser.writeSize vs.length) fun _ => Writer.forEach Parser.buildLanguage vs)
      (outSize (vs.map Meaning.language).length :: (vs.map Meaning.language).flatMap outStrings) () :=
  writes_array h fun lang hlang => writes_language (h.elem lang hlang).1 (h.elem lang hlang).2 (hf lang hlang)

/-! ### The BOS -/

theorem capability_of (h : Schema.bosDevcap v = true) (hv : Plain v) :
    ∃ c, v = object c ∧ Fields Schema.bosDevcapFields c := by
  simp only [Schema.bosDevcap, allOf, List.all_cons, Bool.and_eq_true] at h
  obtain ⟨hobject, hfields, -⟩ := h
  obtain ⟨c, rfl⟩ := isObject_iff.mp hobject
  exact ⟨c, rfl, hfields, hv⟩

theorem writes_usb2Extension {c : Members} (h : Fields Schema.bosDevcapFields c)
    (hv : c.lookup "USB 2.0 Extension" = some v) :
    Writes out (Parser.buildUsb2Extension c)
      (outVector (store .little (numAt 32 ((object c).get "USB 2.0 Extension") "bmAttributes"))) () := by
  obtain ⟨ext, hat, hget, hext⟩ := h.objectAt hv rfl
  have hattr : Schema.usb2ExtensionFields.lookup "bmAttributes" = some Schema.usbDWord := rfl
  obtain ⟨hread, hlt⟩ := hext.read hattr fun _ => isNumber_usbDWord
  rw [hget, outVector, length_store, numAt, ← map_out_u32 (toNat_ofNat32 hlt (by decide)) hlt]
  exact Writes.lift hat (Writes.lift hread ((writes_num 4).cons (writes_nums _)))

theorem out_low {x : ℕ} (h : x < 2 ^ 8) : out (Parser.byteAt (BitVec.ofNat 32 x) 0) = out (BitVec.ofNat 8 x) := by
  apply out_byteAt
  rw [toNat_ofNat32 h (by decide), pow_zero, Nat.div_one]

theorem writes_superspeedUsb {c : Members} (h : Fields Schema.bosDevcapFields c)
    (hv : c.lookup "SuperSpeed USB" = some v) :
    Writes out (Parser.buildSuperspeedUsb c)
      (outVector (Meaning.superspeedUsb ((object c).get "SuperSpeed USB"))) () := by
  obtain ⟨ss, hat, hget, hss⟩ := h.objectAt hv rfl
  have hbyte : ∀ key, Schema.superspeedUsbFields.lookup key = some Schema.usbByte →
      Parser.readU32At ss key = .ok (BitVec.ofNat 32 (num ((object ss).get key))) ∧
        num ((object ss).get key) < 2 ^ 8 := fun key hkey => hss.read hkey fun _ => isNumber_usbByte
  have hword : ∀ key, Schema.superspeedUsbFields.lookup key = some Schema.usbWord →
      Parser.readU32At ss key = .ok (BitVec.ofNat 32 (num ((object ss).get key))) ∧
        num ((object ss).get key) < 2 ^ 16 := fun key hkey => hss.read hkey fun _ => isNumber_usbWord
  obtain ⟨hattr, hattrlt⟩ := hbyte "bmAttributes" rfl
  obtain ⟨hspeed, hspeedlt⟩ := hword "wSpeedSupported" rfl
  obtain ⟨hfunc, hfunclt⟩ := hbyte "bFunctionalitySupport" rfl
  obtain ⟨hu1, hu1lt⟩ := hbyte "bU1DevExitLat" rfl
  obtain ⟨hu2, hu2lt⟩ := hword "bU2DevExitLat" rfl
  have hspeed16 := map_out_u16 (toNat_ofNat32 hspeedlt (by decide)) hspeedlt
  have hu216 := map_out_u16 (toNat_ofNat32 hu2lt (by decide)) hu2lt
  rw [hget, outVector]
  simp only [Meaning.superspeedUsb, List.length_append, length_store, List.length_cons, List.length_nil,
    List.map_append, u8_eq, u16_eq, ← hspeed16, ← hu216, List.map_cons, List.map_nil, ← out_low hattrlt,
    ← out_low hfunclt, ← out_low hu1lt]
  refine Writes.lift hat (Writes.lift hattr (Writes.lift hspeed (Writes.lift hfunc (Writes.lift hu1
    (Writes.lift hu2 ((writes_num 7).cons (writes_nums _)))))))

theorem writes_devCapability {c : Members} (h : Fields Schema.bosDevcapFields c) :
    Writes out (Parser.buildDevCapability c) (outVector (bytesOf ((object c).get "daDevCapability"))) () := by
  unfold Parser.buildDevCapability contains
  cases hv : c.lookup "daDevCapability" with
  | none =>
    rw [get_of_none hv]
    exact writes_num 0
  | some v =>
    obtain ⟨d, hat, hget, hd⟩ := h.arrayAt hv rfl
    rw [hget]
    exact Writes.lift hat (writes_vector hd)

theorem writes_capabilityData {c : Members} (h : Fields Schema.bosDevcapFields c) {n : BitVec 32}
    (hn : n.toNat = num ((object c).get "bDevCapabilityType")) :
    Writes out (Parser.buildCapabilityData n c) (outVector (Meaning.capabilityData (object c))) () := by
  have htype : ∀ k : ℕ, k < 2 ^ 32 → (num ((object c).get "bDevCapabilityType") = k ↔ n = BitVec.ofNat 32 k) := by
    intro k hk
    rw [← hn, ← BitVec.toNat_inj, BitVec.toNat_ofNat, Nat.mod_eq_of_lt hk]
  have hhas : ∀ key, (object c).has key = contains c key := fun _ => rfl
  unfold Parser.buildCapabilityData Meaning.capabilityData
  simp only [htype 2 (by decide), htype 3 (by decide), hhas]
  by_cases h2 : n = 2#32 ∧ contains c "USB 2.0 Extension" = true
  · obtain ⟨v, hv⟩ := Option.isSome_iff_exists.mp h2.2
    rw [if_pos h2, if_pos h2]
    exact writes_usb2Extension h hv
  · rw [if_neg h2, if_neg h2]
    by_cases h3 : n = 3#32 ∧ contains c "SuperSpeed USB" = true
    · obtain ⟨v, hv⟩ := Option.isSome_iff_exists.mp h3.2
      rw [if_pos h3, if_pos h3]
      exact writes_superspeedUsb h hv
    · rw [if_neg h3, if_neg h3]
      exact writes_devCapability h

theorem writes_capability (h : Schema.bosDevcap v = true) (hv : Plain v) :
    Writes out (Writer.bind (Writer.lift (asObject v)) Parser.buildCapability) (Meaning.capability v).streamOut () := by
  obtain ⟨c, rfl, hc⟩ := capability_of h hv
  have htype : Schema.bosDevcapFields.lookup "bDevCapabilityType" = some Schema.usbByte := rfl
  obtain ⟨hread, hlt⟩ := hc.read htype fun _ => isNumber_usbByte
  have hout : out (BitVec.ofNat 32 (num ((object c).get "bDevCapabilityType"))) =
      out (u8 (object c) "bDevCapabilityType") := by
    rw [u8_eq, out_ofNat hlt, out_ofNat (by omega)]
  have hfields : Writes out (Parser.writeFields c ["bLength", "bDescriptorType"])
      [out (u8 (object c) "bLength"), out (u8 (object c) "bDescriptorType")] () :=
    (hc.writes_u8 rfl).cons <| (hc.writes_u8 rfl).cons <| Writes.pure ()
  have hdata := writes_capabilityData hc (toNat_ofNat32 hlt (by decide))
  refine Writes.lift rfl (hfields.bind (Writes.lift hread ?_))
  show Writes out _ (out (u8 (object c) "bDevCapabilityType") :: _) ()
  rw [← hout]
  exact (writes_num _).cons hdata

theorem writes_bos (h : Schema.bos v = true) (hv : Plain v) :
    Writes out (Writer.bind (Writer.lift (asObject v)) Parser.buildBos) (Meaning.bos v).streamOut () := by
  obtain ⟨b, rfl, hb⟩ := closed_of h hv
  obtain ⟨caps, hat, hget, hcaps⟩ := hb.arrayAt "aofDeviceCaps" (by decide) rfl
  simp only [Bos.streamOut, Meaning.bos, hget]
  refine Writes.lift rfl (Writes.bind (a := ()) ?_ (Writes.lift hat ?_))
  · exact (hb.writes_u8 rfl).cons <| (hb.writes_u8 rfl).cons <| (hb.writes_u16 rfl).cons <| (hb.writes_u8 rfl).cons <|
      Writes.pure ()
  · exact writes_array hcaps fun c hc => writes_capability (hcaps.elem c hc).1 (hcaps.elem c hc).2

end Viu
