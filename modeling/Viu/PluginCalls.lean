/-
# Plugin calls on a transfer

What a plugin does to a transfer through `viu_usb_mock_transfer_control_opaque`:
`fill`, `read`, `fill_iso_packet_descriptors` and `complete`. The bounds are
asserted, and `viu::_assert` logs and goes on, so each call works on the size
it is given: `fill` copies all the data, `read` takes the smaller of two
`int`s of which one was an `uint32_t`, and the packets' descriptors are the
plugin's own. `complete` runs the callback, which releases the transfer.

A sequence of calls stays inside the transfer exactly when each call fits what
it is made on (`plugin_calls_iff`).
-/
import Viu.IsoLayout
import Viu.Mock

namespace Viu

inductive PluginCall
  | fill (data : List U8)
  | read (size : U32)
  | fillIsoPacketDescriptors (data : List LibusbIsoPacketDescriptor)
  | complete
  deriving DecidableEq, Repr

namespace LibusbTransfer

variable (x : LibusbTransfer)

/-- `control::is_out`. -/
def isOut : Bool := x.endpoint &&& 0x80#8 = 0#8

/-- `libusb_iso_packet_descriptor::actual_length` of every packet set to its length. -/
def fillPackets : List LibusbIsoPacketDescriptor :=
  if x.isIso then x.isoPacketDesc.map fun ipd => { ipd with actualLength := ipd.length } else x.isoPacketDesc

/-- The size `transfer_control_read` passes on; `std::min` of two `int`s. -/
def readSize (size : U32) : U32 :=
  if size = 0 then BitVec.ofNat 32 x.length else BitVec.ofInt 32 (min (x.length : ℤ) size.toInt)

/-- What `control::read` does to the transfer. -/
def noteRead (readSize : ℕ) : LibusbTransfer :=
  if x.isOut then { x with actualLength := readSize, isoPacketDesc := x.fillPackets } else x

def fillIsoPacketDescriptors (data : List LibusbIsoPacketDescriptor) : LibusbTransfer :=
  { x with isoPacketDesc := data ++ x.isoPacketDesc.drop data.length }

/-- The transfer after a call; `complete` releases it. -/
def after : PluginCall → Option LibusbTransfer
  | .fill data => some (x.fill data)
  | .read size => some (x.noteRead (x.readSize size).toNat)
  | .fillIsoPacketDescriptors data => some (x.fillIsoPacketDescriptors data)
  | .complete => none

/-- What a call copies out. -/
def copied : PluginCall → List U8
  | .read size => x.buffer.take (x.readSize size).toNat
  | _ => []

/-- The bytes or packets that a call reads or writes, from the first, and how many
there are. -/
def touches : PluginCall → ℕ × ℕ
  | .fill data => (data.length, x.buffer.length)
  | .read size => ((x.readSize size).toNat, x.buffer.length)
  | .fillIsoPacketDescriptors data => (data.length, x.isoPacketDesc.length)
  | .complete => (0, 0)

/-- A transfer's buffer is as long as its length, an `int`. -/
structure Buffered : Prop where
  length_eq : x.buffer.length = x.length
  length_lt : x.length < 2 ^ 31

/-- The actual length is within the buffer, each packet's within the packet, and
the packets lie in the buffer. -/
structure Inside : Prop where
  actualLength : x.actualLength ≤ x.length
  packets : PacketsFit x

/-- The loop of `iso_data` takes each part from within `n` bytes. -/
def ReadsWithin (n : ℕ) : ℕ → List LibusbIsoPacketDescriptor → Prop
  | _, [] => True
  | offset, iso :: rest =>
    if iso.status ≠ .completed then ReadsWithin n offset rest
    else offset + iso.actualLength ≤ n ∧ ReadsWithin n (offset + iso.length) rest

/-- The call touches nothing outside; a read copies `size` bytes and no more than
there are, or all when the size is 0; what is left is inside, and `iso_data`
stays in the buffer. -/
structure CallSafe (c : PluginCall) : Prop where
  within : (x.touches c).1 ≤ (x.touches c).2
  copied : ∀ size, c = .read size →
    x.copied c = x.buffer.take (if size = 0 then x.length else min size.toNat x.length)
  inside : ∀ y ∈ x.after c, y.Inside ∧ ReadsWithin y.length 0 y.isoPacketDesc

/-- The call fits: data for the buffer, a size below 2³¹, descriptors for the
packets there are, none longer than its packet and together within the
buffer. -/
def CallFits : PluginCall → Prop
  | .fill data => data.length ≤ x.length
  | .read size => size.toNat < 2 ^ 31
  | .fillIsoPacketDescriptors data => data.length ≤ x.numIsoPackets ∧
      (∀ iso ∈ data, iso.actualLength ≤ iso.length) ∧
      offsetOf (data ++ x.isoPacketDesc.drop data.length) ≤ x.length
  | .complete => True

instance (x : LibusbTransfer) : (c : PluginCall) → Decidable (x.CallFits c)
  | .fill data => inferInstanceAs (Decidable (data.length ≤ x.length))
  | .read size => inferInstanceAs (Decidable (size.toNat < 2 ^ 31))
  | .fillIsoPacketDescriptors data => inferInstanceAs (Decidable (data.length ≤ x.numIsoPackets ∧
      (∀ iso ∈ data, iso.actualLength ≤ iso.length) ∧
      offsetOf (data ++ x.isoPacketDesc.drop data.length) ≤ x.length))
  | .complete => isTrue trivial

end LibusbTransfer

/-- A property of each call, on the transfer as the calls before left it; no call is
made on a released transfer. -/
def EachCall (P : LibusbTransfer → PluginCall → Prop) : Option LibusbTransfer → List PluginCall → Prop
  | _, [] => True
  | none, _ :: _ => False
  | some x, c :: calls => P x c ∧ EachCall P (x.after c) calls

namespace LibusbTransfer

variable {x : LibusbTransfer} {c : PluginCall} {calls : List PluginCall}

/-- Packets marked as full fit where they did before. -/
theorem fits_fillPackets (h : PacketsFit x) {n : ℕ} (hn : n = x.length) :
    Slots.Fits (fun iso : LibusbIsoPacketDescriptor => iso.length) (·.actualLength) n x.fillPackets := by
  subst hn
  unfold fillPackets
  split_ifs
  · refine ⟨fun iso hiso => ?_, ?_⟩
    · obtain ⟨ipd, -, rfl⟩ := List.mem_map.mp hiso
      exact le_rfl
    · have hroom : Slots.room (fun iso : LibusbIsoPacketDescriptor => iso.length)
          (x.isoPacketDesc.map fun ipd => { ipd with actualLength := ipd.length }) = offsetOf x.isoPacketDesc := by
        simp [Slots.room, Function.comp_def]
      rw [hroom]
      exact h.room_le
  · exact h

/-- Packets that fit are read from within the buffer. -/
theorem readsWithin_of_fits {n offset : ℕ} {packets : List LibusbIsoPacketDescriptor}
    (h : Slots.Fits (fun iso : LibusbIsoPacketDescriptor => iso.length) (·.actualLength) (n - offset) packets)
    (ho : offset ≤ n) : ReadsWithin n offset packets := by
  induction packets generalizing offset with
  | nil => exact trivial
  | cons iso rest ih =>
    obtain ⟨hused, hroom⟩ := h.cons
    unfold ReadsWithin
    split_ifs
    · exact ih ⟨h.tail.used_le, by omega⟩ ho
    · refine ⟨by omega, ih ?_ (by omega)⟩
      rw [← Nat.sub_sub]
      exact h.tail

theorem Inside.readsWithin (h : x.Inside) : ReadsWithin x.length 0 x.isoPacketDesc :=
  readsWithin_of_fits h.packets (Nat.zero_le _)

/-- Below 2³¹ a size is cut to the transfer's length; from there on it is passed on
as it is. -/
theorem toNat_readSize (hx : x.Buffered) (size : U32) : (x.readSize size).toNat =
    if size = 0 then x.length else if size.toNat < 2 ^ 31 then min size.toNat x.length else size.toNat := by
  have hlt := hx.length_lt
  have hsize := size.isLt
  unfold readSize
  by_cases h0 : size = 0
  · rw [if_pos h0, if_pos h0, BitVec.toNat_ofNat]
    omega
  rw [if_neg h0, if_neg h0]
  by_cases hpos : size.toNat < 2 ^ 31
  · have hint : size.toInt = size.toNat := by
      rw [BitVec.toInt_eq_toNat_cond]
      split_ifs <;> omega
    have hmin : min (x.length : ℤ) size.toInt = ((min size.toNat x.length : ℕ) : ℤ) := by
      rw [hint]
      omega
    rw [if_pos hpos, hmin, BitVec.ofInt_natCast, BitVec.toNat_ofNat]
    omega
  · have hint : size.toInt = size.toNat - 2 ^ 32 := by
      rw [BitVec.toInt_eq_toNat_cond]
      split_ifs <;> omega
    have hmin : min (x.length : ℤ) size.toInt = size.toInt := by omega
    rw [if_neg hpos, hmin, BitVec.ofInt_toInt]

/-- What a call leaves has the same buffer. -/
theorem Buffered.after (hx : x.Buffered) (hwithin : (x.touches c).1 ≤ (x.touches c).2) :
    ∀ y ∈ x.after c, y.Buffered := by
  have hlen := hx.length_eq
  intro y hy
  cases c with
  | fill data =>
    cases hy
    refine ⟨?_, hx.length_lt⟩
    have hdata : data.length ≤ x.buffer.length := hwithin
    simp only [LibusbTransfer.fill, List.length_append, List.length_drop]
    omega
  | read size =>
    cases hy
    unfold noteRead
    split_ifs
    · exact ⟨hlen, hx.length_lt⟩
    · exact hx
  | fillIsoPacketDescriptors data =>
    cases hy
    exact ⟨hlen, hx.length_lt⟩
  | complete => cases hy

theorem callSafe_fill_iff (hx : x.Buffered) (hi : x.Inside) (data : List U8) :
    x.CallSafe (.fill data) ↔ data.length ≤ x.length := by
  have hlen := hx.length_eq
  constructor
  · intro h
    have hwithin : data.length ≤ x.buffer.length := h.within
    rwa [hlen] at hwithin
  · intro hfit
    have hinside : (x.fill data).Inside := ⟨hfit, fits_fillPackets hi.packets rfl⟩
    have hwithin : data.length ≤ x.buffer.length := by rw [hlen]; exact hfit
    refine ⟨hwithin, fun size h => (nomatch h), fun y hy => ?_⟩
    cases hy
    exact ⟨hinside, hinside.readsWithin⟩

theorem callSafe_read_iff (hx : x.Buffered) (hi : x.Inside) (size : U32) :
    x.CallSafe (.read size) ↔ size.toNat < 2 ^ 31 := by
  have hlen := hx.length_eq
  have hlt := hx.length_lt
  have hread := toNat_readSize hx size
  constructor
  · intro h
    have hwithin : (x.readSize size).toNat ≤ x.buffer.length := h.within
    by_contra hbig
    have hne : size ≠ 0 := fun h0 => hbig (by rw [h0]; decide)
    rw [hread, if_neg hne, if_neg hbig] at hwithin
    omega
  · intro hfit
    rw [if_pos hfit] at hread
    have hle : (x.readSize size).toNat ≤ x.length := by
      rw [hread]
      split_ifs <;> omega
    have hinside : (x.noteRead (x.readSize size).toNat).Inside := by
      unfold noteRead
      split_ifs
      · exact ⟨hle, fits_fillPackets hi.packets rfl⟩
      · exact hi
    refine ⟨by rw [← hlen] at hle; exact hle, fun size' h => ?_, fun y hy => ?_⟩
    · cases h
      show x.buffer.take (x.readSize size).toNat = _
      rw [hread]
    · cases hy
      exact ⟨hinside, hinside.readsWithin⟩

theorem callSafe_fillIsoPacketDescriptors_iff (hi : x.Inside) (data : List LibusbIsoPacketDescriptor) :
    x.CallSafe (.fillIsoPacketDescriptors data) ↔ x.CallFits (.fillIsoPacketDescriptors data) := by
  constructor
  · intro h
    have hwithin : data.length ≤ x.isoPacketDesc.length := h.within
    obtain ⟨⟨-, hpackets⟩, -⟩ := h.inside _ rfl
    exact ⟨hwithin, fun iso hiso => hpackets.used_le iso (List.mem_append_left _ hiso), hpackets.room_le⟩
  · rintro ⟨hcount, hactual, hroom⟩
    have hinside : (x.fillIsoPacketDescriptors data).Inside := by
      refine ⟨hi.actualLength, ⟨fun iso hiso => ?_, hroom⟩⟩
      rcases List.mem_append.mp hiso with hiso | hiso
      · exact hactual iso hiso
      · exact hi.packets.used_le iso (List.mem_of_mem_drop hiso)
    refine ⟨hcount, fun size h => (nomatch h), fun y hy => ?_⟩
    cases hy
    exact ⟨hinside, hinside.readsWithin⟩

theorem callSafe_iff (hx : x.Buffered) (hi : x.Inside) : x.CallSafe c ↔ x.CallFits c := by
  cases c with
  | fill data => exact callSafe_fill_iff hx hi data
  | read size => exact callSafe_read_iff hx hi size
  | fillIsoPacketDescriptors data => exact callSafe_fillIsoPacketDescriptors_iff hi data
  | complete => exact iff_of_true ⟨le_rfl, fun size h => (nomatch h), fun y hy => (nomatch hy)⟩ trivial

/-- **Plugin calls** stay inside the transfer, all along a sequence, exactly when
each call fits and none is made on a transfer that was completed. -/
theorem plugin_calls_iff (hx : x.Buffered) (hi : x.Inside) :
    EachCall CallSafe (some x) calls ↔ EachCall CallFits (some x) calls := by
  induction calls generalizing x with
  | nil => exact Iff.rfl
  | cons c calls ih =>
    rw [EachCall, EachCall, callSafe_iff hx hi]
    refine and_congr_right fun hfit => ?_
    have hsafe := (callSafe_iff hx hi).mpr hfit
    cases hy : x.after c with
    | none => cases calls <;> exact Iff.rfl
    | some y => exact ih (hx.after hsafe.within y hy) (hsafe.inside y hy).1

/-! ### The transfers a plugin is given -/

theorem buffered_fillTransfer {info : Info} (type : LibusbEndpointTransferType)
    (packets : List LibusbIsoPacketDescriptor) (h : info.buffer.length < 2 ^ 31) :
    (fillTransfer info type packets).Buffered := ⟨rfl, h⟩

theorem inside_of_no_packets (info : Info) (type : LibusbEndpointTransferType) :
    (fillTransfer info type []).Inside where
  actualLength := Nat.zero_le _
  packets := ⟨fun _ hiso => (nomatch hiso), Nat.zero_le _⟩

/-- The packets of `fill_iso` share the buffer evenly. -/
theorem inside_fillIso {info : Info} (h : fillIso info = some x) : x.Inside := by
  unfold fillIso at h
  dsimp only at h
  split_ifs at h
  cases h
  refine ⟨Nat.zero_le _, fun iso hiso => ?_, ?_⟩
  · rw [List.eq_of_mem_replicate hiso]
    exact Nat.zero_le _
  · simp only [fillTransfer, Slots.room, List.map_replicate, List.sum_replicate, smul_eq_mul]
    exact Nat.mul_div_le _ _

end LibusbTransfer

/-- An IN transfer of four bytes in two packets. -/
def fourBytes : LibusbTransfer :=
  ⟨0x81, .isochronous, .completed, 4, 0, [0, 0, 0, 0], [⟨2, 0, .completed⟩, ⟨2, 0, .completed⟩]⟩

theorem fourBytes_spec : fourBytes.Buffered ∧ fourBytes.Inside := by
  refine ⟨⟨rfl, by decide⟩, by decide, by decide, by decide⟩

/-- A read of 2³² - 1 bytes reads past the buffer. -/
theorem plugin_calls_outside : ¬ ∀ (x : LibusbTransfer) (calls : List PluginCall), x.Buffered → x.Inside →
    EachCall LibusbTransfer.CallSafe (some x) calls := by
  intro h
  have hsafe := h fourBytes [.read 0xffffffff] fourBytes_spec.1 fourBytes_spec.2
  have hsize : (0xffffffff : U32).toNat < 2 ^ 31 :=
    (LibusbTransfer.callSafe_read_iff fourBytes_spec.1 fourBytes_spec.2 _).mp hsafe.1
  exact absurd hsize (by decide)

theorem plugin_calls_filled : EachCall LibusbTransfer.CallSafe (some fourBytes)
    [.fillIsoPacketDescriptors [⟨1, 1, .completed⟩], .fill [7, 8, 9], .read 0, .complete] :=
  (LibusbTransfer.plugin_calls_iff fourBytes_spec.1 fourBytes_spec.2).mpr
    ⟨by decide, by decide, by decide, trivial, trivial⟩

end Viu
