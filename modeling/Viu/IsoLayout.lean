/-
# The layout of an isochronous reply

`iso_data` and `iso_descriptors` walk the packets of a completed transfer
each with its own running offset. The descriptors count every packet; the
data leaves out a packet that failed, and does not move past it. The host
puts the packets back by the descriptors, so the two agree on every buffer
exactly when a failed packet brought nothing and, unless it has no length,
nothing is brought behind it (`iso_layout_iff`).
-/
import Viu.Lib.Slots
import Viu.Contents
import Viu.Stream

namespace Viu

open Bytes

variable {E : Order} {cmd : Command} {x : LibusbTransfer}

/-! ### The descriptors as the host reads them -/

/-- Word `k` of the `i`-th descriptor in `bs`: the offset, the length, the actual
length, the status. -/
def isoWord (bs : List U8) (i k : ℕ) : ℕ := (load .big 32 ((bs.drop (16 * i + 4 * k)).take 4)).toNat

def UsbipIsoPacketDescriptor.words (d : UsbipIsoPacketDescriptor) : List U32 :=
  [d.offset, d.length, d.actualLength, d.status]

theorem flatMap_bytes (E : Order) (ds : List UsbipIsoPacketDescriptor) :
    ds.flatMap (·.bytes E) = (ds.flatMap (·.words)).flatMap (store E) := by
  induction ds with
  | nil => rfl
  | cons d ds ih =>
    rw [List.flatMap_cons, ih, List.flatMap_cons, List.flatMap_append]
    simp [UsbipIsoPacketDescriptor.bytes, UsbipIsoPacketDescriptor.words]

theorem getElem?_flatMap_words (ds : List UsbipIsoPacketDescriptor) (i : ℕ) {k : ℕ} (hk : k < 4) :
    (ds.flatMap (·.words))[4 * i + k]? = ds[i]?.bind fun d => d.words[k]? := by
  induction ds generalizing i with
  | nil => simp
  | cons d ds ih =>
    have hd : d.words.length = 4 := rfl
    cases i with
    | zero =>
      rw [List.flatMap_cons, Nat.mul_zero, Nat.zero_add, List.getElem?_append_left (by omega)]
      rfl
    | succ i =>
      rw [List.flatMap_cons, List.getElem?_append_right (by omega), List.getElem?_cons_succ, ← ih, hd]
      congr 1
      omega

/-- A word reaches the host as it was stored. -/
theorem isoWord_flatMap {ds : List UsbipIsoPacketDescriptor} {d : UsbipIsoPacketDescriptor} {i k : ℕ} {w : U32}
    (hd : ds[i]? = some d) (hw : d.words[k]? = some (toBig E w)) : isoWord (ds.flatMap (·.bytes E)) i k = w.toNat := by
  have hk : k < 4 := (List.getElem?_eq_some_iff.mp hw).1
  have hword := getElem?_flatMap_words ds i hk
  rw [hd, Option.bind_some, hw] at hword
  obtain ⟨hlt, hget⟩ := List.getElem?_eq_some_iff.mp hword
  have hread := drop_take_flatMap E [] (ds.flatMap (·.words)) (4 * i + k) hlt
  rw [List.append_nil, hget, store_toBig (by decide), Nat.mul_add, ← Nat.mul_assoc] at hread
  rw [isoWord, flatMap_bytes, hread, load_store (by decide)]

/-- The slots of a transfer's buffer. -/
abbrev offsetOf (packets : List LibusbIsoPacketDescriptor) : ℕ := Slots.room (·.length) packets
abbrev dataSizeOf (packets : List LibusbIsoPacketDescriptor) : ℕ := Slots.size (·.actualLength) packets

theorem getElem?_toUsbipIsoDesc (E : Order) (packets : List LibusbIsoPacketDescriptor) (offset i : ℕ) :
    (toUsbipIsoDesc E offset packets)[i]? = packets[i]?.map fun iso =>
      { offset := toBig E (BitVec.ofNat 32 (offset + offsetOf (packets.take i)))
        length := toBig E (BitVec.ofNat 32 iso.length)
        actualLength := toBig E (BitVec.ofNat 32 iso.actualLength)
        status := if iso.status ≠ .completed then toBig E (BitVec.ofInt 32 (-EINVAL)) else 0 } := by
  induction packets generalizing offset i with
  | nil => simp [toUsbipIsoDesc]
  | cons iso rest ih =>
    cases i with
    | zero => simp [toUsbipIsoDesc]
    | succ i =>
      rw [toUsbipIsoDesc, List.getElem?_cons_succ, ih, List.getElem?_cons_succ, List.take_succ_cons]
      simp only [offsetOf, Slots.room_cons, Nat.add_assoc]

/-! ### The data -/

def LibusbIsoPacketDescriptor.completed (iso : LibusbIsoPacketDescriptor) : Bool := iso.status = .completed

/-- The loop gathers the packets that completed as if the others were not there. -/
theorem isoDataFrom_eq (buffer : List U8) (packets : List LibusbIsoPacketDescriptor) (offset : ℕ) :
    isoDataFrom buffer offset packets =
      Slots.gather (·.length) (·.actualLength) buffer offset (packets.filter (·.completed)) := by
  induction packets generalizing offset with
  | nil => rfl
  | cons iso rest ih =>
    rw [isoDataFrom]
    by_cases hc : iso.status = .completed
    · rw [if_neg (not_not.mpr hc), ih, List.filter_cons_of_pos (by simpa [LibusbIsoPacketDescriptor.completed]),
        Slots.gather]
    · rw [if_pos hc, ih, List.filter_cons_of_neg (by simpa [LibusbIsoPacketDescriptor.completed])]

/-- The packets lie in the transfer's buffer. -/
abbrev PacketsFit (x : LibusbTransfer) : Prop :=
  Slots.Fits (fun iso : LibusbIsoPacketDescriptor => iso.length) (·.actualLength) x.length x.isoPacketDesc

/-- The packets of an iso transfer share its buffer. -/
theorem Done.Made.packetsFit {d : Device} {x : Done} (h : x.Made d) : PacketsFit x.transfer := by
  obtain ⟨p, hp, -, hc⟩ := h.completes
  obtain ⟨info, type, -, -, -, hfill⟩ := Proxy.submitTransfer_eq hp.submitted
  refine ⟨hc.packetLengths, ?_⟩
  show (x.transfer.isoPacketDesc.map (·.length)).sum ≤ x.transfer.length
  rw [hc.packets, hc.length]
  rcases hfill with ⟨-, hf⟩ | ⟨-, hf⟩
  · obtain ⟨-, hlen, -, hpackets⟩ := fillIso_eq hf
    rw [hlen]
    refine sum_length_le (n := (info.iso.getD ⟨1, []⟩).packetCount.toNat) ?_
    rw [hpackets, List.map_replicate]
  · rw [hf]
    exact Nat.zero_le _

/-- A packet that failed brought nothing; behind one that has a length nothing is
brought at all. -/
abbrev FailuresHarmless (packets : List LibusbIsoPacketDescriptor) : Prop :=
  Slots.InPlace (·.length) (·.actualLength) (·.completed) packets

theorem inBytes_iso (hiso : x.isIso = true) (hb : x.buffer.length = x.length) :
    inBytes E x = Slots.pad 0 (dataSizeOf x.isoPacketDesc)
      (Slots.gather (·.length) (·.actualLength) x.buffer 0 (x.isoPacketDesc.filter (·.completed))) := by
  unfold inBytes
  rw [if_pos hiso, isoData, isoDataFrom_eq, ← hb, List.take_length]
  rfl

/-- Where the failed packets do no harm, the data is the packed parts of them all. -/
theorem packed_inBytes (hiso : x.isIso = true) (hb : x.buffer.length = x.length) (hfit : PacketsFit x)
    (h : FailuresHarmless x.isoPacketDesc) :
    Slots.Packed (·.length) (·.actualLength) x.buffer x.isoPacketDesc (inBytes E x) := by
  have hne : (0 : U8) ≠ 1 := by decide
  rw [inBytes_iso hiso hb, (Slots.gather_filter_iff hne hfit).mpr h x.buffer hb]
  exact Slots.packed_gather (by rw [hb]; exact hfit)

/-! ### The layout -/

/-- The reply to an IN submit whose transfer completed. -/
def inReply (E : Order) (cmd : Command) (x : LibusbTransfer) : Except Exn Command :=
  queueReplyToHost E (sendDataToHost cmd (queueDataForHost E x))

/-- What the host relies on to put every packet back in place: a data part, as
long as the header says, and a descriptor for each packet, whose bytes stand
in the data behind those of the packets before it, and are the first of the
buffer from the descriptor's offset on. -/
structure IsoLayout (E : Order) (x : LibusbTransfer) (rep : Command) (data descriptors : List U8) : Prop where
  payload : rep.payload = data ++ descriptors
  count : descriptors.length = 16 * x.numIsoPackets
  actualLength : (rep.actualLength E).toNat = data.length
  size : data.length = ((List.range x.numIsoPackets).map fun i => isoWord descriptors i 2).sum
  sent : ∀ i iso, x.isoPacketDesc[i]? = some iso →
    isoWord descriptors i 0 = offsetOf (x.isoPacketDesc.take i) ∧ isoWord descriptors i 2 = iso.actualLength
  part : ∀ i < x.numIsoPackets,
    (data.drop ((List.range i).map fun k => isoWord descriptors k 2).sum).take (isoWord descriptors i 2) =
      (x.buffer.drop (isoWord descriptors i 0)).take (isoWord descriptors i 2)

/-- The actual lengths that are sent, added up. -/
theorem sum_sent {packets : List LibusbIsoPacketDescriptor} {descriptors : List U8}
    (h : ∀ i iso, packets[i]? = some iso → isoWord descriptors i 2 = iso.actualLength) :
    ∀ n ≤ packets.length, ((List.range n).map fun i => isoWord descriptors i 2).sum = dataSizeOf (packets.take n) := by
  intro n hn
  induction n with
  | zero => rfl
  | succ n ih =>
    have hget : packets[n]? = some packets[n] := List.getElem?_eq_getElem hn
    have htake : dataSizeOf (packets.take (n + 1)) = dataSizeOf (packets.take n) + packets[n].actualLength := by
      rw [List.take_add_one, hget]
      exact (Slots.size_append _ _).trans (by simp)
    rw [List.range_succ, List.map_append, List.sum_append, ih (by omega), htake]
    simp [h n _ hget]

/-- The layout is the packed parts of the packets. -/
theorem isoLayout_packed {rep : Command} {data descriptors : List U8} (h : IsoLayout E x rep data descriptors) :
    Slots.Packed (·.length) (·.actualLength) x.buffer x.isoPacketDesc data := by
  have hsum := sum_sent fun i iso hi => (h.sent i iso hi).2
  refine ⟨?_, fun i hi => ?_⟩
  · have hall := hsum _ le_rfl
    rw [List.take_length] at hall
    rw [h.size, LibusbTransfer.numIsoPackets, hall]
  · have hpart := h.part i hi
    rw [hsum i hi.le, (h.sent i _ (List.getElem?_eq_getElem hi)).1, (h.sent i _ (List.getElem?_eq_getElem hi)).2]
      at hpart
    exact hpart

/-- The descriptors of a reply say where the packets are, whatever their status. -/
theorem isoBytes_sent (hiso : x.isIso = true) (hfit : PacketsFit x) (hlen : x.length < 2 ^ 31) {i : ℕ}
    {iso : LibusbIsoPacketDescriptor} (hi : x.isoPacketDesc[i]? = some iso) :
    isoWord (isoBytes E x) i 0 = offsetOf (x.isoPacketDesc.take i) ∧ isoWord (isoBytes E x) i 2 = iso.actualLength := by
  obtain ⟨hlt, rfl⟩ := List.getElem?_eq_some_iff.mp hi
  have hpart : offsetOf (x.isoPacketDesc.take i) + x.isoPacketDesc[i].actualLength ≤ x.length := hfit.part_le hlt
  have hdesc := getElem?_toUsbipIsoDesc E x.isoPacketDesc 0 i
  rw [hi, Option.map_some, Nat.zero_add] at hdesc
  unfold isoBytes
  rw [if_pos hiso]
  unfold IsoDescriptor.bytes
  refine ⟨(isoWord_flatMap hdesc rfl).trans ?_, (isoWord_flatMap hdesc rfl).trans ?_⟩
  · rw [BitVec.toNat_ofNat]
    exact Nat.mod_eq_of_lt (by omega)
  · rw [BitVec.toNat_ofNat]
    exact Nat.mod_eq_of_lt (by omega)

theorem isoLayout_of_packed {rep : Command} (hs : cmd.isSubmit = true) (hin : cmd.isIn = true) (hc : cmd.isIso = true)
    (hiso : x.isIso = true) (hfit : PacketsFit x) (hlen : x.length < 2 ^ 31) (hrep : inReply E cmd x = .ok rep)
    (hp : Slots.Packed (·.length) (·.actualLength) x.buffer x.isoPacketDesc (inBytes E x)) :
    IsoLayout E x rep (inBytes E x) (isoBytes E x) := by
  have hsent := fun i iso (hi : x.isoPacketDesc[i]? = some iso) => isoBytes_sent (E := E) hiso hfit hlen hi
  have hsum := sum_sent fun i iso hi => (hsent i iso hi).2
  have hle : dataSizeOf x.isoPacketDesc ≤ x.length :=
    le_trans (sum_actualLength_le _ hfit.used_le) hfit.room_le
  have hdata : (inBytes E x).length = dataSizeOf x.isoPacketDesc := hp.length
  refine ⟨?_, length_isoBytes E x, ?_, ?_, hsent, fun i hi => ?_⟩
  · rw [inn_payload hs hin hrep, if_pos hc]
  · rw [reply_actualLength hs hrep, size_sendDataToHost, BitVec.toNat_ofNat]
    exact Nat.mod_eq_of_lt (by omega)
  · have hall := hsum _ le_rfl
    rw [List.take_length] at hall
    rw [hdata, LibusbTransfer.numIsoPackets, hall]
  · have hget := List.getElem?_eq_getElem hi
    rw [hsum i hi.le, (hsent i _ hget).1, (hsent i _ hget).2]
    exact hp.part i hi

theorem isoLayout_data {rep : Command} {data descriptors : List U8} (hs : cmd.isSubmit = true) (hin : cmd.isIn = true)
    (hc : cmd.isIso = true) (hrep : inReply E cmd x = .ok rep) (h : IsoLayout E x rep data descriptors) :
    data = inBytes E x := by
  have hpay := inn_payload hs hin hrep
  rw [if_pos hc, h.payload] at hpay
  exact (List.append_inj' hpay (h.count.trans (length_isoBytes E x).symm)).1

/-- **The layout of an iso reply**: the packets of a transfer are where the host
looks for them, in every buffer, just when its failed packets do no harm. -/
theorem iso_layout_iff (hs : cmd.isSubmit = true) (hin : cmd.isIn = true) (hc : cmd.isIso = true)
    (hpackets : 1 ≤ x.numIsoPackets) (hfit : PacketsFit x) (hlen : x.length < 2 ^ 31) :
    (∀ buffer : List U8, buffer.length = x.length → ∃ rep data descriptors,
      inReply E cmd { x with buffer := buffer } = .ok rep ∧
        IsoLayout E { x with buffer := buffer } rep data descriptors) ↔ FailuresHarmless x.isoPacketDesc := by
  have hiso : x.isIso = true := by simpa [LibusbTransfer.isIso] using (by omega : x.numIsoPackets ≠ 0)
  have hne : (0 : U8) ≠ 1 := by decide
  refine Iff.trans ?_ (Slots.gather_filter_iff hne hfit)
  refine forall_congr' fun buffer => imp_congr_right fun hb => ?_
  have hbytes := @inBytes_iso E { x with buffer := buffer } hiso hb
  have hgather : Slots.Packed (·.length) (·.actualLength) buffer x.isoPacketDesc _ :=
    Slots.packed_gather (by rw [hb]; exact hfit)
  refine ⟨?_, fun h => ?_⟩
  · rintro ⟨rep, data, descriptors, hrep, hl⟩
    have hdata := (isoLayout_packed hl).eq_gather
    rw [isoLayout_data hs hin hc hrep hl, hbytes] at hdata
    exact hdata
  · have hrep : inReply E cmd { x with buffer := buffer } = .ok _ := queueReplyToHost_submit E hs
    refine ⟨_, _, _, hrep, isoLayout_of_packed hs hin hc hiso hfit hlen hrep ?_⟩
    rw [hbytes]
    exact h ▸ hgather

/-- An iso IN submit of `packets` packets. -/
def Command.isoIn (length packets : I32) : Command :=
  ⟨⟨⟨USBIP_CMD_SUBMIT, 1, 0, USBIP_DIR_IN, 1⟩, ⟨0, length, 0, packets, 0, Vector.replicate 8 0⟩⟩, []⟩

/-- The first of its two packets failed. -/
def firstFailed : LibusbTransfer :=
  ⟨0x81, .isochronous, .completed, 4, 0, [0, 0, 7, 8], [⟨2, 0, .error⟩, ⟨2, 2, .completed⟩]⟩

/-- The last of its two packets failed. -/
def lastFailed : LibusbTransfer :=
  ⟨0x81, .isochronous, .completed, 4, 0, [7, 8, 0, 0], [⟨2, 2, .completed⟩, ⟨2, 0, .error⟩]⟩

/-- The bytes of the second packet are read from the first. -/
theorem iso_layout_shifted : inBytes .little firstFailed = [0, 0] ∧
    ¬ ∀ (E : Order) (cmd : Command) (x : LibusbTransfer), cmd.isSubmit = true → cmd.isIn = true → cmd.isIso = true →
      1 ≤ x.numIsoPackets → PacketsFit x → x.length < 2 ^ 31 → x.buffer.length = x.length →
      ∃ rep data descriptors, inReply E cmd x = .ok rep ∧ IsoLayout E x rep data descriptors := by
  refine ⟨by decide, fun h => ?_⟩
  have hfit : PacketsFit firstFailed := ⟨by decide, by decide⟩
  obtain ⟨rep, data, descriptors, hrep, hl⟩ := h .little (.isoIn 4 2) firstFailed (by decide) (by decide) (by decide)
    (by decide) hfit (by decide) rfl
  have hdata := isoLayout_data (by decide) (by decide) (by decide) hrep hl
  rw [(isoLayout_packed hl).eq_gather] at hdata
  revert hdata
  decide

theorem iso_layout_lastFailed : ∃ rep data descriptors, inReply .little (.isoIn 4 2) lastFailed = .ok rep ∧
    IsoLayout .little lastFailed rep data descriptors := by
  have hfit : PacketsFit lastFailed := ⟨by decide, by decide⟩
  exact (iso_layout_iff (by decide) (by decide) (by decide) (by decide) hfit (by decide)).mpr
    (by unfold FailuresHarmless Slots.InPlace; decide) [7, 8, 0, 0] rfl

end Viu
