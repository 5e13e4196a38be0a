/-
# The reply stream

`reply_consume_thread` writes a reply's header as it is in memory, then its
payload. The host finds the end of a frame from the header and from what it
knows of the command under the header's number. A reply is `Consistent` when
the two agree; `reply_framing` says every reply made is, so the frames come
apart again (`replies_split`).
-/
import Viu.Lib.Framing
import Viu.Stream
import Viu.Contents
import Viu.Frames

namespace Viu

open Bytes Ints

variable {E : Order} {d : Device} {s t : State} {a : Act} {ok : State → Act → Prop}

/-- Word `i` of a header on the wire. -/
def wireWord (hdr : List U8) (i : ℕ) : U32 := load .big 32 ((hdr.drop (4 * i)).take 4)

/-- The header on the wire echoes the command: the code of its kind, then its
number, device, direction and endpoint. -/
structure Echoes (E : Order) (cmd rep : Command) : Prop where
  code : (cmd.request = USBIP_CMD_SUBMIT ∧ wireWord (rep.header.bytes E) 0 = USBIP_RET_SUBMIT) ∨
    (cmd.request = USBIP_CMD_UNLINK ∧ wireWord (rep.header.bytes E) 0 = USBIP_RET_UNLINK)
  seqnum : wireWord (rep.header.bytes E) 1 = cmd.seqnum
  devid : wireWord (rep.header.bytes E) 2 = cmd.devid
  direction : wireWord (rep.header.bytes E) 3 = cmd.direction
  ep : wireWord (rep.header.bytes E) 4 = cmd.ep

/-- The reply echoes its command, and its payload is as long as the header says. -/
structure Consistent (E : Order) (cmd rep : Command) : Prop where
  echoes : Echoes E cmd rep
  submit : cmd.isSubmit = true → (rep.payload.length : ℤ) =
    (if cmd.isIn then (rep.actualLength E).toInt else 0) +
      if cmd.isIso then 16 * (rep.numberOfPackets E).toInt else 0
  unlink : cmd.isSubmit = false → rep.payload = []

theorem length_header_bytes (E : Order) (h : UsbipHeader) : (h.bytes E).length = Command.headerSize := by
  rw [UsbipHeader.bytes, List.length_append, length_flatMap_store]
  simp [Command.headerSize]

/-- What the host reads where the machine has word `i`. -/
theorem wireWord_bytes (E : Order) (h : UsbipHeader) (i : ℕ) (hi : i < h.words.length) :
    wireWord (h.bytes E) i = fromBig E h.words[i] := by
  rw [wireWord, UsbipHeader.bytes, drop_take_flatMap E _ _ i hi, ← fromBig_load (by decide) E _ (by simp),
    load_store (by decide)]

/-- A word that the code has turned to big-endian. -/
theorem wireWord_toBig {h : UsbipHeader} {i : ℕ} (hi : i < h.words.length) {w : U32} (hw : h.words[i] = toBig E w) :
    wireWord (h.bytes E) i = w := by
  rw [wireWord_bytes E h i hi, hw]
  exact fromBig_toBig (by decide) E w

theorem echoes_of_base {cmd rep : Command} (hk : cmd.isSubmit = true ∨ cmd.isUnlink = true)
    (hb : rep.header.base = cmd.replyHeader E) : Echoes E cmd rep where
  code := by
    have h0 : wireWord (rep.header.bytes E) 0 = if cmd.isSubmit then USBIP_RET_SUBMIT else USBIP_RET_UNLINK :=
      wireWord_toBig (by simp) (congrArg UsbipHeaderBasic.command hb)
    rw [h0]
    rcases hk with hs | hu
    · exact .inl ⟨by simpa [Command.isSubmit] using hs, if_pos hs⟩
    · have hs := isSubmit_eq_false_of_isUnlink hu
      exact .inr ⟨by simpa [Command.isUnlink] using hu, by rw [hs]; rfl⟩
  seqnum := wireWord_toBig (by simp) (congrArg UsbipHeaderBasic.seqnum hb)
  devid := wireWord_toBig (by simp) (congrArg UsbipHeaderBasic.devid hb)
  direction := wireWord_toBig (by simp) (congrArg UsbipHeaderBasic.direction hb)
  ep := wireWord_toBig (by simp) (congrArg UsbipHeaderBasic.ep hb)

theorem Echoes.code_eq {cmd rep : Command} (h : Echoes E cmd rep) :
    wireWord (rep.header.bytes E) 0 = if cmd.isSubmit then USBIP_RET_SUBMIT else USBIP_RET_UNLINK := by
  rcases h.code with ⟨hs, hcode⟩ | ⟨hu, hcode⟩
  · have hsub : cmd.isSubmit = true := decide_eq_true hs
    rw [hcode, if_pos hsub]
  · rw [hcode, isSubmit_eq_false_of_isUnlink (decide_eq_true hu)]
    rfl

/-! ### What the host can tell of a submit -/

/-- The command is a submit to an isochronous endpoint. -/
def Command.onIsoEp (d : Device) (cmd : Command) : Bool :=
  cmd.ep ≠ 0 ∧ d.epTransferType cmd.epAddress = some .isochronous

/-- Packets are positive on the iso endpoints, and 0 or -1 elsewhere. -/
def Command.PacketsOk (d : Device) (cmd : Command) : Prop :=
  if cmd.onIsoEp d then 0 < cmd.isoPacketCount.toInt else cmd.isoPacketCount = 0 ∨ cmd.isoPacketCount = -1

instance (d : Device) (cmd : Command) : Decidable (cmd.PacketsOk d) := by
  unfold Command.PacketsOk
  infer_instance

/-- The host numbers packets as its driver does. -/
def HostPackets (s : State) (a : Act) : Prop := ∀ c ∈ a.sent?, c.isSubmit = true → c.PacketsOk s.dev

instance (s : State) (a : Act) : Decidable (HostPackets s a) := by unfold HostPackets; infer_instance

theorem Command.PacketsOk.isIso_eq {cmd : Command} (h : cmd.PacketsOk d) : cmd.isIso = cmd.onIsoEp d := by
  unfold Command.PacketsOk at h
  unfold Command.isIso
  cases ho : cmd.onIsoEp d with
  | false =>
    rw [ho] at h
    simp only [Bool.false_eq_true, ↓reduceIte] at h
    rcases h with h | h <;> simp [h]
  | true =>
    rw [ho] at h
    simp only [↓reduceIte] at h
    refine decide_eq_true ⟨fun hz => ?_, fun hm => ?_⟩
    · rw [hz] at h
      exact absurd h (by decide)
    · rw [hm] at h
      exact absurd h (by decide)

theorem onIsoEp_tree {d' : Device} (h : d'.descriptorTree = d.descriptorTree) (cmd : Command) :
    cmd.onIsoEp d' = cmd.onIsoEp d := by
  unfold Command.onIsoEp Device.epTransferType
  rw [h]

theorem packets_sent (h : Run E HostPackets d s) :
    ∀ j ∈ s.sent, j.cmd.isSubmit = true → j.cmd.PacketsOk d := by
  refine h.invariant_of (I := fun s => ∀ j ∈ s.sent, j.cmd.isSubmit = true → j.cmd.PacketsOk d)
    (fun s hs => held_run hs) (fun j hj => (nomatch hj)) fun s a t hh hs ha hst j hj hsub => ?_
  rcases sent_cases (step_cases hst) hj with hj | ⟨c, hc, rfl⟩
  · exact hs j hj hsub
  · have hp := ha c hc hsub
    unfold Command.PacketsOk at hp ⊢
    rwa [onIsoEp_tree hh.tree] at hp

/-! ### Every reply is consistent -/

/-- A control command is not iso. -/
theorem not_isIso_of_control {cmd : Command} (h : cmd.PacketsOk d) (hep : cmd.ep = 0) : cmd.isIso = false := by
  rw [h.isIso_eq]
  simp [Command.onIsoEp, hep]

/-- The payload of a reply with data, in a submit's reply. -/
theorem length_payload {req : QueueReplyRequest} {rep : Command} (hs : req.cmd.isSubmit = true)
    (h : queueReplyToHost E req = .ok rep) :
    rep.payload.length = if req.data.isSome then req.payloadSize else 0 := by
  rw [reply_payload hs h]
  cases req.data <;> simp

theorem consistent_control {cmd : Command} {io : Io} {dev dev' : Device} {req : QueueReplyRequest}
    {rep : Command} (hs : cmd.isSubmit = true) (hp : cmd.PacketsOk d) (hep : cmd.ep = 0)
    (hc : Proxy.executeControlCommand E io dev cmd = .ok (req, dev')) (hrep : queueReplyToHost E req = .ok rep) :
    (rep.payload.length : ℤ) = (if cmd.isIn then (rep.actualLength E).toInt else 0) +
      if cmd.isIso then 16 * (rep.numberOfPackets E).toInt else 0 := by
  obtain ⟨hcmd, -⟩ := Proxy.executeControlCommand_keeps hc
  rw [← hcmd] at hs
  have hni := not_isIso_of_control hp hep
  rw [length_payload hs hrep, reply_actualLength hs hrep, hni]
  unfold QueueReplyRequest.payloadSize
  rw [hcmd, hni]
  unfold Proxy.executeControlCommand at hc
  simp only [Bool.false_eq_true, ↓reduceIte, add_zero]
  by_cases hin : cmd.isIn = true
  · have hout := Command.not_isOut_of_isIn hin
    rw [if_pos hin] at hc
    cases hex : Proxy.executeInControlCommand E io dev cmd with
    | error e => rw [hex] at hc; cases hc
    | ok r =>
      rw [hex] at hc
      obtain ⟨rfl, -⟩ := Prod.mk.inj (Except.ok.inj hc)
      obtain ⟨hlt, hnone⟩ := (Proxy.executeInControlCommand_cases hex).size
      rw [if_pos hin, hout, toInt_ofNat_of_lt hlt]
      cases hd : r.data with
      | none => simp [hnone hd]
      | some bs => simp
  · rw [if_neg hin] at hc ⊢
    by_cases hout : cmd.isOut = true
    · simp [hout]
    · rw [if_neg hout] at hc
      cases hc

theorem consistent_out {x : Done} {cb : Callback} {req : QueueReplyRequest} {rep : Command} (made : x.Made d)
    (hp : x.job.cmd.PacketsOk d) (hj : x.job.isEpOut = true) (hcb : cb = Proxy.callbackOf x.job.cmd)
    (hreq : Proxy.onTransferCompletedImpl E cb x.transfer = some (.reply req))
    (hrep : queueReplyToHost E req = .ok rep) :
    (rep.payload.length : ℤ) = (if x.job.cmd.isIn then (rep.actualLength E).toInt else 0) +
      if x.job.cmd.isIso then 16 * (rep.numberOfPackets E).toInt else 0 := by
  obtain ⟨hs, hep, hin, hout⟩ := Job.isEpOut_eq hj
  subst hcb
  obtain rfl := Proxy.outRequest_of_some hin hreq
  unfold Proxy.outRequest at hrep
  rw [hin]
  by_cases hi : x.job.cmd.isIso = true
  · rw [if_pos hi] at hrep ⊢
    have hiso : x.job.isIsoEp d = true := by
      have := hp.isIso_eq.symm.trans hi
      simp only [Command.onIsoEp, decide_eq_true_eq] at this
      exact decide_eq_true this.2
    obtain ⟨hnn, hnum⟩ := made.numIsoPackets.2 hiso hi
    rw [length_payload hs hrep, reply_numberOfPackets hs hrep]
    simp only [Proxy.onOutIsoTransferComplete, QueueReplyRequest.payloadSize, hout, hi, Option.isSome_some,
      Bool.false_eq_true, ↓reduceIte, LibusbTransfer.isoDescriptorSize, hnum, sizeofIsoDescriptor]
    rw [toInt_of_nonneg hnn]
    push_cast
    ring
  · rw [if_neg hi] at hrep ⊢
    rw [length_payload hs hrep]
    rfl

theorem consistent_inn {j : Job} {b : Block} {finished : List Done} {rep : Command} (hj : j.isEpIn = true)
    (hp : j.cmd.PacketsOk d) (hb : b.From E d finished j.cmd.ep.toNat)
    (hpair : j.cmd.isIso = true → b.done.transfer.numIsoPackets = j.cmd.isoPacketCount.toNat)
    (hrep : queueReplyToHost E (sendDataToHost j.cmd b.data) = .ok rep) :
    (rep.payload.length : ℤ) = (if j.cmd.isIn then (rep.actualLength E).toInt else 0) +
      if j.cmd.isIso then 16 * (rep.numberOfPackets E).toInt else 0 := by
  obtain ⟨hs, hep, hin, -⟩ := Job.isEpIn_eq hj
  have hfill := hb.made.filled hb.isEpIn
  have hlt := lt_of_le_of_lt (hfill.length_inBytes_le E) hfill.size
  rw [hb.data_eq] at hrep
  rw [inn_payload hs hin hrep, reply_actualLength hs hrep, reply_numberOfPackets hs hrep, size_sendDataToHost,
    if_pos hin, toInt_ofNat_of_lt hlt]
  by_cases hi : j.cmd.isIso = true
  · have hpos : 0 < j.cmd.isoPacketCount.toInt := by
      unfold Command.PacketsOk at hp
      split at hp
      · exact hp
      · exfalso
        simp only [Command.isIso, decide_eq_true_eq] at hi
        rcases hp with h | h
        · exact hi.1 h
        · exact hi.2 h
    rw [if_pos hi, if_pos hi, List.length_append, length_isoBytes, hpair hi]
    show _ = _ + 16 * j.cmd.isoPacketCount.toInt
    rw [toInt_of_nonneg (le_of_lt hpos)]
    push_cast
    ring
  · rw [if_neg hi, if_neg hi, List.append_nil, add_zero]

/-- The iso submits of `s` were paired with transfers of their own number of
packets. -/
def PacketsMatch (s : State) : Prop :=
  ∀ r ∈ s.produced, ∀ b ∈ r.block, r.job.cmd.isIso = true →
    b.done.transfer.numIsoPackets = r.job.cmd.isoPacketCount.toNat

theorem consistent (h : Run E HostPackets d s) (hm : PacketsMatch s) {r : Reply} (hr : r ∈ s.produced) :
    Consistent E r.job.cmd r.rep := by
  have hfrom := (held_run h).produced r hr
  have hp := packets_sent h r.job (mem_sent_of_received (mem_received_of_produced h hr))
  have hm := hm r hr
  refine ⟨echoes_of_base hfrom.isSubmit_or_isUnlink hfrom.base, fun hs => ?_, fun hn => ?_⟩
  · cases hfrom with
    | control tree hsub hep hc hrep => exact consistent_control hsub (hp hsub) hep hc hrep
    | unlink hu hrep =>
      rw [isSubmit_eq_false_of_isUnlink hu] at hs
      cases hs
    | out made mem hj hcb hreq hrep => exact consistent_out made (hp hs) hj hcb hreq hrep
    | inn hj hb hrep => exact consistent_inn hj (hp hs) hb (hm _ rfl) hrep
  · cases hfrom with
    | control tree hsub hep hc hrep => rw [hsub] at hn; cases hn
    | unlink hu hrep =>
      rw [queueReplyToHost_unlink E hu] at hrep
      rw [← Except.ok.inj hrep]
    | out made mem hj hcb hreq hrep => rw [(Job.isEpOut_eq hj).1] at hn; cases hn
    | inn hj hb hrep => rw [(Job.isEpIn_eq hj).1] at hn; cases hn

/-! ### The host's reader -/

/-- What `reply_consume_thread` writes. -/
def Command.bytes (E : Order) (rep : Command) : List U8 := rep.header.bytes E ++ rep.payload

/-- How much follows a header; `know` is what the host knows of a number, that
the command is IN and that it is iso. -/
def followSize (know : U32 → Bool × Bool) (hdr : List U8) : ℤ :=
  if wireWord hdr 0 = USBIP_RET_SUBMIT then
    (if (know (wireWord hdr 1)).1 then (wireWord hdr 6).toInt else 0) +
      if (know (wireWord hdr 1)).2 then 16 * (wireWord hdr 8).toInt else 0
  else 0

/-- A header and what follows it. -/
def readReply (know : U32 → Bool × Bool) (stream : List U8) : Except Exn ((List U8 × List U8) × List U8) :=
  let hdr := stream.take Command.headerSize
  let rest := stream.drop Command.headerSize
  if stream.length < Command.headerSize then .error .eof
  else if followSize know hdr < 0 then .error .lengthError
  else if rest.length < (followSize know hdr).toNat then .error .eof
  else .ok ((hdr, rest.take (followSize know hdr).toNat), rest.drop (followSize know hdr).toNat)

def replyReader (know : U32 → Bool × Bool) : Framing.Reader (List U8 × List U8) U8 Exn where
  read := readReply know
  shorter := fun {bs a rest} h => by
    unfold readReply at h
    dsimp only at h
    split_ifs at h with h1
    obtain ⟨-, rfl⟩ := Prod.mk.inj (Except.ok.inj h)
    have : 0 < Command.headerSize := by decide
    rw [List.length_drop, List.length_drop]
    omega

theorem followSize_header {cmd rep : Command} (h : Consistent E cmd rep) {know : U32 → Bool × Bool}
    (hk : know cmd.seqnum = (cmd.isIn, cmd.isIso)) :
    followSize know (rep.header.bytes E) = rep.payload.length := by
  have h6 : wireWord (rep.header.bytes E) 6 = rep.actualLength E := wireWord_bytes E rep.header 6 (by simp)
  have h8 : wireWord (rep.header.bytes E) 8 = rep.numberOfPackets E := wireWord_bytes E rep.header 8 (by simp)
  unfold followSize
  rw [h.echoes.code_eq, h.echoes.seqnum, h6, h8, hk]
  by_cases hs : cmd.isSubmit = true
  · rw [if_pos hs, if_pos rfl, h.submit hs]
  · have hne : USBIP_RET_UNLINK ≠ USBIP_RET_SUBMIT := by decide
    rw [if_neg hs, if_neg hne, h.unlink (by simpa using hs)]
    rfl

/-- A consistent reply is read back, whatever follows it. -/
theorem readReply_bytes {cmd rep : Command} (h : Consistent E cmd rep) {know : U32 → Bool × Bool}
    (hk : know cmd.seqnum = (cmd.isIn, cmd.isIso)) (rest : List U8) :
    readReply know (rep.bytes E ++ rest) = .ok ((rep.header.bytes E, rep.payload), rest) := by
  have hlen := length_header_bytes E rep.header
  have htake : (rep.bytes E ++ rest).take Command.headerSize = rep.header.bytes E := by
    rw [Command.bytes, List.append_assoc, ← hlen, List.take_left]
  have hdrop : (rep.bytes E ++ rest).drop Command.headerSize = rep.payload ++ rest := by
    rw [Command.bytes, List.append_assoc, ← hlen, List.drop_left]
  have hsize := followSize_header h hk
  have hge : Command.headerSize ≤ (rep.bytes E ++ rest).length := by
    rw [Command.bytes, List.length_append, List.length_append, hlen]
    omega
  unfold readReply
  dsimp only
  rw [htake, hdrop, hsize, if_neg (by omega), if_neg (by omega), Int.toNat_natCast,
    if_neg (by rw [List.length_append]; omega), List.take_left, List.drop_left]

/-- Consistent replies come apart again. -/
theorem replies_split (know : U32 → Bool × Bool) (rs : List Reply)
    (hc : ∀ r ∈ rs, Consistent E r.job.cmd r.rep)
    (hk : ∀ r ∈ rs, know r.job.cmd.seqnum = (r.job.cmd.isIn, r.job.cmd.isIso)) :
    (replyReader know).all (rs.flatMap fun r => r.rep.bytes E) =
      (rs.map fun r => (r.rep.header.bytes E, r.rep.payload), .eof, []) :=
  (replyReader know).all_frames _ _ rs rfl fun r hr rest => readReply_bytes (hc r hr) (hk r hr) rest

/-- Every reply made is consistent, and any of them in a row come apart again. -/
structure Framed (E : Order) (s : State) : Prop where
  consistent : ∀ r ∈ s.produced, Consistent E r.job.cmd r.rep
  split : ∀ know : U32 → Bool × Bool, ∀ rs : List Reply, (∀ r ∈ rs, r ∈ s.produced) →
    (∀ r ∈ rs, know r.job.cmd.seqnum = (r.job.cmd.isIn, r.job.cmd.isIso)) →
    (replyReader know).all (rs.flatMap fun r => r.rep.bytes E) =
      (rs.map fun r => (r.rep.header.bytes E, r.rep.payload), .eof, [])

/-- **Reply framing**, in every run whose host numbers packets by endpoint and
whose iso submits meet transfers of their number of packets. -/
theorem reply_framing (h : Run E HostPackets d s) (hm : PacketsMatch s) : Framed E s where
  consistent := fun _ hr => consistent h hm hr
  split := fun know rs hrs hk => replies_split know rs (fun r hr => consistent h hm (hrs r hr)) hk

/-- An iso IN submit of two packets, the second of which fails, and a control
submit. -/
def isoThenControl : List Act :=
  fetch ⟨⟨⟨USBIP_CMD_SUBMIT, 1, 0, USBIP_DIR_IN, 1⟩, ⟨0, 4, 0, 2, 0, Vector.replicate 8 0⟩⟩, []⟩ ++
  [.submitIn, .pushIn, .complete 0 ⟨0x81, .isochronous, .completed, 4, 0, [7, 8, 9, 10],
    [⟨2, 2, .completed⟩, ⟨2, 1, .error⟩]⟩] ++ feed 1 ++ deliver ++
  fetch (.submit 2 USBIP_DIR_IN 0 2) ++ [.control Io.silent] ++ deliver

theorem reply_framing_isoThenControl :
    (State.after .little (.mock [.iso 0x81]) isoThenControl).frames.map (·.payload.length) = [3 + 2 * 16, 2] ∧
      Framed .little (State.after .little (.mock [.iso 0x81]) isoThenControl) :=
  ⟨by decide +kernel, reply_framing (run_after (by decide +kernel) (by decide +kernel))
    (by unfold PacketsMatch; decide +kernel)⟩

end Viu
