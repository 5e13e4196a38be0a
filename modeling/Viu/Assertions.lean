/-
# The assertions on a completion's way

What `viu::_assert` checks between the callback of a transfer and the reply of
an IN submit. In a Debug build a check that fails aborts; `Debug` holds the
functions of that build, with the checks where the source has them. What passes
them is what the other build computes (`Debug.onTransferCompletedImpl_ok`,
`Debug.sendDataToHost_ok`).

On the traffic that is legal on USB the checks pass exactly as long as every
IN transfer is asked for data and brings some, and a packet that failed brings
none (`assertions_hold_iff`).
-/
import Viu.IsoLayout
import Viu.Outcome
import Viu.ReplyStream

namespace Viu

open Bytes Ints

/-- The checks, by what they demand. -/
inductive Assertion
  | statusCompleted
  | someData
  | allSent
  | isIso
  | directionIn
  | endpointIndex
  | isoDataSize
  | totalSize
  | requestedData
  | fitsRequest
  deriving DecidableEq, Repr

namespace Debug

abbrev Checked := Except Assertion

def check (p : Prop) [Decidable p] (a : Assertion) : Checked Unit := if p then .ok () else .error a

variable (E : Order) (transfer : LibusbTransfer)

/-- The pointers are not null: `new` has made the buffer. -/
def isoData : Checked (List U8) := do
  check (transfer.isIso = true) .isIso
  return Viu.isoData transfer

def isoDescriptors : Checked IsoDescriptor := do
  check (transfer.isIso = true) .isIso
  return Viu.isoDescriptors E transfer

def LIBUSB_ENDPOINT_IN : U8 := 0x80#8

def queueDataForHost : Checked TransferData := do
  check (transfer.endpoint &&& 0x80#8 = LIBUSB_ENDPOINT_IN) .directionIn
  check ((transfer.endpoint &&& 0x0f#8).toNat < maxCountIn) .endpointIndex
  if transfer.isIso then
    let isoDesc ← isoDescriptors E transfer
    let data ← isoData transfer
    check (isoDesc.dataSize = data.length) .isoDataSize
    let data := resize data isoDesc.dataSize ++ isoDesc.bytes E
    check (isoDesc.dataSize + transfer.isoDescriptorSize ≤ data.length) .totalSize
    return ⟨data, transfer.isoDescriptorSize, isoDesc.errorCount⟩
  else
    let data := transfer.buffer.take transfer.actualLength
    check (transfer.actualLength ≤ data.length) .totalSize
    return ⟨data, 0, 0⟩

def onOutIsoTransferComplete (cmd : Command) : Checked QueueReplyRequest := do
  let _isoDesc ← isoDescriptors E transfer
  return Proxy.onOutIsoTransferComplete E cmd transfer

def onInIsoTransferComplete : Checked TransferData := do
  check (transfer.isIso = true) .isIso
  queueDataForHost E transfer

def onInTransferComplete : Checked TransferData := do
  check (transfer.status = .completed) .statusCompleted
  check (0 < transfer.actualLength) .someData
  queueDataForHost E transfer

def onOutTransferComplete (cmd : Command) : Checked QueueReplyRequest := do
  check (transfer.actualLength = transfer.length) .allSent
  return Proxy.onOutTransferComplete cmd transfer

def callback (cb : Callback) : Checked Proxy.Completion :=
  let ep := (transfer.endpoint &&& 0x0f#8).toNat
  match cb with
  | .inIso => (onInIsoTransferComplete E transfer).map (.data ep)
  | .inn => (onInTransferComplete E transfer).map (.data ep)
  | .outIso cmd => (onOutIsoTransferComplete E transfer cmd).map .reply
  | .out cmd => (onOutTransferComplete transfer cmd).map .reply

def onTransferCompletedImpl (cb : Callback) : Checked (Option Proxy.Completion) :=
  if transfer.status = .timedOut ∨ transfer.status = .cancelled then .ok none
  else (callback E transfer cb).map some

/-- What `send_data_to_host` checks when it has pulled the command, before it waits
for the data. -/
def pullInCommand (cmd : Command) : Checked Unit := check (0 < cmd.transferBufferSize.toNat) .requestedData

/-- The rest of it. -/
def sendDataToHost (cmd : Command) (data : TransferData) : Checked QueueReplyRequest := do
  let request := Viu.sendDataToHost cmd data
  check (request.size ≤ cmd.transferBufferSize.toNat) .fitsRequest
  return request

end Debug

/-- No check fails. -/
def Passes {α : Type} (x : Debug.Checked α) : Prop := x.isOk = true

/-! ### Runs -/

/-- The command and the block that a transfer thread has pulled. -/
def Feeder.pulled? : Feeder → Option (Job × Block)
  | .data j b => some (j, b)
  | _ => none

/-- No check fails in this step. -/
def AssertionsHold (E : Order) (s : State) : Act → Prop
  | .complete k transfer =>
    ∀ p ∈ s.pending[k]?, Passes (Debug.onTransferCompletedImpl E transfer p.callback)
  | .pullInCommand ep => ∀ j ∈ (s.inCommands ep).head?, Passes (Debug.pullInCommand j.cmd)
  | .sendData ep => ∀ jb ∈ (s.feeder ep).pulled?, Passes (Debug.sendDataToHost jb.1.cmd jb.2.data)
  | _ => True

/-- How a transfer may end: off the iso endpoints with COMPLETED, and an OUT with all of
its data sent; on them with any statuses of the packets. -/
structure Done.EndsLegally (x : Done) : Prop where
  reported : x.reported = true
  completed : x.transfer.type ≠ .isochronous → x.transfer.status = .completed
  allSent : x.transfer.type ≠ .isochronous → x.job.isEpOut = true → x.transfer.actualLength = x.transfer.length

/-- The traffic that is legal on USB: packets on the iso endpoints only, and an
endpoint's transfers end in the order submitted. -/
structure LegalTraffic (s : State) (a : Act) : Prop where
  packets : HostPackets s a
  inSequence : InSequence s a
  ends : ∀ kx ∈ a.completed?, ∀ p ∈ s.pending[kx.1]?, (⟨p.job, kx.2⟩ : Done).EndsLegally

/-- An IN transfer brings data, and a packet that failed none. -/
def BringsData (transfer : LibusbTransfer) : Prop :=
  if transfer.type = .isochronous then
    ∀ iso ∈ transfer.isoPacketDesc, iso.status ≠ .completed → iso.actualLength = 0
  else 0 < transfer.actualLength

/-- Data is brought, and asked for: the command a transfer thread pulls has room. -/
def Substantial (s : State) : Act → Prop
  | .complete k transfer => ∀ p ∈ s.pending[k]?, p.job.isEpIn = true → BringsData transfer
  | .pullInCommand ep => ∀ j ∈ (s.inCommands ep).head?, 0 < j.cmd.transferBufferSize.toNat
  | _ => True

instance {α : Type} (x : Debug.Checked α) : Decidable (Passes x) := inferInstanceAs (Decidable (_ = _))

instance (x : Done) : Decidable x.EndsLegally :=
  decidable_of_iff (x.reported = true ∧ (x.transfer.type ≠ .isochronous → x.transfer.status = .completed) ∧
      (x.transfer.type ≠ .isochronous → x.job.isEpOut = true → x.transfer.actualLength = x.transfer.length))
    ⟨fun ⟨a, b, c⟩ => ⟨a, b, c⟩, fun ⟨a, b, c⟩ => ⟨a, b, c⟩⟩

instance (s : State) (a : Act) : Decidable (LegalTraffic s a) :=
  decidable_of_iff (HostPackets s a ∧ InSequence s a ∧
      ∀ kx ∈ a.completed?, ∀ p ∈ s.pending[kx.1]?, (⟨p.job, kx.2⟩ : Done).EndsLegally)
    ⟨fun ⟨a, b, c⟩ => ⟨a, b, c⟩, fun ⟨a, b, c⟩ => ⟨a, b, c⟩⟩

instance (transfer : LibusbTransfer) : Decidable (BringsData transfer) := by unfold BringsData; infer_instance

instance (s : State) (a : Act) : Decidable (Substantial s a) := by unfold Substantial; split <;> infer_instance

instance (E : Order) (s : State) (a : Act) : Decidable (AssertionsHold E s a) := by
  unfold AssertionsHold
  split <;> infer_instance

/-! ### The checks -/

section

variable {α β : Type} {x : Debug.Checked α} {E : Order} {transfer : LibusbTransfer}

theorem passes_ok (a : α) : Passes (.ok a : Debug.Checked α) := rfl

theorem passes_check (p : Prop) [Decidable p] (a : Assertion) (f : Unit → Debug.Checked α) :
    Passes (Debug.check p a >>= f) ↔ p ∧ Passes (f ()) := by
  by_cases h : p
  · rw [Debug.check, if_pos h]
    exact (and_iff_right h).symm
  · rw [Debug.check, if_neg h]
    exact iff_of_false Bool.false_ne_true fun hp => h hp.1

theorem passes_map (f : α → β) : Passes (x.map f) ↔ Passes x := by
  cases x <;> rfl

theorem check_eq_ok {p : Prop} [Decidable p] {e : Assertion} {f : Unit → Debug.Checked α} {v : α}
    (h : (Debug.check p e >>= f) = .ok v) : p ∧ f () = .ok v := by
  by_cases hp : p
  · rw [Debug.check, if_pos hp] at h
    exact ⟨hp, h⟩
  · rw [Debug.check, if_neg hp] at h
    cases h

theorem map_eq_ok {f : α → β} {v : β} (h : x.map f = .ok v) : ∃ a, x = .ok a ∧ f a = v := by
  cases x with
  | ok a => exact ⟨a, rfl, Except.ok.inj h⟩
  | error e => cases h

theorem Debug.queueDataForHost_ok {v : TransferData} (h : Debug.queueDataForHost E transfer = .ok v) :
    v = Viu.queueDataForHost E transfer := by
  unfold Debug.queueDataForHost at h
  obtain ⟨-, -, h⟩ := (check_eq_ok h).imp_right check_eq_ok
  unfold Viu.queueDataForHost
  by_cases hiso : transfer.isIso = true
  · rw [if_pos hiso] at h ⊢
    simp only [Debug.isoDescriptors, Debug.isoData, bind_assoc, pure_bind] at h
    obtain ⟨-, -, -, -, h⟩ := (check_eq_ok h).imp_right fun h => (check_eq_ok h).imp_right fun h =>
      (check_eq_ok h).imp_right check_eq_ok
    exact (Except.ok.inj h).symm
  · rw [if_neg hiso] at h ⊢
    exact (Except.ok.inj (check_eq_ok h).2).symm

/-- What passes the checks of a completion is what the other build leaves. -/
theorem Debug.onTransferCompletedImpl_ok {cb : Callback} {c : Option Proxy.Completion}
    (h : Debug.onTransferCompletedImpl E transfer cb = .ok c) :
    c = Proxy.onTransferCompletedImpl E cb transfer := by
  unfold Debug.onTransferCompletedImpl at h
  unfold Proxy.onTransferCompletedImpl
  by_cases hst : transfer.status = .timedOut ∨ transfer.status = .cancelled
  · rw [if_pos hst] at h ⊢
    exact (Except.ok.inj h).symm
  · rw [if_neg hst] at h ⊢
    obtain ⟨c, hc, rfl⟩ := map_eq_ok h
    refine congrArg some ?_
    cases cb with
    | inIso =>
      obtain ⟨v, hv, rfl⟩ := map_eq_ok hc
      rw [Debug.queueDataForHost_ok (check_eq_ok hv).2]
      rfl
    | inn =>
      obtain ⟨v, hv, rfl⟩ := map_eq_ok hc
      rw [Debug.queueDataForHost_ok (check_eq_ok (check_eq_ok hv).2).2]
      rfl
    | outIso cmd =>
      obtain ⟨v, hv, rfl⟩ := map_eq_ok hc
      simp only [Debug.onOutIsoTransferComplete, Debug.isoDescriptors, bind_assoc, pure_bind] at hv
      rw [← Except.ok.inj (check_eq_ok hv).2]
      rfl
    | out cmd =>
      obtain ⟨v, hv, rfl⟩ := map_eq_ok hc
      rw [← Except.ok.inj (check_eq_ok hv).2]
      rfl

/-- And so with the last of `send_data_to_host`. -/
theorem Debug.sendDataToHost_ok {cmd : Command} {data : TransferData} {req : QueueReplyRequest}
    (h : Debug.sendDataToHost cmd data = .ok req) : req = Viu.sendDataToHost cmd data :=
  (Except.ok.inj (check_eq_ok h).2).symm

theorem passes_queueDataForHost (hin : transfer.endpoint &&& 0x80#8 = Debug.LIBUSB_ENDPOINT_IN) :
    Passes (Debug.queueDataForHost E transfer) ↔
      if transfer.isIso then (isoDescriptors E transfer).dataSize = (isoData transfer).length
      else transfer.actualLength ≤ transfer.buffer.length := by
  have hindex : (transfer.endpoint &&& 0x0f#8).toNat < maxCountIn := by
    rw [BitVec.toNat_and]
    exact Nat.lt_succ_of_le Nat.and_le_right
  unfold Debug.queueDataForHost
  rw [passes_check, passes_check, and_iff_right hin, and_iff_right hindex]
  by_cases hiso : transfer.isIso = true
  · rw [if_pos hiso, if_pos hiso]
    simp only [Debug.isoDescriptors, Debug.isoData, bind_assoc, pure_bind]
    rw [passes_check, passes_check, passes_check, passes_check]
    simp only [hiso, true_and]
    refine and_iff_left ⟨?_, passes_ok _⟩
    rw [List.length_append, length_resize, length_isoDescriptors_bytes]
  · rw [if_neg hiso, if_neg hiso, passes_check, List.length_take, le_min_iff]
    exact ⟨fun h => h.1.2, fun h => ⟨⟨le_rfl, h⟩, passes_ok _⟩⟩

/-- The packets that completed are all the data just when the others brought none. -/
theorem dataSize_eq_iff (hfit : PacketsFit transfer) (hb : transfer.buffer.length = transfer.length) :
    (isoDescriptors E transfer).dataSize = (isoData transfer).length ↔
      ∀ iso ∈ transfer.isoPacketDesc, iso.status ≠ .completed → iso.actualLength = 0 := by
  have hlen : (isoData transfer).length = dataSizeOf (transfer.isoPacketDesc.filter (·.completed)) := by
    rw [isoData, isoDataFrom_eq, ← hb, List.take_length]
    refine Slots.length_gather ?_ (Nat.zero_le _)
    rw [Nat.sub_zero, hb]
    exact hfit.filter _
  have hsum : (isoDescriptors E transfer).dataSize = dataSizeOf transfer.isoPacketDesc := rfl
  have hsplit : dataSizeOf transfer.isoPacketDesc = _ + _ := Slots.size_filter (·.completed) transfer.isoPacketDesc
  have hzero : dataSizeOf (transfer.isoPacketDesc.filter fun iso => !iso.completed) = 0 ↔
      ∀ iso ∈ transfer.isoPacketDesc, iso.status ≠ .completed → iso.actualLength = 0 := by
    rw [dataSizeOf, Slots.size, List.sum_eq_zero_iff, List.forall_mem_map]
    simp [LibusbIsoPacketDescriptor.completed]
  rw [hlen, hsum, ← hzero, hsplit]
  exact Nat.add_eq_left

end

/-! ### A completion -/

variable {E : Order} {d : Device} {s t : State} {a : Act} {ok : State → Act → Prop} {x : Done}

/-- The address of an IN command has the direction bit. -/
theorem epAddress_direction {cmd : Command} (hin : cmd.isIn = true) :
    cmd.epAddress &&& 0x80#8 = Debug.LIBUSB_ENDPOINT_IN := by
  have habsorb : ∀ x y : U8, (x ||| y) &&& y = y := fun x y => by
    ext i hi
    rw [BitVec.getElem_and, BitVec.getElem_or]
    cases x[i] <;> cases y[i] <;> rfl
  have hbits : cmd.epAddress = cmd.ep.setWidth 8 ||| 0x80#8 := by
    rw [Command.epAddress, if_pos hin, BitVec.setWidth_or]
    rfl
  rw [hbits, habsorb]
  rfl

/-- Where the host numbers packets as it should, iso commands have iso transfers. -/
theorem Done.Made.isIso_eq (h : x.Made d) (hp : x.job.cmd.PacketsOk d) :
    (x.job.cmd.isIso = true ↔ x.transfer.type = .isochronous) ∧ x.transfer.isIso = x.job.cmd.isIso := by
  obtain ⟨p, hmade, hj, -⟩ := h.completes
  have hep : x.job.cmd.ep ≠ 0 := by
    rw [← hj]
    exact hmade.isEp.elim (fun hin => (Job.isEpIn_eq hin).2.1) fun hout => (Job.isEpOut_eq hout).2.1
  have hon : x.job.cmd.onIsoEp d = decide (x.transfer.type = .isochronous) := by
    have hep' : ¬x.job.cmd.ep = 0#32 := hep
    simp [Command.onIsoEp, hep', h.type_eq]
  have hcmd := hp.isIso_eq
  rw [hon] at hcmd
  refine ⟨by rw [hcmd, decide_eq_true_eq], ?_⟩
  by_cases htype : x.transfer.type = .isochronous
  · have hiso : x.job.isIsoEp d = true := by rw [Job.isIsoEp, h.type_eq, htype]; rfl
    rw [decide_eq_true htype] at hcmd
    obtain ⟨hnonneg, hcount⟩ := h.numIsoPackets.2 hiso hcmd
    have hpos : 0 < x.job.cmd.isoPacketCount.toInt := by
      rw [Command.PacketsOk, hon, decide_eq_true htype] at hp
      exact hp
    rw [hcmd, LibusbTransfer.isIso, decide_eq_true_eq, hcount]
    have := toInt_of_nonneg hnonneg
    omega
  · have hiso : x.job.isIsoEp d = false := by
      rw [Job.isIsoEp, h.type_eq]
      simpa using htype
    rw [hcmd, decide_eq_false htype, LibusbTransfer.isIso, h.numIsoPackets.1 hiso]
    rfl

/-- The checks of an IN transfer. -/
theorem passes_in_iff (h : x.Made d) (hp : x.job.cmd.PacketsOk d) (hx : x.EndsLegally) (hin : x.job.isEpIn = true) :
    Passes (Debug.callback E x.transfer (Proxy.callbackOf x.job.cmd)) ↔ BringsData x.transfer := by
  obtain ⟨htype, hiso⟩ := h.isIso_eq hp
  have hcmd : x.job.cmd.isIn = true := (Job.isEpIn_eq hin).2.2.1
  have hfilled := h.filled hin
  have hdirection : x.transfer.endpoint &&& 0x80#8 = Debug.LIBUSB_ENDPOINT_IN := by
    obtain ⟨p, hmade, hj, hc⟩ := h.completes
    rw [hc.endpoint, Proxy.endpoint_eq_epAddress hmade.submitted, hj, epAddress_direction hcmd]
  have hqueue := passes_queueDataForHost (E := E) hdirection
  rw [BringsData, Proxy.callbackOf]
  by_cases hi : x.job.cmd.isIso = true
  · rw [hi] at hiso
    rw [hiso, if_pos rfl, dataSize_eq_iff h.packetsFit (hfilled.buffer.trans hfilled.length.symm)] at hqueue
    rw [if_pos hi, if_pos hcmd, if_pos (htype.mp hi)]
    simp only [Debug.callback]
    rw [passes_map, Debug.onInIsoTransferComplete, passes_check, and_iff_right hiso, hqueue]
  · have hni : x.transfer.isIso = false := by rw [hiso]; exact Bool.eq_false_iff.mpr hi
    have hnt : x.transfer.type ≠ .isochronous := fun hty => hi (htype.mpr hty)
    rw [hni, if_neg Bool.false_ne_true] at hqueue
    have hfits : x.transfer.actualLength ≤ x.transfer.buffer.length := by
      rw [hfilled.buffer]
      exact hfilled.actualLength
    rw [if_neg hi, if_pos hcmd, if_neg hnt]
    simp only [Debug.callback]
    rw [passes_map, Debug.onInTransferComplete, passes_check, passes_check, and_iff_right (hx.completed hnt)]
    exact and_iff_left (hqueue.mpr hfits)

/-- The checks of an OUT transfer all pass. -/
theorem passes_out (h : x.Made d) (hp : x.job.cmd.PacketsOk d) (hx : x.EndsLegally) (hout : x.job.isEpOut = true) :
    Passes (Debug.callback E x.transfer (Proxy.callbackOf x.job.cmd)) := by
  obtain ⟨htype, hiso⟩ := h.isIso_eq hp
  have hcmd : ¬x.job.cmd.isIn = true := by
    rw [(Job.isEpOut_eq hout).2.2.1]
    exact Bool.false_ne_true
  rw [Proxy.callbackOf, if_neg hcmd, if_neg hcmd]
  by_cases hi : x.job.cmd.isIso = true
  · rw [if_pos hi]
    simp only [Debug.callback]
    rw [passes_map, Debug.onOutIsoTransferComplete, Debug.isoDescriptors, bind_assoc, passes_check]
    exact ⟨hiso.trans hi, passes_ok _⟩
  · have hnt : x.transfer.type ≠ .isochronous := fun hty => hi (htype.mpr hty)
    rw [if_neg hi]
    simp only [Debug.callback]
    rw [passes_map, Debug.onOutTransferComplete, passes_check]
    exact ⟨hx.allSent hnt hout, passes_ok _⟩

/-- The checks of a completion. -/
theorem passes_completion_iff (h : x.Made d) (hp : x.job.cmd.PacketsOk d) (hx : x.EndsLegally) :
    Passes (Debug.onTransferCompletedImpl E x.transfer (Proxy.callbackOf x.job.cmd)) ↔
      (x.job.isEpIn = true → BringsData x.transfer) := by
  have hrep : ¬(x.transfer.status = .timedOut ∨ x.transfer.status = .cancelled) := by
    have := hx.reported
    simpa [Done.reported, not_or] using this
  rw [Debug.onTransferCompletedImpl, if_neg hrep, passes_map]
  by_cases hin : x.job.isEpIn = true
  · rw [passes_in_iff h hp hx hin, imp_iff_right hin]
  · have hout : x.job.isEpOut = true := by
      obtain ⟨p, hmade, hj, -⟩ := h.completes
      have hep := hmade.isEp
      rw [hj] at hep
      exact hep.resolve_left hin
    exact iff_of_true (passes_out h hp hx hout) fun hin' => absurd hin' hin

/-- Between the pulls of `send_data_to_host`. -/
theorem passes_pullInCommand_iff (cmd : Command) :
    Passes (Debug.pullInCommand cmd) ↔ 0 < cmd.transferBufferSize.toNat := by
  unfold Debug.pullInCommand Debug.check
  split
  · exact iff_of_true (passes_ok ()) (by assumption)
  · exact iff_of_false Bool.false_ne_true (by assumption)

/-- Where a command meets the block of its own transfer the last check passes. -/
theorem passes_sendDataToHost (h : x.Made d) (hin : x.job.isEpIn = true) :
    Passes (Debug.sendDataToHost x.job.cmd (queueDataForHost E x.transfer)) := by
  rw [Debug.sendDataToHost, passes_check, size_sendDataToHost]
  exact ⟨(h.filled hin).length_inBytes_le E, passes_ok _⟩

/-! ### Runs -/

/-- The commands of pending transfers have been received. -/
theorem pending_received (h : Run E ok d s) : ∀ p ∈ s.pending, p.job ∈ s.received := by
  refine h.invariant_of (I := fun s => ∀ p ∈ s.pending, p.job ∈ s.received)
    (fun _ hs j hj => mem_received_of_exec (j := j) hs hj) (fun p hp => nomatch hp) fun s a t hexec hs _ hst => ?_
  have hnew : ∀ {j : Job} {x : Option (Callback × LibusbTransfer)}, s.exec = .pulled j →
      ∀ p ∈ s.pending ++ pendingOf j x, p.job ∈ s.received := by
    intro j x hex p hp
    rcases List.mem_append.mp hp with hold | hnew
    · exact hs p hold
    · obtain ⟨_, -, rfl⟩ := List.mem_map.mp hnew
      exact hexec j (by rw [hex]; rfl)
  cases step_cases hst with
  | read => exact fun p hp => List.mem_append_left _ (hs p hp)
  | submitIn hex | submitOut hex => exact hnew hex
  | release | completeIn | completeOut => exact fun p hp => hs p (List.mem_of_mem_eraseIdx hp)
  | _ => exact hs

/-- Every transfer that has ended has called back. -/
theorem finished_reported (h : Run E LegalTraffic d s) : ∀ x ∈ s.finished, x.reported = true :=
  finished_run h fun _ ha hk _ => (ha.ends _ rfl _ hk).reported

theorem assertions_complete_iff (h : Run E LegalTraffic d s) {k : ℕ} {p : Pending} {transfer : LibusbTransfer}
    (ha : LegalTraffic s (.complete k transfer)) (hk : s.pending[k]? = some p) (hc : Completes p.transfer transfer) :
    AssertionsHold E s (.complete k transfer) ↔ Substantial s (.complete k transfer) := by
  have hmem := List.mem_of_getElem? hk
  have hmade := (held_run h).pending p hmem
  have hdone : Done.Made d ⟨p.job, transfer⟩ := ⟨p, hmade, rfl, hc⟩
  have hpackets : p.job.cmd.PacketsOk d := by
    refine packets_sent (h.mono fun _ _ ha => ha.packets) p.job (mem_sent_of_received (pending_received h p hmem)) ?_
    exact hmade.isEp.elim (fun hin => (Job.isEpIn_eq hin).1) fun hout => (Job.isEpOut_eq hout).1
  have hiff := passes_completion_iff (E := E) hdone hpackets (ha.ends (k, transfer) rfl p hk)
  simp only [AssertionsHold, Substantial, hk, Option.mem_def, Option.some.injEq, forall_eq']
  rwa [Proxy.callback_eq_callbackOf hmade.submitted]

/-- In a legal run the block is of the command's own transfer. -/
theorem assertions_sendData (h : Run E LegalTraffic d s) {ep : ℕ} {j : Job} {b : Block} {rep : Command}
    (hf : s.feeder ep = .data j b) (hst : step E s (.sendData ep) = some t)
    (ha : LegalTraffic s (.sendData ep)) (ht : t.produced = s.produced ++ [⟨j, some b, rep⟩]) :
    AssertionsHold E s (.sendData ep) := by
  have hat : j.At ep := (held_run h).feeder_at hf rfl
  have hfrom : b.From E d s.finished ep := (held_run h).feederData ep b (by rw [hf]; rfl)
  have hrun : Run E LegalTraffic d t := h.step ha hst
  have hown : b.done.job = j := by
    refine own_block (hrun.mono fun _ _ ha => ha.inSequence) (fun x hx _ => finished_reported hrun x hx)
      (mem_pairs.mpr ⟨⟨j, some b, rep⟩, ?_, rfl, rfl, hat.2⟩)
    rw [ht]
    exact List.mem_append_right _ List.mem_cons_self
  have hpass := passes_sendDataToHost (E := E) hfrom.made hfrom.isEpIn
  rw [hown, ← hfrom.data_eq] at hpass
  simp only [AssertionsHold, hf, Feeder.pulled?, Option.mem_def, Option.some.injEq, forall_eq']
  exact hpass

theorem assertions_step_iff (h : Run E LegalTraffic d s) (ha : LegalTraffic s a) (hst : step E s a = some t) :
    AssertionsHold E s a ↔ Substantial s a := by
  cases step_cases hst with
  | release hk hc | completeIn hk hc | completeOut hk hc => exact assertions_complete_iff h ha hk hc
  | pullInCommand => exact forall₂_congr fun j _ => passes_pullInCommand_iff j.cmd
  | sendData hf hrep => exact iff_of_true (assertions_sendData h hf hst ha rfl) trivial
  | _ => exact Iff.rfl

/-- **The assertions hold**, in a run of legal traffic, exactly as long as every IN
transfer brings data that was asked for, and a packet that failed brings none. -/
theorem assertions_hold_iff (E : Order) (d : Device) (acts : List Act) {t : State}
    (h : Runs.follow (step E) (State.init d) acts = some t)
    (hlegal : Runs.Meets (step E) LegalTraffic (State.init d) acts) :
    Runs.Meets (step E) (AssertionsHold E) (State.init d) acts ↔
      Runs.Meets (step E) Substantial (State.init d) acts :=
  Runs.Meets.congr acts h hlegal fun _ _ _ hu ha hst => assertions_step_iff hu ha hst

/-- Two bytes of a bulk IN submit, on their way to the host. -/
theorem assertions_hold_bulk :
    Runs.Meets (step .little) (AssertionsHold .little) (State.init (.mock [.bulk 0x81]))
      (fetch (.submit 1 USBIP_DIR_IN 1 2) ++
        [.submitIn, .pushIn, .complete 0 ⟨0x81, .bulk, .completed, 2, 2, [7, 8], []⟩] ++ feed 1 ++ deliver) := by
  have hsome : (Runs.follow (step .little) (State.init (.mock [.bulk 0x81]))
      (fetch (.submit 1 USBIP_DIR_IN 1 2) ++
        [.submitIn, .pushIn, .complete 0 ⟨0x81, .bulk, .completed, 2, 2, [7, 8], []⟩] ++
        feed 1 ++ deliver)).isSome = true := by decide +kernel
  obtain ⟨t, ht⟩ := Option.isSome_iff_exists.mp hsome
  exact (assertions_hold_iff .little _ _ ht (by decide +kernel)).mpr (by decide +kernel)

/-- A bulk IN submit of two bytes that is answered by a packet of none. -/
def zeroLengthPacket : List Act :=
  fetch (.submit 1 USBIP_DIR_IN 1 2) ++ [.submitIn, .pushIn, .complete 0 ⟨0x81, .bulk, .completed, 2, 0, [0, 0], []⟩]

/-- The packet is legal and fails a check, and so do a packet that failed with a byte, and
a submit that asks for nothing. -/
theorem assertions_zeroLength :
    Debug.onTransferCompletedImpl .little ⟨0x81, .bulk, .completed, 2, 0, [0, 0], []⟩ .inn = .error .someData ∧
    Debug.onTransferCompletedImpl .little ⟨0x81, .isochronous, .completed, 2, 0, [7, 0], [⟨2, 1, .error⟩]⟩ .inIso =
      .error .isoDataSize ∧
    Debug.pullInCommand (.submit 1 USBIP_DIR_IN 1 0) = .error .requestedData ∧
    ¬∀ acts, (Runs.follow (step .little) (State.init (.mock [.bulk 0x81])) acts).isSome = true →
      Runs.Meets (step .little) LegalTraffic (State.init (.mock [.bulk 0x81])) acts →
      Runs.Meets (step .little) (AssertionsHold .little) (State.init (.mock [.bulk 0x81])) acts := by
  refine ⟨by decide, by decide, by decide, fun h => ?_⟩
  have hholds := h zeroLengthPacket (by decide +kernel) (by decide +kernel)
  revert hholds
  decide +kernel

end Viu
