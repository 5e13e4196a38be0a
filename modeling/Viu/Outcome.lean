/-
# The outcome of a transfer

What the host learns of how a bulk or interrupt transfer ended. No handler
reads `transfer->status`: every reply of an endpoint submit has status 0
(`status_eq_zero`). A transfer that timed out or was cancelled is released
without its callback; of an OUT submit nothing is then said at all, and an IN
submit stays in `in_commands_` for the next block. An OUT submit that names
packets is answered with what its packets sent, none off the iso endpoints. So
the replies are right exactly while every transfer ends in COMPLETED and no such
submit has sent anything (`outcome_reported_iff`).

That a reply is made at all is a matter of progress: `settles` runs the
threads behind an IN reply until they wait.
-/
import Viu.InOrder

namespace Viu

open Bytes Finset

variable {E : Order} {d : Device} {s t : State} {a : Act} {ok : State → Act → Prop} {x : Done}

/-! ### The transfer threads come to rest -/

/-- The moves between the submission of an IN command and its reply. -/
def Act.isPairing : Act → Bool
  | .pushIn => true
  | .pullInCommand _ => true
  | .pullInData _ => true
  | .sendData _ => true
  | _ => false

/-- None of them is left: each of the threads waits for another. -/
def Settled (E : Order) (s : State) : Prop := ∀ a : Act, a.isPairing = true → step E s a = none

/-- `t` follows `s` by such moves. -/
abbrev Pairs (E : Order) (s t : State) : Prop :=
  Runs.Reach (fun s a t => step E s a = some t) (fun _ a => a.isPairing = true) s t

def Feeder.left : Feeder → ℕ
  | .idle => 0
  | .command _ => 2
  | .data _ _ => 1

/-- How many such moves there are still. -/
def State.backlog (s : State) : ℕ :=
  4 * s.exec.submitted?.toList.length + ∑ e ∈ range maxCountIn, 3 * (s.inCommands e).length +
    ∑ e ∈ range maxCountIn, (s.feeder e).left

theorem backlog_lt (hh : Held E d s) (ha : a.isPairing = true) (hst : Step E s a t) : t.backlog < s.backlog := by
  cases hst with
  | @pushIn j hex =>
    have hsum := Fifo.sum_update s.inCommands (fun js => 3 * js.length) (s.inCommands j.cmd.ep.toNat ++ [j])
      (Job.isEpIn_eq (hh.submitted j hex)).2.2.2
    simp only [List.length_append, List.length_singleton] at hsum
    simp only [State.backlog, hex, Exec.submitted?, Option.toList, List.length_nil, List.length_singleton]
    omega
  | @pullInCommand ep j queue hf hq hep =>
    have h1 := Fifo.sum_update s.inCommands (fun js => 3 * js.length) queue hep
    have h2 := Fifo.sum_update s.feeder Feeder.left (.command j) hep
    rw [hf] at h2
    change _ + 0 = _ + 2 at h2
    simp only [hq, List.length_cons] at h1
    simp only [State.backlog]
    omega
  | @pullInData ep j b queue hf hq =>
    have hep := (hh.feeder_at hf rfl).lt
    have h2 := Fifo.sum_update s.feeder Feeder.left (.data j b) hep
    rw [hf] at h2
    change _ + 2 = _ + 1 at h2
    simp only [State.backlog]
    omega
  | @sendData ep j b rep hf hrep =>
    have hep := (hh.feeder_at hf rfl).lt
    have h2 := Fifo.sum_update s.feeder Feeder.left .idle hep
    rw [hf] at h2
    change _ + 1 = _ + 0 at h2
    simp only [State.backlog, State.pushReply]
    omega
  | _ => cases ha

/-- The threads come to rest. -/
theorem settles (h : Run E ok d s) : ∃ t, Pairs E s t ∧ Settled E t := by
  have hmove : ∀ s a t, Held E d s → a.isPairing = true → step E s a = some t → t.backlog < s.backlog :=
    fun s a t hh ha hst => backlog_lt hh ha (step_cases hst)
  obtain ⟨t, ht, hrest⟩ := Runs.exists_rest State.backlog (fun s a t hh _ hst => hh.step (step_cases hst)) hmove
    (held_run h)
  refine ⟨t, ht, fun a ha => ?_⟩
  cases hs : step E t a with
  | none => rfl
  | some u => exact absurd hs (hrest a u ha)

theorem Pairs.run (ht : Pairs E s t) (h : Run E InSequence d s) : Run E InSequence d t := by
  refine h.trans (ht.mono fun s a ha kx hkx => ?_)
  cases a with
  | complete k transfer => cases ha
  | _ => cases hkx

/-- No transfer ends meanwhile. -/
theorem Pairs.finished (ht : Pairs E s t) : t.finished = s.finished := by
  refine ht.invariant (I := fun t => t.finished = s.finished) rfl fun u a v hu ha hst => ?_
  cases step_cases hst with
  | release | completeIn | completeOut => cases ha
  | _ => exact hu

/-- At rest the commands of an endpoint are paired with its blocks as far as
both go. -/
theorem Settled.pairs (hset : Settled E s) (h : Run E ok d s) {e : ℕ} (hep : e < maxCountIn) :
    s.pairs e = (s.queued e).zip (s.blocks e) := by
  have hpaired := paired h e
  unfold Paired at hpaired
  cases hf : s.feeder e with
  | idle =>
    rw [hf] at hpaired
    cases hq : s.inCommands e with
    | nil =>
      rw [hq] at hpaired
      exact hpaired.pairs_eq_of_waiting (.inl ⟨rfl, rfl⟩)
    | cons j queue =>
      have hstep := hset (.pullInCommand e) rfl
      simp [step, hf, hq, hep] at hstep
  | command j =>
    rw [hf] at hpaired
    have hjep := ((held_run h).feeder e j (by rw [hf]; rfl)).2
    cases hq : s.inData e with
    | nil =>
      rw [hq] at hpaired
      exact hpaired.pairs_eq_of_waiting (.inr rfl)
    | cons b queue =>
      have hstep := hset (.pullInData e) rfl
      simp [step, hf, hjep, hq] at hstep
  | data j b =>
    have hj := ((held_run h).feeder e j (by rw [hf]; rfl)).1
    have hstep := hset (.sendData e) rfl
    have hrep : queueReplyToHost E (sendDataToHost j.cmd b.data) = .ok _ :=
      queueReplyToHost_submit E (Job.isEpIn_eq hj).1
    simp [step, hf, hrep] at hstep

theorem Settled.commands (hset : Settled E s) (e : ℕ) : s.commands e = s.queued e := by
  cases hex : s.exec with
  | submitted j =>
    have hstep := hset .pushIn rfl
    simp [step, hex] at hstep
  | _ => rw [State.commands, hex]; exact List.append_nil _

/-! ### The transfers that ended -/

theorem finished_made (h : Run E ok d s) : ∀ x ∈ s.finished, x.Made d :=
  finished_run h fun hh _ hk hc => ⟨_, hh.pending _ (List.mem_of_getElem? hk), rfl, hc⟩

theorem Done.Made.isEp (h : x.Made d) : x.job.isEpIn = true ∨ x.job.isEpOut = true := by
  obtain ⟨p, hp, hj, -⟩ := h.completes
  rw [← hj]
  exact hp.isEp

/-- A transfer is of its endpoint's type. -/
theorem Done.Made.type_eq (h : x.Made d) : d.epTransferType x.job.cmd.epAddress = some x.transfer.type := by
  obtain ⟨p, hp, hj, hc⟩ := h.completes
  obtain ⟨info, type, -, -, htype, hfill⟩ := Proxy.submitTransfer_eq hp.submitted
  rw [← hj, htype, hc.type]
  rcases hfill with ⟨rfl, hf⟩ | ⟨-, hf⟩
  · unfold fillIso at hf
    dsimp only at hf
    split at hf
    · cases hf
    · rw [← Option.some.inj hf]
      rfl
  · rw [hf]
    rfl

/-- The transfer is of a bulk or an interrupt endpoint. -/
def Done.BulkOrInterrupt (x : Done) : Prop := x.transfer.type = .bulk ∨ x.transfer.type = .interrupt

theorem Done.Made.not_isIso (h : x.Made d) (hb : x.BulkOrInterrupt) : x.transfer.isIso = false := by
  have hiso : x.job.isIsoEp d = false := by
    unfold Job.isIsoEp
    rw [h.type_eq]
    rcases hb with hb | hb <;> rw [hb] <;> rfl
  unfold LibusbTransfer.isIso
  rw [h.numIsoPackets.1 hiso]
  rfl

/-- The transfers of one endpoint are all of one type. -/
theorem Done.Made.bulkOrInterrupt {y : Done} {e : ℕ} (hx : x.Made d) (hy : y.Made d) (hxe : x.job.At e)
    (hye : y.job.At e) (hb : x.BulkOrInterrupt) : y.BulkOrInterrupt := by
  have htype : some y.transfer.type = some x.transfer.type := by
    rw [← hx.type_eq, ← hy.type_eq, epAddress_of_at hxe, epAddress_of_at hye]
  unfold Done.BulkOrInterrupt
  rwa [Option.some.inj htype]

/-! ### Replies to endpoint submits -/

/-- An OUT transfer that calls back has been answered. -/
def OutAnswered (E : Order) (s : State) : Prop :=
  ∀ x ∈ s.finished, x.job.isEpOut = true → x.reported = true →
    ∃ rep, (⟨x.job, none, rep⟩ : Reply) ∈ s.produced ∧
      queueReplyToHost E (Proxy.outRequest E x.job.cmd x.transfer) = .ok rep

theorem OutAnswered.step (h : OutAnswered E s) (hh : Held E d s) (hst : Step E s a t) : OutAnswered E t := by
  have hprod := produced_mono hst
  have hold : ∀ x ∈ s.finished, x.job.isEpOut = true → x.reported = true →
      ∃ rep, (⟨x.job, none, rep⟩ : Reply) ∈ t.produced ∧
        queueReplyToHost E (Proxy.outRequest E x.job.cmd x.transfer) = .ok rep := by
    intro x hx hout hrep
    obtain ⟨rep, hmem, hq⟩ := h x hx hout hrep
    exact ⟨rep, hprod _ hmem, hq⟩
  cases hst with
  | @release k p transfer hk hc hcb =>
    refine forall_mem_concat hold fun _ hrep => ?_
    rcases Proxy.not_reported_of_none hcb with hst | hst <;> simp [Done.reported, hst] at hrep
  | @completeIn k p transfer ep data hk hc hcb =>
    have hb : Block.From E d [⟨p.job, transfer⟩] ep ⟨⟨p.job, transfer⟩, data⟩ :=
      (hh.pending p (List.mem_of_getElem? hk)).data hc hcb List.mem_cons_self
    exact forall_mem_concat hold fun hout _ => absurd ⟨hb.isEpIn, rfl⟩ (not_at_of_isEpOut hout _)
  | @completeOut k p transfer req rep hk hc hcb hrep =>
    refine forall_mem_concat hold fun hout _ => ⟨rep, List.mem_append_right _ List.mem_cons_self, ?_⟩
    rw [Proxy.callback_eq_callbackOf (hh.pending p (List.mem_of_getElem? hk)).submitted] at hcb
    rwa [Proxy.outRequest_of_some (Job.isEpOut_eq hout).2.2.1 hcb]
  | _ => exact hold

theorem out_answered (h : Run E ok d s) : OutAnswered E s :=
  h.invariant_of (I := OutAnswered E) (fun _ hs => held_run hs) (fun _ hx => (nomatch hx))
    (fun _ _ _ hh hs _ hst => hs.step hh (step_cases hst))

/-- No handler of an endpoint transfer sets the status. -/
theorem status_eq_zero (h : Run E ok d s) {r : Reply} (hr : r ∈ s.produced)
    (hj : r.job.isEpIn = true ∨ r.job.isEpOut = true) : r.rep.status E = 0 := by
  have hep : r.job.cmd.isSubmit = true ∧ r.job.cmd.ep ≠ 0 := by
    rcases hj with hj | hj
    · exact ⟨(Job.isEpIn_eq hj).1, (Job.isEpIn_eq hj).2.1⟩
    · exact ⟨(Job.isEpOut_eq hj).1, (Job.isEpOut_eq hj).2.1⟩
  cases (held_run h).produced r hr with
  | control tree hs h0 => exact absurd h0 hep.2
  | unlink hu =>
    rw [isSubmit_eq_false_of_isUnlink hu] at hep
    cases hep.1
  | @out x cb req rep made mem hout hcb hreq hrep =>
    subst hcb
    obtain rfl := Proxy.outRequest_of_some (Job.isEpOut_eq hout).2.2.1 hreq
    obtain ⟨hcmd, hst⟩ := Proxy.outRequest_keeps E x.job.cmd x.transfer
    rw [reply_status (by rw [hcmd]; exact hep.1) hrep, hst]
  | inn hin hb hrep => exact reply_status hep.1 hrep

/-- A command is replied to at most once. -/
theorem countP_produced_le_one (h : Run E ok d s) (j : Job) : s.produced.countP (fun r => decide (r.job = j)) ≤ 1 := by
  have hc := conserved h fun i => decide (i = j)
  have hnd : s.received.Nodup := (List.nodup_append.mp (sent_nodup h)).1
  have h1 : s.received.countP (fun i => decide (i = j)) ≤ 1 := by
    refine le_trans (le_of_eq (List.countP_congr fun i _ => ?_)) (List.nodup_iff_count_le_one.mp hnd j)
    simp
  unfold Conserved at hc
  change _ + s.produced.countP (fun r => decide (r.job = j)) ≤ _ at hc
  omega

theorem filter_eq_singleton {β : Type*} {P : β → Bool} {l : List β} {y : β} (hy : y ∈ l) (hP : P y = true)
    (hle : l.countP P ≤ 1) : l.filter P = [y] := by
  have hmem : y ∈ l.filter P := List.mem_filter.mpr ⟨hy, hP⟩
  rw [List.countP_eq_length_filter] at hle
  obtain ⟨z, hz⟩ := List.length_eq_one_iff.mp (le_antisymm hle (List.length_pos_of_mem hmem))
  rw [hz] at hmem ⊢
  rw [List.mem_singleton.mp hmem]

/-! ### What the host learns -/

/-- Exactly one RET_SUBMIT is made for the submit, with status 0 just when the
transfer completed and a negative one otherwise, and with the transfer's
length. -/
def Reported (E : Order) (s : State) (x : Done) : Prop :=
  ∃ r : Reply, s.produced.filter (fun r => decide (r.job = x.job)) = [r] ∧
    isRetSubmit E x.job.cmd.seqnum r.rep = true ∧
    (r.rep.status E = 0 ↔ x.transfer.status = .completed) ∧
    (x.transfer.status ≠ .completed → (r.rep.status E).toInt < 0) ∧
    r.rep.actualLength E = BitVec.ofNat 32 x.transfer.actualLength

/-- The transfer completed; if the submit is OUT and names packets, with nothing
sent: `actual_length` is 0. -/
structure Done.EndsWell (x : Done) : Prop where
  completed : x.transfer.status = .completed
  unsent : x.job.isEpOut = true → x.job.cmd.isIso = true → BitVec.ofNat 32 x.transfer.actualLength = 0#32

/-- The reply says 0. -/
theorem completed_of_reported (h : Run E ok d s) (hx : x ∈ s.finished) (hr : Reported E s x) :
    x.transfer.status = .completed := by
  obtain ⟨r, hone, -, hzero, -, -⟩ := hr
  have hmem : r ∈ s.produced.filter fun r => decide (r.job = x.job) := by rw [hone]; exact List.mem_cons_self
  obtain ⟨hprod, hjob⟩ := List.mem_filter.mp hmem
  refine hzero.mp (status_eq_zero h hprod ?_)
  rw [of_decide_eq_true hjob]
  exact (finished_made h x hx).isEp

/-- The reply of an OUT transfer off the iso endpoints says how much was sent, or
0 if the submit names packets. -/
theorem actualLength_out {rep : Command} (hx : x.Made d) (hout : x.job.isEpOut = true) (hb : x.BulkOrInterrupt)
    (hq : queueReplyToHost E (Proxy.outRequest E x.job.cmd x.transfer) = .ok rep) :
    rep.actualLength E = if x.job.cmd.isIso then 0 else BitVec.ofNat 32 x.transfer.actualLength := by
  have hs : (Proxy.outRequest E x.job.cmd x.transfer).cmd.isSubmit = true := by
    rw [(Proxy.outRequest_keeps E _ _).1]
    exact (Job.isEpOut_eq hout).1
  rw [reply_actualLength hs hq, Proxy.outRequest]
  by_cases hiso : x.job.cmd.isIso = true
  · have hnone : x.transfer.isoPacketDesc = [] := by
      have := hx.not_isIso hb
      simpa [LibusbTransfer.isIso, LibusbTransfer.numIsoPackets] using this
    rw [if_pos hiso, if_pos hiso]
    simp [Proxy.onOutIsoTransferComplete, isoDescriptors, hnone]
  · rw [if_neg hiso, if_neg hiso]
    rfl

/-- An OUT submit that names packets and is answered right has sent nothing. -/
theorem unsent_of_reported (h : Run E ok d s) (hx : x ∈ s.finished) (hb : x.BulkOrInterrupt) (hr : Reported E s x)
    (hout : x.job.isEpOut = true) (hiso : x.job.cmd.isIso = true) :
    BitVec.ofNat 32 x.transfer.actualLength = 0#32 := by
  have hrep := reported_of_completed (completed_of_reported h hx hr)
  obtain ⟨rep, hmem, hq⟩ := out_answered h x hx hout hrep
  obtain ⟨r, hone, -, -, -, hlen⟩ := hr
  have hin : (⟨x.job, none, rep⟩ : Reply) ∈ s.produced.filter fun r => decide (r.job = x.job) :=
    List.mem_filter.mpr ⟨hmem, decide_eq_true rfl⟩
  rw [hone] at hin
  rw [← hlen, ← List.mem_singleton.mp hin, actualLength_out (finished_made h x hx) hout hb hq, if_pos hiso]
  rfl

theorem reported_of_produced (h : Run E ok d s) {r : Reply} (hr : r ∈ s.produced) (hj : r.job = x.job)
    (hx : x ∈ s.finished) (hc : x.transfer.status = .completed)
    (hlen : r.rep.actualLength E = BitVec.ofNat 32 x.transfer.actualLength) : Reported E s x := by
  have hep := (finished_made h x hx).isEp
  have hsubmit : r.job.cmd.isSubmit = true := by
    rw [hj]
    exact hep.elim (fun hin => (Job.isEpIn_eq hin).1) fun hout => (Job.isEpOut_eq hout).1
  have hzero : r.rep.status E = 0 := status_eq_zero h hr (by rw [hj]; exact hep)
  refine ⟨r, filter_eq_singleton hr (decide_eq_true hj) (countP_produced_le_one h x.job), ?_,
    iff_of_true hzero hc, fun hn => absurd hc hn, hlen⟩
  exact (((held_run h).produced r hr).isRetSubmit_iff _).mpr ⟨hsubmit, by rw [hj]⟩

/-- An OUT submit is answered when its transfer completes. -/
theorem reported_out (h : Run E ok d s) (hx : x ∈ s.finished) (hout : x.job.isEpOut = true) (hb : x.BulkOrInterrupt)
    (hw : x.EndsWell) : Reported E s x := by
  obtain ⟨rep, hmem, hq⟩ := out_answered h x hx hout (reported_of_completed hw.completed)
  refine reported_of_produced h hmem rfl hx hw.completed ?_
  rw [actualLength_out (finished_made h x hx) hout hb hq]
  split
  · exact (hw.unsent hout (by assumption)).symm
  · rfl

/-- At rest the block of an IN transfer has been paired with its own command, if
no transfer of its endpoint has been lost. -/
theorem paired_of_finished (h : Run E InSequence d s) (hset : Settled E s) (hx : x ∈ s.finished) {e : ℕ}
    (hat : x.job.At e) (hrep : ∀ y ∈ s.finished, y.job.At e → y.reported = true) :
    ∃ b, (x.job, b) ∈ s.pairs e ∧ b.done = x := by
  have hblock : x ∈ (s.blocks e).map (·.done) := by
    rw [blocksOf h e, List.mem_filter, decide_eq_true hat, hrep x hx hat]
    exact ⟨hx, rfl⟩
  obtain ⟨b, hb, rfl⟩ := List.mem_map.mp hblock
  obtain ⟨i, hi⟩ := List.mem_iff_getElem?.mp hb
  have howner : (s.owners e)[i]? = some b.done.job := by
    have hjob : ((s.blocks e).map (·.done.job))[i]? = some b.done.job := by rw [List.getElem?_map, hi]; rfl
    rw [State.owners, ← blocks_jobs h hrep, List.getElem?_append_left (List.getElem?_eq_some_iff.mp hjob).1, hjob]
  have hqueued : (s.queued e)[i]? = some b.done.job := by
    have hown := owned h e
    unfold Owned at hown
    split at hown
    · rw [hown] at howner
      cases howner
    · rwa [hown, hset.commands e] at howner
  refine ⟨b, ?_, rfl⟩
  rw [hset.pairs h hat.lt]
  exact List.mem_iff_getElem?.mpr ⟨i, List.getElem?_zip_eq_some.mpr ⟨hqueued, hi⟩⟩

/-- An IN submit is answered once the threads rest, if no transfer of its endpoint
has been lost. -/
theorem reported_in (h : Run E InSequence d s) (hset : Settled E s) (hx : x ∈ s.finished) {e : ℕ} (hat : x.job.At e)
    (hb : x.BulkOrInterrupt) (hc : x.transfer.status = .completed)
    (hrep : ∀ y ∈ s.finished, y.job.At e → y.reported = true) : Reported E s x := by
  obtain ⟨b, hpair, rfl⟩ := paired_of_finished h hset hx hat hrep
  obtain ⟨r, hprod, hblock, hjob, -⟩ := mem_pairs.mp hpair
  have hmade := finished_made h _ hx
  refine reported_of_produced h hprod hjob hx hc ?_
  rw [actualLength_of_block h hprod hblock, (hmade.filled hat.1).length_inBytes E (hmade.not_isIso hb)]

/-- **The outcome of a transfer**, in every run in which an endpoint's transfers
end in the order submitted: the threads come to rest, and at rest every
outcome has been reported just when every transfer has ended well. -/
theorem outcome_reported_iff (h : Run E InSequence d s) : (∃ t, Pairs E s t ∧ Settled E t) ∧
    ∀ t, Pairs E s t → Settled E t →
      ((∀ x ∈ s.finished, x.BulkOrInterrupt → Reported E t x) ↔
        ∀ x ∈ s.finished, x.BulkOrInterrupt → x.EndsWell) := by
  refine ⟨settles h, fun t ht hset => ?_⟩
  have hrun := ht.run h
  rw [← ht.finished]
  refine ⟨fun hall x hx hb => ?_, fun hall x hx hb => ?_⟩
  · have hr := hall x hx hb
    exact ⟨completed_of_reported hrun hx hr, unsent_of_reported hrun hx hb hr⟩
  · have hw := hall x hx hb
    have hmade := finished_made hrun
    rcases (hmade x hx).isEp with hin | hout
    · refine reported_in hrun hset hx (isEpIn_at hin) hb hw.completed fun y hy hat => ?_
      have hyb := (hmade x hx).bulkOrInterrupt (hmade y hy) (isEpIn_at hin) hat hb
      exact reported_of_completed (hall y hy hyb).completed
    · exact reported_out hrun hx hout hb hw

/-- The first of two IN transfers times out, the second completes. -/
def timedOutFirst : List Act :=
  fetch (.submit 1 USBIP_DIR_IN 1 2) ++ [.submitIn, .pushIn] ++
  fetch (.submit 2 USBIP_DIR_IN 1 2) ++ [.submitIn, .pushIn] ++
  [.complete 0 ⟨0x81, .bulk, .timedOut, 2, 0, [0, 0], []⟩,
    .complete 0 ⟨0x81, .bulk, .completed, 2, 2, [9, 10], []⟩] ++ feed 1 ++ deliver

/-- The second's data answers the first. -/
theorem outcome_misreported :
    (State.after .little (.mock [.bulk 0x81]) timedOutFirst).log.map
      (fun r => (r.job.id, r.rep.status .little, r.rep.payload)) = [(0, 0, [9, 10])] ∧
    ¬ ∀ s t, Run .little InSequence (.mock [.bulk 0x81]) s → Pairs .little s t → Settled .little t →
      ∀ x ∈ s.finished, x.BulkOrInterrupt → Reported .little t x := by
  refine ⟨by decide +kernel, fun h => ?_⟩
  set s := State.after .little (.mock [.bulk 0x81]) timedOutFirst with hs
  have hrun : Run .little InSequence (.mock [.bulk 0x81]) s := run_after (by decide +kernel) (by decide +kernel)
  obtain ⟨x, hx, hbulk, hout⟩ : ∃ x ∈ s.finished, x.transfer.type = .bulk ∧ x.transfer.status = .timedOut := by
    decide +kernel
  obtain ⟨t, ht, hset⟩ := settles hrun
  have hc := completed_of_reported (ht.run hrun) (by rwa [ht.finished]) (h s t hrun ht hset x hx (.inl hbulk))
  rw [hout] at hc
  cases hc

theorem outcome_reported_synchronous :
    ∃ t, Pairs .little (State.after .little (.mock [.bulk 0x81]) synchronous) t ∧ Settled .little t ∧
      ∀ x ∈ (State.after .little (.mock [.bulk 0x81]) synchronous).finished, x.BulkOrInterrupt →
        Reported .little t x := by
  set s := State.after .little (.mock [.bulk 0x81]) synchronous with hs
  have hrun : Run .little InSequence (.mock [.bulk 0x81]) s := run_after (by decide +kernel) (by decide +kernel)
  have hc : ∀ x ∈ s.finished, x.transfer.status = .completed ∧ x.job.isEpOut = false := by decide +kernel
  obtain ⟨⟨t, ht, hset⟩, hiff⟩ := outcome_reported_iff hrun
  refine ⟨t, ht, hset, (hiff t ht hset).mpr fun x hx _ => ⟨(hc x hx).1, fun hout => ?_⟩⟩
  rw [(hc x hx).2] at hout
  cases hout

end Viu
