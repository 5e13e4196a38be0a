/-
# Pairing commands with data

An IN completion does not know its command. Per endpoint, commands wait in
`in_commands_` and blocks in `in_data_`, and a transfer thread pulls one of
each: a rendezvous, so the `k`-th reply is made of the `k`-th command and the
`k`-th block (`paired`). An unlink touches neither queue. What it costs is
the block of the reply it has discarded (`blocks_follow_commands`); without
unlinks, and with an endpoint's transfers completing in order, each command
gets its own transfer's data (`in_pairing`).
-/
import Viu.Unlink
import Viu.Contents

namespace Viu

open Bytes

variable {E : Order} {d : Device} {s t : State} {a : Act} {ok : State → Act → Prop}

/-- The command and the block of a reply from transfer thread `e`. -/
def Reply.pair? (e : ℕ) (r : Reply) : Option (Job × Block) :=
  match r.block with
  | some b => if r.job.cmd.ep.toNat = e then some (r.job, b) else none
  | none => none

theorem pair?_eq_some {e : ℕ} {r : Reply} {j : Job} {b : Block} :
    r.pair? e = some (j, b) ↔ r.block = some b ∧ r.job = j ∧ j.cmd.ep.toNat = e := by
  unfold Reply.pair?
  cases r.block with
  | none => simp
  | some c =>
    by_cases he : r.job.cmd.ep.toNat = e
    · simp only [he, ↓reduceIte, Option.some.injEq, Prod.mk.injEq]
      refine ⟨fun ⟨hj, hb⟩ => ⟨hb, hj, hj ▸ he⟩, fun ⟨hb, hj, _⟩ => ⟨hj, hb⟩⟩
    · simp only [he, ↓reduceIte, reduceCtorEq, false_iff]
      rintro ⟨-, rfl, h⟩
      exact he h

def State.pairs (s : State) (e : ℕ) : List (Job × Block) := s.produced.filterMap (Reply.pair? e)

theorem pairs_pushReply (s : State) (r : Reply) (e : ℕ) :
    (s.pushReply r).pairs e = s.pairs e ++ (r.pair? e).toList := by
  show (s.produced ++ [r]).filterMap _ = _
  rw [List.filterMap_append]
  cases h : r.pair? e <;> simp [State.pairs, h]

theorem pairs_pushReply_none (s : State) (j : Job) (rep : Command) (e : ℕ) :
    (s.pushReply ⟨j, none, rep⟩).pairs e = s.pairs e := by
  rw [pairs_pushReply]
  exact List.append_nil _

/-- Endpoint `e` is a rendezvous of commands and blocks. -/
def Paired (s : State) (e : ℕ) : Prop :=
  Fifo.Rendezvous (s.queued e) (s.blocks e) (s.pairs e) (s.feeder e).job? (s.feeder e).block? (s.inCommands e)
    (s.inData e)

theorem Paired.step (h : ∀ e, Paired s e) (hh : Held E d s) (hst : Step E s a t) (e : ℕ) : Paired t e := by
  have he := h e
  unfold Paired at he
  unfold Paired
  cases hst with
  | control | replyUnlink | completeOut =>
    rw [pairs_pushReply_none]
    exact he
  | @pushIn j hex =>
    by_cases hj : e = j.cmd.ep.toNat
    · subst hj
      simp only [Function.update_self]
      exact he.pushLeft j
    · simp only [Function.update_of_ne hj]
      exact he
  | @completeIn k p transfer ep data hk hc hcb =>
    by_cases hep : e = ep
    · subst hep
      simp only [State.pushData, Function.update_self]
      exact he.pushRight _
    · simp only [State.pushData, Function.update_of_ne hep]
      exact he
  | @pullInCommand ep j queue hf hq hep =>
    by_cases hep : e = ep
    · subst hep
      rw [hf, hq] at he
      simp only [Function.update_self]
      exact he.pullLeft
    · simp only [Function.update_of_ne hep]
      exact he
  | @pullInData ep j b queue hf hq =>
    have hjep := (hh.feeder_at hf rfl).2
    by_cases hep : e = ep
    · subst hep
      rw [hjep] at hq
      rw [hf, hq] at he
      simp only [hjep, Function.update_self]
      exact he.pullRight
    · simp only [hjep, Function.update_of_ne hep]
      exact he
  | @sendData ep j b rep hf hrep =>
    have hjep := (hh.feeder_at hf rfl).2
    rw [pairs_pushReply]
    by_cases hep : e = ep
    · subst hep
      have hp : Reply.pair? e ⟨j, some b, rep⟩ = some (j, b) := pair?_eq_some.mpr ⟨rfl, rfl, hjep⟩
      rw [hf] at he
      rw [hp]
      simp only [State.pushReply, Function.update_self]
      exact he.emit
    · have hp : Reply.pair? e ⟨j, some b, rep⟩ = none := by
        unfold Reply.pair?
        rw [hjep]
        exact if_neg (Ne.symm hep)
      rw [hp, Option.toList_none, List.append_nil]
      simp only [State.pushReply, Function.update_of_ne hep]
      exact he
  | send | read | pushCommand | pullCommand | submitIn | submitOut | insertUnlinked | release | pullReply |
    checkDrop | checkPass | write => exact he

theorem paired (h : Run E ok d s) (e : ℕ) : Paired s e := by
  refine h.invariant_of (I := fun s => ∀ e, Paired s e) (fun _ hs => held_run hs) (fun _ => Fifo.Rendezvous.nil)
    (fun _ _ _ hh hs _ hst e => Paired.step hs hh (step_cases hst) e) e

theorem mem_pairs {e : ℕ} {j : Job} {b : Block} : (j, b) ∈ s.pairs e ↔
    ∃ r ∈ s.produced, r.block = some b ∧ r.job = j ∧ j.cmd.ep.toNat = e := by
  simp only [State.pairs, List.mem_filterMap, pair?_eq_some]

/-! ### The blocks are the device's -/

/-- Not released without its callback. -/
def Done.reported (x : Done) : Bool := x.transfer.status ≠ .timedOut ∧ x.transfer.status ≠ .cancelled

/-- The blocks of endpoint `e` are its IN transfers that completed, in the order
of completion. -/
def BlocksOf (s : State) (e : ℕ) : Prop :=
  (s.blocks e).map (·.done) = s.finished.filter fun x => decide (x.job.At e) && x.reported

theorem BlocksOf.step (h : ∀ e, BlocksOf s e) (hh : Held E d s) (hst : Step E s a t) (e : ℕ) : BlocksOf t e := by
  have he := h e
  unfold BlocksOf at he ⊢
  cases hst with
  | @release k p transfer hk hc hcb =>
    have hr : Done.reported ⟨p.job, transfer⟩ = false := by
      rcases Proxy.not_reported_of_none hcb with hst | hst <;> simp [Done.reported, hst]
    simp only [List.filter_append, List.filter_cons, List.filter_nil, hr, Bool.and_false, Bool.false_eq_true,
      ↓reduceIte, List.append_nil]
    exact he
  | @completeOut k p transfer req rep hk hc hcb hrep =>
    have hat : ¬ p.job.At e := not_at_of_isEpOut ((hh.pending p (List.mem_of_getElem? hk)).isEpOut hcb) e
    simp only [State.pushReply, List.filter_append, List.filter_cons, List.filter_nil, hat, decide_false,
      Bool.false_and, Bool.false_eq_true, ↓reduceIte, List.append_nil]
    exact he
  | @completeIn k p transfer ep data hk hc hcb =>
    have hb : Block.From E d [⟨p.job, transfer⟩] ep ⟨⟨p.job, transfer⟩, data⟩ :=
      (hh.pending p (List.mem_of_getElem? hk)).data hc hcb List.mem_cons_self
    have hr : Done.reported ⟨p.job, transfer⟩ = true := by simpa [Done.reported] using hb.reported
    by_cases hep : e = ep
    · subst hep
      have hat : p.job.At e := ⟨hb.isEpIn, hb.ep_eq⟩
      simp only [State.pushData, Function.update_self, List.map_append, List.map_cons, List.map_nil, he,
        List.filter_append, List.filter_cons, List.filter_nil, hat, decide_true, hr, Bool.and_self, ↓reduceIte]
    · have hat : ¬ p.job.At e := fun hin => hep (hin.2.symm.trans hb.ep_eq)
      simp only [State.pushData, Function.update_of_ne hep, List.filter_append, List.filter_cons,
        List.filter_nil, hat, decide_false, Bool.false_and, Bool.false_eq_true, ↓reduceIte, List.append_nil]
      exact he
  | send | read | pushCommand | pullCommand | control | submitIn | pushIn | submitOut | insertUnlinked |
    replyUnlink | pullInCommand | pullInData | sendData | pullReply | checkDrop | checkPass | write => exact he

theorem blocksOf (h : Run E ok d s) (e : ℕ) : BlocksOf s e :=
  h.invariant_of (I := fun s => ∀ e, BlocksOf s e) (fun _ hs => held_run hs) (fun _ => rfl)
    (fun _ _ _ hh hs _ hst e => BlocksOf.step hs hh (step_cases hst) e) e

/-! ### What an unlink costs -/

/-- A reply made of a block comes from a transfer thread. -/
theorem from_block (h : Run E ok d s) {r : Reply} (hr : r ∈ s.produced) {b : Block} (hb : r.block = some b) :
    r.job.isEpIn = true ∧ b.From E d s.finished r.job.cmd.ep.toNat ∧
      queueReplyToHost E (sendDataToHost r.job.cmd b.data) = .ok r.rep := by
  cases (held_run h).produced r hr with
  | control => cases hb
  | unlink => cases hb
  | out => cases hb
  | inn hj hfrom hrep =>
    cases hb
    exact ⟨hj, hfrom, hrep⟩

/-- It is its block's. -/
theorem payload_of_block (h : Run E ok d s) {r : Reply} (hr : r ∈ s.produced) {b : Block} (hb : r.block = some b) :
    b.data = queueDataForHost E b.done.transfer ∧
      r.rep.payload = inBytes E b.done.transfer ++ if r.job.cmd.isIso then isoBytes E b.done.transfer else [] := by
  obtain ⟨hj, hfrom, hrep⟩ := from_block h hr hb
  obtain ⟨hs, -, hin, -⟩ := Job.isEpIn_eq hj
  rw [hfrom.data_eq] at hrep
  exact ⟨hfrom.data_eq, inn_payload hs hin hrep⟩

/-- It claims its block's data, whatever the transfer's status. -/
theorem actualLength_of_block (h : Run E ok d s) {r : Reply} (hr : r ∈ s.produced) {b : Block}
    (hb : r.block = some b) : r.rep.actualLength E = BitVec.ofNat 32 (inBytes E b.done.transfer).length := by
  obtain ⟨hj, hfrom, hrep⟩ := from_block h hr hb
  rw [reply_actualLength (Job.isEpIn_eq hj).1 hrep, hfrom.data_eq, size_sendDataToHost]

/-- Off the iso endpoints its payload is what the transfer brought. -/
theorem payload_bulk (h : Run E ok d s) {e : ℕ} (he : d.IsBulkOrInterruptIn e) {r : Reply} (hr : r ∈ s.produced)
    {b : Block} (hb : r.block = some b) (hep : r.job.cmd.ep.toNat = e) :
    r.rep.payload = b.done.transfer.buffer.take b.done.transfer.actualLength := by
  have hfrom := (from_block h hr hb).2.1
  have hat : b.done.job.At e := ⟨hfrom.isEpIn, hfrom.ep_eq.trans hep⟩
  have hnone : b.done.transfer.isIso = false := by
    unfold LibusbTransfer.isIso
    rw [hfrom.made.numIsoPackets.1 (isIsoEp_of_at he hat)]
    rfl
  rw [(payload_of_block h hr hb).2, inBytes, isoBytes, hnone]
  simp only [Bool.false_eq_true, ↓reduceIte, ite_self, List.append_nil]

/-- Of the IN data of endpoint `e`: the blocks are the device's completions, in
order; the `k`-th goes into the reply of the `k`-th submit, unlinked or not,
byte for byte; a reply is discarded only for an executed unlink of its number;
all others are written or on their way, in order of completion, none twice. -/
structure DataKept (s : State) (e : ℕ) : Prop where
  blocks : (s.blocks e).map (·.done) = s.finished.filter fun x => decide (x.job.At e) && x.reported
  waiting : s.blocks e = (s.pairs e).map Prod.snd ++ (s.feeder e).block?.toList ++ s.inData e
  paired : s.pairs e = ((s.queued e).zip (s.blocks e)).take (s.pairs e).length
  payload : ∀ r ∈ s.produced, ∀ b, r.block = some b → r.job.cmd.ep.toNat = e →
    r.rep.payload = b.done.transfer.buffer.take b.done.transfer.actualLength
  dropped : ∀ r ∈ s.dropped, ∃ u, s.Executed u ∧ u.cmd.unlinkSeqnum = r.job.cmd.seqnum
  kept : ∀ r ∈ s.produced, (∀ u, s.Executed u → u.cmd.unlinkSeqnum ≠ r.job.cmd.seqnum) →
    r ∈ s.log ∨ r ∈ s.replier.reply? ∨ r ∈ s.repliesQueue
  inOrder : (s.log.filterMap (Reply.pair? e)).Sublist ((s.queued e).zip (s.blocks e))

/-- **Unlinking and IN data**, in every run, on the bulk and interrupt endpoints:
an unlink costs the block paired with the submit it names, and no other. -/
theorem data_kept (h : Run E ok d s) {e : ℕ} (he : d.IsBulkOrInterruptIn e) : DataKept s e where
  blocks := blocksOf h e
  waiting := (paired h e).right_eq
  paired := (paired h e).pairs_eq_zip
  payload := fun _ hr _ hb hep => payload_bulk h he hr hb hep
  dropped := (fromUnlinks h).dropped
  kept := by
    intro r hr hnone
    rcases List.mem_append.mp ((pipeline_run h).perm.mem_iff.mpr hr) with hd | hk
    · obtain ⟨u, hu, hn⟩ := (fromUnlinks h).dropped r hd
      exact absurd hn (hnone u hu)
    · simpa [State.kept, or_assoc] using hk
  inOrder := by
    have hlog : s.log.Sublist s.kept := by
      rw [State.kept, List.append_assoc]
      exact List.sublist_append_left _ _
    have hsub : (s.log.filterMap (Reply.pair? e)).Sublist (s.pairs e) :=
      (hlog.trans (pipeline_run h).sublist).filterMap _
    rw [(paired h e).pairs_eq_zip] at hsub
    exact hsub.trans (List.take_sublist _ _)

/-- Two IN submits; the first is unlinked. -/
def unlinkFirst : List Act :=
  fetch (.submit 1 USBIP_DIR_IN 1 2) ++ [.submitIn, .pushIn] ++
  fetch (.submit 2 USBIP_DIR_IN 1 2) ++ [.submitIn, .pushIn] ++
  fetch (.unlink 3 1) ++ [.insertUnlinked, .replyUnlink] ++ deliver

/-- Then both transfers complete. -/
def completeBoth : List Act :=
  [.complete 0 ⟨0x81, .bulk, .completed, 2, 2, [7, 8], []⟩] ++ feed 1 ++ [.pullReply, .check] ++
  [.complete 0 ⟨0x81, .bulk, .completed, 2, 2, [9, 10], []⟩] ++ feed 1 ++ deliver

theorem data_kept_unlinkFirst :
    (State.after .little (.mock [.bulk 0x81]) (unlinkFirst ++ completeBoth)).frames.map (·.payload) = [[], [9, 10]] ∧
      DataKept (State.after .little (.mock [.bulk 0x81]) (unlinkFirst ++ completeBoth)) 1 :=
  have hrun : Run .little Runs.Any (.mock [.bulk 0x81]) (State.after .little (.mock [.bulk 0x81])
      (unlinkFirst ++ completeBoth)) := run_after (by decide +kernel) (by decide +kernel)
  ⟨by decide +kernel, data_kept hrun (.inl (by decide))⟩

/-- From `s` on, when the unlink `u` has been executed, no block that completes
later is thrown away with the reply of the submit it names. -/
def NoDataLost (E : Order) (s : State) : Prop :=
  ∀ t, Runs.Reach (fun s a t => step E s a = some t) FreshNumbers s t → ∀ u, s.Executed u → ∀ r ∈ t.dropped,
    u.cmd.unlinkSeqnum = r.job.cmd.seqnum → ∀ b ∈ r.block, b.done ∈ s.finished

/-- The first block, completed after the unlink, goes with the unlinked submit's
reply. -/
theorem data_lost : ¬ ∀ s, Run .little FreshNumbers (.mock [.bulk 0x81]) s → NoDataLost .little s := by
  intro h
  set s := State.after .little (.mock [.bulk 0x81]) unlinkFirst with hs
  have hrun : Run .little FreshNumbers (.mock [.bulk 0x81]) s := run_after (by decide +kernel) (by decide +kernel)
  have hreach : Runs.Reach (fun s a t => step .little s a = some t) FreshNumbers s (s.follow .little completeBoth) :=
    reach_follow (by decide +kernel) (by decide +kernel)
  have hnone : s.finished = [] := by decide +kernel
  have hex : s.Executed ⟨2, .unlink 3 1⟩ := ⟨rfl, .inr (by decide +kernel)⟩
  obtain ⟨r, hr, hn, hsome⟩ : ∃ r ∈ (s.follow .little completeBoth).dropped, (1 : U32) = r.job.cmd.seqnum ∧
      r.block.isSome = true := by decide +kernel
  obtain ⟨b, hb⟩ := Option.isSome_iff_exists.mp hsome
  have hmem := h s hrun _ hreach _ hex r hr hn b hb
  rw [hnone] at hmem
  cases hmem

end Viu
