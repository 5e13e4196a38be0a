/-
# IN data in order

`queued_order`: an endpoint's IN submits are queued in the order read.
`owned`: where each endpoint's transfers end in the order submitted, the
commands behind those ended and those pending are its commands queued and
submitted, one for one. A transfer may end before its command is queued
(inside the submission); by position they still agree. Where all of them call
back, `paired` then gives every command its own transfer (`own_block`). What
the reply carries of it is all the transfer brought, unless packets that failed
shift the others' bytes (`in_pairing`).
-/
import Viu.IsoLayout
import Viu.Pairing

namespace Viu

open Bytes

variable {E : Order} {d : Device} {s t : State} {a : Act} {ok : State → Act → Prop}

/-- The commands of endpoint `e` in a list of commands. -/
def atEp (e : ℕ) (js : List Job) : List Job := js.filter fun j => decide (j.At e)

theorem atEp_append (e : ℕ) (l l' : List Job) : atEp e (l ++ l') = atEp e l ++ atEp e l' := List.filter_append _ _

theorem atEp_singleton {e : ℕ} {j : Job} (h : j.At e) : atEp e [j] = [j] :=
  List.filter_cons_of_pos (decide_eq_true h)

theorem atEp_singleton_of_not {e : ℕ} {j : Job} (h : ¬ j.At e) : atEp e [j] = [] :=
  List.filter_cons_of_neg (by simpa using h)

/-! ### Commands are queued in the order read -/

/-- The command the execution thread has not yet put anywhere. -/
def Exec.ahead? : Exec → Option Job
  | .pulled j => some j
  | .submitted j => some j
  | _ => none

def QueuedInOrder (s : State) (e : ℕ) : Prop :=
  atEp e s.received = s.queued e ++ atEp e (s.exec.ahead?.toList ++ s.commandsQueue ++ s.reader.toList)

theorem QueuedInOrder.step (h : ∀ e, QueuedInOrder s e) (hh : Held E d s) (hst : Step E s a t) (e : ℕ) :
    QueuedInOrder t e := by
  have he := h e
  unfold QueuedInOrder at he ⊢
  have hdone : ∀ {j : Job}, s.exec.ahead? = some j → ¬ j.At e →
      atEp e s.received = s.queued e ++ atEp e ([] ++ s.commandsQueue ++ s.reader.toList) := by
    intro j hj hat
    rw [he, hj, List.append_assoc, atEp_append, Option.toList_some, atEp_singleton_of_not hat]
    rfl
  cases hst with
  | @read j wire hr hw =>
    rw [hr, Option.toList_none, List.append_nil] at he
    simp only [atEp_append, he, Option.toList_some, List.append_assoc]
  | @pushCommand j hr =>
    rw [hr] at he
    simpa only [List.append_assoc, Option.toList_none, Option.toList_some, List.append_nil] using he
  | @pullCommand j queue hex hq =>
    rw [hex, hq] at he
    exact he
  | @control io j req dev rep hex hs hep hc hrep =>
    exact hdone (by rw [hex]; rfl) (not_at_of_control hep e)
  | @submitIn j p hex hj hp =>
    rw [hex] at he
    exact he
  | @pushIn j hex =>
    by_cases hep : e = j.cmd.ep.toNat
    · subst hep
      have hat : j.At j.cmd.ep.toNat := ⟨hh.submitted j hex, rfl⟩
      rw [he, hex]
      simp only [Function.update_self, Exec.ahead?, Option.toList_some, Option.toList_none, atEp_append,
        atEp_singleton hat, List.append_assoc]
      rfl
    · simp only [Function.update_of_ne hep]
      exact hdone (by rw [hex]; rfl) fun hat => hep hat.2.symm
  | @submitOut j p hex hj hp => exact hdone (by rw [hex]; rfl) (not_at_of_isEpOut hj e)
  | @insertUnlinked j hex hu => exact hdone (by rw [hex]; rfl) (not_at_of_isUnlink hu e)
  | @replyUnlink j status rep hex hrep =>
    rw [hex] at he
    exact he
  | send | release | completeIn | completeOut | pullInCommand | pullInData | sendData | pullReply | checkDrop |
    checkPass | write => exact he

theorem queued_order (h : Run E ok d s) (e : ℕ) : QueuedInOrder s e :=
  h.invariant_of (I := fun s => ∀ e, QueuedInOrder s e) (fun _ hs => held_run hs) (fun _ => rfl)
    (fun _ _ _ hh hs _ hst e => QueuedInOrder.step hs hh (step_cases hst) e) e

/-! ### The commands behind the data -/

def Act.completed? : Act → Option (ℕ × LibusbTransfer)
  | .complete k transfer => some (k, transfer)
  | _ => none

/-- An IN endpoint's transfers end in the order submitted, however they end. -/
def InSequence (s : State) (a : Act) : Prop :=
  ∀ kx ∈ a.completed?, ∀ p ∈ s.pending[kx.1]?, p.job.isEpIn = true →
    ∀ q ∈ s.pending.take kx.1, q.transfer.endpoint ≠ p.transfer.endpoint

instance (s : State) (a : Act) : Decidable (InSequence s a) := by unfold InSequence; infer_instance

/-- No unlink is sent; every transfer completes with COMPLETED, an endpoint's in
the order submitted. -/
def InOrder (s : State) (a : Act) : Prop :=
  (∀ c ∈ a.sent?, c.isUnlink = false) ∧
  ∀ kx ∈ a.completed?, kx.2.status = .completed ∧
    ∀ p ∈ s.pending[kx.1]?, ∀ q ∈ s.pending.take kx.1, q.transfer.endpoint ≠ p.transfer.endpoint

instance (s : State) (a : Act) : Decidable (InOrder s a) := by unfold InOrder; infer_instance

theorem InOrder.inSequence (h : InOrder s a) : InSequence s a := fun kx hkx p hp _ => (h.2 kx hkx).2 p hp

def Exec.submitted? : Exec → Option Job
  | .submitted j => some j
  | _ => none

/-- The commands behind endpoint `e`'s transfers that ended, then its pending
ones. -/
def State.owners (s : State) (e : ℕ) : List Job :=
  atEp e (s.finished.map (·.job)) ++ atEp e (s.pending.map (·.job))

/-- The commands of endpoint `e` queued, then the one submitted. -/
def State.commands (s : State) (e : ℕ) : List Job := s.queued e ++ atEp e s.exec.submitted?.toList

/-- An endpoint whose type is control gets no transfers. -/
def Owned (d : Device) (s : State) (e : ℕ) : Prop :=
  s.owners e = if d.epTransferType (inAddress e) = some .control then [] else s.commands e

theorem atEp_pendingOf (e : ℕ) (j : Job) (p : Option (Callback × LibusbTransfer)) :
    atEp e ((pendingOf j p).map (·.job)) = if p.isSome then atEp e [j] else [] := by
  cases p <;> rfl

/-- Whether a submit leaves a transfer is a matter of its endpoint's type. -/
theorem submitTransfer_isSome {j : Job} {e : ℕ} (hat : j.At e) {p : Option (Callback × LibusbTransfer)}
    (hp : Proxy.submitTransfer d j.cmd = .ok (some p)) :
    d.epTransferType (inAddress e) = some .control ↔ p = none := by
  cases p with
  | none =>
    refine ⟨fun _ => rfl, fun _ => ?_⟩
    rw [← epAddress_of_at hat]
    unfold Proxy.submitTransfer at hp
    split at hp
    · cases hp
    · assumption
    all_goals
      cases hinfo : Proxy.prepareTransfer j.cmd with
      | error err => rw [hinfo] at hp; cases hp
      | ok info =>
        rw [hinfo] at hp
        cases hf : fillIso info with
        | none => simp [Except.map, hf] at hp
        | some y => simp [Except.map, hf] at hp
  | some x =>
    refine ⟨fun hc => ?_, fun h => (nomatch h)⟩
    obtain ⟨info, type, -, -, htype, hfill⟩ := Proxy.submitTransfer_eq hp
    rw [epAddress_of_at hat, hc] at htype
    cases htype
    rcases hfill with ⟨h, -⟩ | ⟨h | h, -⟩ <;> cases h

/-- A transfer that ends goes from the first place among the pending to the last
among the ended. -/
theorem owners_complete (hh : Held E d s) {k : ℕ} {p : Pending} {transfer : LibusbTransfer}
    (hk : s.pending[k]? = some p) (ha : InSequence s (.complete k transfer)) (e : ℕ) :
    atEp e ((s.finished ++ [(⟨p.job, transfer⟩ : Done)]).map (·.job)) ++
      atEp e ((s.pending.eraseIdx k).map (·.job)) = s.owners e := by
  have hjob : (s.pending.map (·.job))[k]? = some p.job := by rw [List.getElem?_map, hk]; rfl
  rw [State.owners, List.map_append, atEp_append, List.append_assoc, ← List.eraseIdx_map]
  refine congrArg _ ?_
  by_cases hat : p.job.At e
  · -- nothing of this endpoint is pending before `p`
    have hfirst : ∀ j ∈ (s.pending.map (·.job)).take k, decide (j.At e) = false := by
      intro j hj
      rw [← List.map_take] at hj
      obtain ⟨q, hq, rfl⟩ := List.mem_map.mp hj
      have hne := ha (k, transfer) rfl p hk hat.1 q hq
      have hmade := fun q (hq : q ∈ s.pending) => Proxy.endpoint_eq_epAddress (hh.pending q hq).submitted
      rw [hmade q (List.mem_of_mem_take hq), hmade p (List.mem_of_getElem? hk), epAddress_of_at hat] at hne
      exact decide_eq_false fun hqat => hne (epAddress_of_at hqat)
    rw [List.map_singleton, atEp_singleton hat]
    exact (Fifo.filter_eraseIdx_of_first hjob (decide_eq_true hat) hfirst).symm
  · rw [List.map_singleton, atEp_singleton_of_not hat]
    exact Fifo.filter_eraseIdx_of_not hjob (decide_eq_false hat)

theorem Owned.step (h : ∀ e, Owned d s e) (hh : Held E d s) (ha : InSequence s a) (hst : Step E s a t) (e : ℕ) :
    Owned d t e := by
  have he := h e
  unfold Owned at he ⊢
  have hkeep : t.owners e = s.owners e → t.commands e = s.commands e →
      t.owners e = if d.epTransferType (inAddress e) = some .control then [] else t.commands e := fun h1 h2 => by
    rw [h1, h2, he]
  have hpulled : ∀ {j : Job}, s.exec = .pulled j → s.commands e = s.queued e := fun hex => by
    rw [State.commands, hex]
    exact List.append_nil _
  cases hst with
  | @pullCommand j queue hex hq => exact hkeep rfl (by simp [State.commands, hex, Exec.submitted?])
  | @control io j req dev rep hex hs hep hc hrep =>
    exact hkeep rfl (by rw [hpulled hex]; exact List.append_nil _)
  | @submitIn j p hex hj hp =>
    rw [Proxy.submitTransfer_tree hh.tree] at hp
    have hown : State.owners { s with exec := .submitted j, pending := s.pending ++ pendingOf j p } e =
        s.owners e ++ if p.isSome then atEp e [j] else [] := by
      simp only [State.owners, List.map_append, atEp_append, atEp_pendingOf, List.append_assoc]
    have hcmd : State.commands { s with exec := .submitted j, pending := s.pending ++ pendingOf j p } e =
        s.commands e ++ atEp e [j] := by
      rw [hpulled hex]
      rfl
    by_cases hat : j.At e
    · have hiff := submitTransfer_isSome hat hp
      rw [hown, hcmd, he]
      cases p with
      | none => simp only [hiff.mpr rfl, ↓reduceIte]; rfl
      | some x =>
        have hne : ¬ d.epTransferType (inAddress e) = some .control := fun hc => (nomatch hiff.mp hc)
        simp only [if_neg hne, Option.isSome_some, ↓reduceIte]
    · rw [atEp_singleton_of_not hat] at hown hcmd
      rw [ite_self, List.append_nil] at hown
      rw [List.append_nil] at hcmd
      exact hkeep hown hcmd
  | @pushIn j hex =>
    refine hkeep rfl ?_
    by_cases hep : e = j.cmd.ep.toNat
    · subst hep
      have hat : j.At j.cmd.ep.toNat := ⟨hh.submitted j hex, rfl⟩
      simp only [State.commands, hex, Exec.submitted?, Function.update_self, Option.toList_some, atEp_singleton hat]
      exact List.append_nil _
    · have hat : ¬ j.At e := fun hat => hep hat.2.symm
      simp only [State.commands, hex, Exec.submitted?, Function.update_of_ne hep, Option.toList_some,
        atEp_singleton_of_not hat]
      rfl
  | @submitOut j p hex hj hp =>
    refine hkeep ?_ ?_
    · simp only [State.owners, List.map_append, atEp_append, atEp_pendingOf,
        atEp_singleton_of_not (not_at_of_isEpOut hj e), ite_self, List.append_nil]
    · rw [hpulled hex]
      exact List.append_nil _
  | @insertUnlinked j hex hu => exact hkeep rfl (by rw [hpulled hex]; exact List.append_nil _)
  | @replyUnlink j status rep hex hrep =>
    exact hkeep rfl (by simp [State.commands, State.pushReply, hex, Exec.submitted?])
  | release hk | completeIn hk | completeOut hk => exact hkeep (owners_complete hh hk ha e) rfl
  | send | read | pushCommand | pullInCommand | pullInData | sendData | pullReply | checkDrop | checkPass | write =>
    exact he

theorem owned (h : Run E InSequence d s) (e : ℕ) : Owned d s e := by
  refine h.invariant_of (I := fun s => ∀ e, Owned d s e) (fun _ hs => held_run hs) (fun e => ?_)
    (fun _ _ _ hh hs ha hst e => Owned.step hs hh ha (step_cases hst) e) e
  unfold Owned
  split <;> rfl

/-! ### Every command gets its own data -/

theorem no_unlink_sent (h : Run E InOrder d s) : ∀ j ∈ s.sent, j.cmd.isUnlink = false := by
  refine h.invariant (I := fun s => ∀ j ∈ s.sent, j.cmd.isUnlink = false) (fun j hj => (nomatch hj))
    fun s a t hs ha hst j hj => ?_
  rcases sent_cases (step_cases hst) hj with hj | ⟨c, hc, rfl⟩
  · exact hs j hj
  · exact ha.1 c hc

/-- What is true of a transfer when it ends is true of all that have ended. -/
theorem finished_run {P : Done → Prop} (h : Run E ok d s)
    (hP : ∀ {s : State} {k : ℕ} {p : Pending} {transfer : LibusbTransfer}, Held E d s → ok s (.complete k transfer) →
      s.pending[k]? = some p → Completes p.transfer transfer → P ⟨p.job, transfer⟩) : ∀ x ∈ s.finished, P x := by
  refine h.invariant_of (I := fun s => ∀ x ∈ s.finished, P x) (fun _ hs => held_run hs) (fun x hx => (nomatch hx))
    fun s a t hh hs ha hst => ?_
  cases step_cases hst with
  | release hk hc | completeIn hk hc | completeOut hk hc => exact forall_mem_concat hs (hP hh ha hk hc)
  | _ => exact hs

theorem finished_completed (h : Run E InOrder d s) : ∀ x ∈ s.finished, x.transfer.status = .completed :=
  finished_run h fun _ ha _ _ => (ha.2 _ rfl).1

theorem reported_of_completed {x : Done} (h : x.transfer.status = .completed) : x.reported = true := by
  simp [Done.reported, h]

/-- Where every transfer of an endpoint calls back, its blocks are its commands',
one for one. -/
theorem blocks_jobs (h : Run E ok d s) {e : ℕ} (hrep : ∀ x ∈ s.finished, x.job.At e → x.reported = true) :
    (s.blocks e).map (·.done.job) = atEp e (s.finished.map (·.job)) := by
  calc (s.blocks e).map (·.done.job) = ((s.blocks e).map (·.done)).map (·.job) := by rw [List.map_map]; rfl
    _ = (s.finished.filter fun x => decide (x.job.At e) && x.reported).map (·.job) := by rw [blocksOf h e]
    _ = (s.finished.filter fun x => decide (x.job.At e)).map (·.job) := by
      refine congrArg _ (List.filter_congr fun x hx => ?_)
      by_cases hat : x.job.At e
      · rw [hrep x hx hat, Bool.and_true]
      · rw [decide_eq_false hat, Bool.false_and]
    _ = atEp e (s.finished.map (·.job)) := by rw [atEp, List.filter_map]; rfl

/-- The block paired with a command is then of the command's own transfer. -/
theorem own_block (h : Run E InSequence d s) {e : ℕ} (hrep : ∀ x ∈ s.finished, x.job.At e → x.reported = true)
    {j : Job} {b : Block} (hp : (j, b) ∈ s.pairs e) : b.done.job = j := by
  obtain ⟨i, hq, hb⟩ := (paired h e).getElem?_of_mem hp
  have hown := owned h e
  have howner : (s.owners e)[i]? = some b.done.job := by
    have hlt : i < ((s.blocks e).map (·.done.job)).length := by
      rw [List.length_map]
      exact (List.getElem?_eq_some_iff.mp hb).1
    rw [State.owners, ← blocks_jobs h hrep, List.getElem?_append_left hlt, List.getElem?_map, hb]
    rfl
  have hcmd : (s.commands e)[i]? = some j := by
    rw [State.commands, List.getElem?_append_left (List.getElem?_eq_some_iff.mp hq).1, hq]
  unfold Owned at hown
  split at hown
  · rw [hown] at howner
    cases howner
  · rw [hown, hcmd] at howner
    exact (Option.some.inj howner).symm

/-- A reply to an IN submit comes from its endpoint's transfer thread. -/
theorem pair_of_at (h : Run E ok d s) {r : Reply} (hr : r ∈ s.produced) {e : ℕ} (hat : r.job.At e) :
    ∃ b, r.pair? e = some (r.job, b) := by
  cases (held_run h).produced r hr with
  | control tree hs hep => exact absurd hat (not_at_of_control hep e)
  | unlink hu => exact absurd hat (not_at_of_isUnlink hu e)
  | out made mem hj => exact absurd hat (not_at_of_isEpOut hj e)
  | inn hj hb hrep => exact ⟨_, pair?_eq_some.mpr ⟨rfl, rfl, hat.2⟩⟩

theorem at_of_pair (h : Run E ok d s) {r : Reply} (hr : r ∈ s.produced) {e : ℕ} {p : Job × Block}
    (hp : r.pair? e = some p) : r.job.At e := by
  obtain ⟨hb, hj, he⟩ := pair?_eq_some.mp hp
  rw [← hj] at he
  exact ⟨(from_block h hr hb).1, he⟩

/-- The IN submits answered on an endpoint are those paired. -/
theorem atEp_produced (h : Run E ok d s) (e : ℕ) :
    atEp e (s.produced.map (·.job)) = (s.pairs e).map Prod.fst := by
  have hall : ∀ l : List Reply, (∀ r ∈ l, r ∈ s.produced) →
      atEp e (l.map (·.job)) = (l.filterMap (Reply.pair? e)).map Prod.fst := by
    intro l
    induction l with
    | nil => exact fun _ => rfl
    | cons r l ih =>
      intro hl
      have hr := hl r List.mem_cons_self
      have ih := ih fun q hq => hl q (List.mem_cons_of_mem _ hq)
      by_cases hat : r.job.At e
      · obtain ⟨b, hb⟩ := pair_of_at h hr hat
        rw [List.filterMap_cons_some hb, List.map_cons, List.map_cons, ← ih]
        exact List.filter_cons_of_pos (decide_eq_true hat)
      · have hnone : r.pair? e = none := by
          cases hp : r.pair? e with
          | none => rfl
          | some p => exact absurd (at_of_pair h hr hp) hat
        rw [List.filterMap_cons_none hnone, List.map_cons, ← ih]
        exact List.filter_cons_of_neg (by simpa using hat)
  exact hall s.produced fun _ hr => hr

/-- The bytes of a transfer: of an iso transfer each packet's, from the packet's
own place in the buffer. -/
def LibusbTransfer.Brought (x : LibusbTransfer) (data : List U8) : Prop :=
  if x.isIso then Slots.Packed (·.length) (·.actualLength) x.buffer x.isoPacketDesc data
  else data = x.buffer.take x.actualLength

/-- The descriptors tell the packets' places and lengths. -/
structure LibusbTransfer.Described (x : LibusbTransfer) (descriptors : List U8) : Prop where
  count : descriptors.length = 16 * x.numIsoPackets
  sent : ∀ i iso, x.isoPacketDesc[i]? = some iso →
    isoWord descriptors i 0 = offsetOf (x.isoPacketDesc.take i) ∧ isoWord descriptors i 2 = iso.actualLength

/-- The reply carries what the transfer brought, no more than the command has room
for, and descriptors if the command is iso. -/
def Carries (E : Order) (x : Done) (rep : Command) : Prop :=
  ∃ data descriptors, rep.payload = data ++ descriptors ∧ x.transfer.Brought data ∧
    (if x.job.cmd.isIso then x.transfer.Described descriptors else descriptors = []) ∧
    (rep.actualLength E).toNat = data.length ∧ data.length ≤ x.job.cmd.transferBufferSize.toNat

/-- The failed packets of an IN transfer do no harm. -/
def PacketsHarmless (s : State) (a : Act) : Prop :=
  ∀ kx ∈ a.completed?, ∀ p ∈ s.pending[kx.1]?, p.job.isEpIn = true → FailuresHarmless kx.2.isoPacketDesc

instance (packets : List LibusbIsoPacketDescriptor) : Decidable (FailuresHarmless packets) := by
  unfold FailuresHarmless Slots.InPlace
  infer_instance

instance (s : State) (a : Act) : Decidable (PacketsHarmless s a) := by unfold PacketsHarmless; infer_instance

theorem finished_harmless (h : Run E PacketsHarmless d s) :
    ∀ x ∈ s.finished, x.job.isEpIn = true → FailuresHarmless x.transfer.isoPacketDesc :=
  finished_run h fun _ ha hk _ hin => ha _ rfl _ hk hin

theorem brought_inBytes {x : Done} (hx : x.Made d) (hin : x.job.isEpIn = true)
    (h : FailuresHarmless x.transfer.isoPacketDesc) : x.transfer.Brought (inBytes E x.transfer) := by
  have hfill := hx.filled hin
  unfold LibusbTransfer.Brought
  by_cases hiso : x.transfer.isIso = true
  · rw [if_pos hiso]
    exact packed_inBytes hiso (hfill.buffer.trans hfill.length.symm) hx.packetsFit h
  · rw [if_neg hiso, inBytes, if_neg hiso]

theorem described_isoBytes {x : Done} (hx : x.Made d) (hin : x.job.isEpIn = true) :
    x.transfer.Described (isoBytes E x.transfer) where
  count := length_isoBytes E x.transfer
  sent := by
    intro i iso hi
    have hfill := hx.filled hin
    have hiso : x.transfer.isIso = true := by
      have hlt := (List.getElem?_eq_some_iff.mp hi).1
      exact decide_eq_true (Nat.ne_of_gt (Nat.zero_lt_of_lt hlt))
    exact isoBytes_sent hiso hx.packetsFit (by rw [hfill.length]; exact hfill.size) hi

/-- The reply of a block carries what the block's transfer brought. -/
theorem carries_of_block (h : Run E ok d s) {r : Reply} (hr : r ∈ s.produced) {b : Block} (hb : r.block = some b)
    (hown : b.done.job = r.job) (hp : FailuresHarmless b.done.transfer.isoPacketDesc) : Carries E b.done r.rep := by
  obtain ⟨-, hfrom, -⟩ := from_block h hr hb
  have hfill := hfrom.made.filled hfrom.isEpIn
  have hfits := hfill.length_inBytes_le E
  have hsize := hfill.size
  refine ⟨inBytes E b.done.transfer, if r.job.cmd.isIso then isoBytes E b.done.transfer else [],
    (payload_of_block h hr hb).2, brought_inBytes hfrom.made hfrom.isEpIn hp, ?_, ?_, hfits⟩
  · rw [hown]
    split
    · exact described_isoBytes hfrom.made hfrom.isEpIn
    · rfl
  · rw [actualLength_of_block h hr hb, BitVec.toNat_ofNat]
    exact Nat.mod_eq_of_lt (by omega)

/-- Every IN submit answered has its own transfer's bytes, and an endpoint's
replies are written in the order of its commands. -/
structure InPaired (E : Order) (d : Device) (s : State) : Prop where
  own : ∀ r ∈ s.log, r.job.isEpIn = true → ∃ x ∈ s.finished, x.Made d ∧ x.job = r.job ∧ Carries E x r.rep
  inOrder : ∀ e, atEp e (s.log.map (·.job)) <+: atEp e s.received

/-- **IN pairing**, in every run without unlinks in which every transfer
completes, an endpoint's in the order submitted, and no packet that failed
shifts the bytes behind it. -/
theorem in_pairing (h : Run E (fun s a => InOrder s a ∧ PacketsHarmless s a) d s) : InPaired E d s where
  own := by
    intro r hr hin
    have hord : Run E InOrder d s := h.mono fun _ _ ha => ha.1
    have hprod := mem_produced_of_kept h (mem_kept_of_log hr)
    obtain ⟨b, hb⟩ := pair_of_at h hprod (isEpIn_at hin)
    obtain ⟨hblock, -, -⟩ := pair?_eq_some.mp hb
    have hown : b.done.job = r.job := own_block (hord.mono fun _ _ => InOrder.inSequence)
      (fun x hx _ => reported_of_completed (finished_completed hord x hx))
      (mem_pairs.mpr ⟨r, hprod, hblock, rfl, rfl⟩)
    obtain ⟨-, hfrom, -⟩ := from_block h hprod hblock
    have hharmless := finished_harmless (h.mono fun _ _ ha => ha.2) b.done hfrom.mem hfrom.isEpIn
    exact ⟨b.done, hfrom.mem, hfrom.made, hown, carries_of_block h hprod hblock hown hharmless⟩
  inOrder := by
    intro e
    have hdrop := dropped_eq_nil h (no_unlink_sent (h.mono fun _ _ ha => ha.1))
    have hpipe := pipeline_run h
    have hkept : s.kept = s.produced := by
      refine hpipe.sublist.eq_of_length ?_
      have := hpipe.perm.length_eq
      rwa [hdrop, List.nil_append] at this
    have hlog : s.log <+: s.produced := by
      rw [← hkept, State.kept, List.append_assoc]
      exact List.prefix_append _ _
    calc atEp e (s.log.map Reply.job) <+: atEp e (s.produced.map Reply.job) := (hlog.map _).filter _
      _ = (s.pairs e).map Prod.fst := atEp_produced h e
      _ <+: s.queued e := (paired h e).map_fst_isPrefix
      _ <+: atEp e s.received := by
        rw [queued_order h e]
        exact List.prefix_append _ _

/-- Two IN submits; the first transfer completes inside the submission. -/
def synchronous : List Act :=
  fetch (.submit 1 USBIP_DIR_IN 1 2) ++
  [.submitIn, .complete 0 ⟨0x81, .bulk, .completed, 2, 2, [7, 8], []⟩, .pushIn] ++
  fetch (.submit 2 USBIP_DIR_IN 1 2) ++ [.submitIn, .pushIn] ++
  [.complete 0 ⟨0x81, .bulk, .completed, 2, 1, [9, 0], []⟩] ++ feed 1 ++ feed 1 ++ deliver ++ deliver

theorem in_pairing_synchronous :
    (State.after .little (.mock [.bulk 0x81]) synchronous).frames.map (·.payload) = [[7, 8], [9]] ∧
      InPaired .little (.mock [.bulk 0x81]) (State.after .little (.mock [.bulk 0x81]) synchronous) :=
  ⟨by decide +kernel, in_pairing (run_after (by decide +kernel) (by decide +kernel))⟩

/-- An iso IN submit of two packets, the first of which fails. -/
def firstPacketFails : List Act :=
  fetch (.isoIn 4 2) ++ [.submitIn, .pushIn, .complete 0 firstFailed] ++ feed 1 ++ deliver

/-- The bytes of the second packet are read from the first's place. -/
theorem in_pairing_shifted :
    (State.after .little (.mock [.iso 0x81]) firstPacketFails).frames.map (·.payload.take 2) = [[0, 0]] ∧
      ¬ ∀ s, Run .little InOrder (.mock [.iso 0x81]) s → InPaired .little (.mock [.iso 0x81]) s := by
  refine ⟨by decide +kernel, fun h => ?_⟩
  set s := State.after .little (.mock [.iso 0x81]) firstPacketFails with hs
  have hrun : Run .little InOrder (.mock [.iso 0x81]) s := run_after (by decide +kernel) (by decide +kernel)
  obtain ⟨r, hr, hin, hzero⟩ : ∃ r ∈ s.log, r.job.isEpIn = true ∧ r.rep.payload[0]? = some 0 := by decide +kernel
  have htransfer : ∀ x ∈ s.finished, x.transfer = firstFailed := by decide +kernel
  obtain ⟨x, hx, -, -, data, descriptors, hpayload, hbrought, -⟩ := (h s hrun).own r hr hin
  rw [htransfer x hx] at hbrought
  have hpacked : Slots.Packed (fun iso : LibusbIsoPacketDescriptor => iso.length) (·.actualLength) firstFailed.buffer
      firstFailed.isoPacketDesc data := hbrought
  have hdata : data = [7, 8] := hpacked.eq_gather
  rw [hpayload, hdata] at hzero
  have hseven : (7 : U8) = 0 := Option.some.inj hzero
  exact absurd hseven (by decide)

end Viu
