/-
# What the queues hold

In every state of every run, each command, transfer, block and reply is
where the source's code can have put it: `Held E d s` for the runs on device
`d`. The four ways to `replies_queue_` (a control handler, an unlink, the
callback of an OUT transfer, a transfer thread) are the constructors of
`Reply.From`.
-/
import Viu.Step

namespace Viu

open Bytes

variable {E : Order} {d : Device} {s t : State} {a : Act} {ok : State → Act → Prop}

/-- The states of the runs on a fresh device, under any interleaving, whose
steps meet `ok`. -/
abbrev Run (E : Order) (ok : State → Act → Prop) (d : Device) : State → Prop :=
  Runs.Reach (fun s a t => step E s a = some t) ok (State.init d)

def Exec.job? : Exec → Option Job
  | .idle => none
  | .pulled j => some j
  | .submitted j => some j
  | .unlinking j _ => some j

def Feeder.job? : Feeder → Option Job
  | .idle => none
  | .command j => some j
  | .data j _ => some j

def Feeder.block? : Feeder → Option Block
  | .data _ b => some b
  | _ => none

def Replier.reply? : Replier → Option Reply
  | .idle => none
  | .pulled r => some r
  | .checked r => some r

/-- The transfer was made for the command. -/
structure Pending.Made (d : Device) (p : Pending) : Prop where
  submitted : Proxy.submitTransfer d p.job.cmd = .ok (some (some (p.callback, p.transfer)))
  isEp : p.job.isEpIn = true ∨ p.job.isEpOut = true

/-- The transfer was made for the command and completed. -/
structure Done.Made (d : Device) (x : Done) : Prop where
  completes : ∃ p : Pending, p.Made d ∧ p.job = x.job ∧ Completes p.transfer x.transfer

/-- The block came from a completed IN transfer of endpoint `ep`. -/
structure Block.From (E : Order) (d : Device) (finished : List Done) (ep : ℕ) (b : Block) : Prop where
  made : b.done.Made d
  mem : b.done ∈ finished
  isEpIn : b.done.job.isEpIn = true
  ep_eq : b.done.job.cmd.ep.toNat = ep
  data_eq : b.data = queueDataForHost E b.done.transfer
  reported : b.done.transfer.status ≠ .timedOut ∧ b.done.transfer.status ≠ .cancelled

/-- Where a reply comes from. -/
inductive Reply.From (E : Order) (d : Device) (finished : List Done) : Reply → Prop
  | control {j : Job} {io : Io} {dev dev' : Device} {req : QueueReplyRequest} {rep : Command}
      (tree : dev.descriptorTree = d.descriptorTree) (hs : j.cmd.isSubmit = true) (hep : j.cmd.ep = 0)
      (hc : Proxy.executeControlCommand E io dev j.cmd = .ok (req, dev'))
      (hrep : queueReplyToHost E req = .ok rep) : From E d finished ⟨j, none, rep⟩
  | unlink {j : Job} {status : I32} {rep : Command} (hu : j.cmd.isUnlink = true)
      (hrep : queueReplyToHost E (unlinkReply j.cmd status) = .ok rep) : From E d finished ⟨j, none, rep⟩
  | out {x : Done} {cb : Callback} {req : QueueReplyRequest} {rep : Command} (made : x.Made d)
      (mem : x ∈ finished) (hj : x.job.isEpOut = true) (hcb : cb = Proxy.callbackOf x.job.cmd)
      (hreq : Proxy.onTransferCompletedImpl E cb x.transfer = some (.reply req))
      (hrep : queueReplyToHost E req = .ok rep) : From E d finished ⟨x.job, none, rep⟩
  | inn {j : Job} {b : Block} {rep : Command} (hj : j.isEpIn = true)
      (hb : b.From E d finished j.cmd.ep.toNat)
      (hrep : queueReplyToHost E (sendDataToHost j.cmd b.data) = .ok rep) : From E d finished ⟨j, some b, rep⟩

/-- The command is an IN submit of endpoint `ep`. -/
def Job.At (ep : ℕ) (j : Job) : Prop := j.isEpIn = true ∧ j.cmd.ep.toNat = ep

instance (ep : ℕ) (j : Job) : Decidable (j.At ep) := by unfold Job.At; infer_instance

structure Held (E : Order) (d : Device) (s : State) : Prop where
  tree : s.dev.descriptorTree = d.descriptorTree
  submitted : ∀ j, s.exec = .submitted j → j.isEpIn = true
  unlinking : ∀ j status, s.exec = .unlinking j status → j.cmd.isUnlink = true
  inCommands : ∀ e, ∀ j ∈ s.inCommands e, j.At e
  feeder : ∀ e, ∀ j ∈ (s.feeder e).job?, j.At e
  inData : ∀ e, ∀ b ∈ s.inData e, b.From E d s.finished e
  feederData : ∀ e, ∀ b ∈ (s.feeder e).block?, b.From E d s.finished e
  pending : ∀ p ∈ s.pending, p.Made d
  produced : ∀ r ∈ s.produced, r.From E d s.finished

theorem Held.feeder_at {ep : ℕ} {f : Feeder} {j : Job} (h : Held E d s) (hf : s.feeder ep = f)
    (hj : f.job? = some j) : j.At ep := by
  rw [← hf] at hj
  exact h.feeder ep j hj

/-! ### The pieces -/

theorem Block.From.mono {finished finished' : List Done} {ep : ℕ} {b : Block}
    (h : b.From E d finished ep) (hf : ∀ x ∈ finished, x ∈ finished') : b.From E d finished' ep :=
  { h with mem := hf _ h.mem }

theorem Reply.From.mono {finished finished' : List Done} {r : Reply} (h : r.From E d finished)
    (hf : ∀ x ∈ finished, x ∈ finished') : r.From E d finished' := by
  cases h with
  | control tree hs hep hc hrep => exact .control tree hs hep hc hrep
  | unlink hu hrep => exact .unlink hu hrep
  | out made mem hj hcb hreq hrep => exact .out made (hf _ mem) hj hcb hreq hrep
  | inn hj hb hrep => exact .inn hj (hb.mono hf) hrep

theorem Job.isEpIn_eq {j : Job} (h : j.isEpIn = true) :
    j.cmd.isSubmit = true ∧ j.cmd.ep ≠ 0 ∧ j.cmd.isIn = true ∧ j.cmd.ep.toNat < maxCountIn := by
  simpa [isEpIn, isEp, and_assoc] using h

theorem Job.isEpOut_eq {j : Job} (h : j.isEpOut = true) :
    j.cmd.isSubmit = true ∧ j.cmd.ep ≠ 0 ∧ j.cmd.isIn = false ∧ j.cmd.isOut = true := by
  simpa [isEpOut, isEp, and_assoc] using h

theorem isEpIn_at {j : Job} (h : j.isEpIn = true) : j.At j.cmd.ep.toNat := ⟨h, rfl⟩

theorem Job.At.lt {j : Job} {e : ℕ} (h : j.At e) : e < maxCountIn := h.2 ▸ (Job.isEpIn_eq h.1).2.2.2

theorem not_at_of_isEpOut {j : Job} (h : j.isEpOut = true) (e : ℕ) : ¬ j.At e := fun hat => by
  have hin := (Job.isEpIn_eq hat.1).2.2.1
  rw [(Job.isEpOut_eq h).2.2.1] at hin
  cases hin

theorem not_at_of_control {j : Job} (h : j.cmd.ep = 0) (e : ℕ) : ¬ j.At e := fun hat =>
  (Job.isEpIn_eq hat.1).2.1 h

theorem not_at_of_isUnlink {j : Job} (h : j.cmd.isUnlink = true) (e : ℕ) : ¬ j.At e := fun hat => by
  have hs := (Job.isEpIn_eq hat.1).1
  rw [isSubmit_eq_false_of_isUnlink h] at hs
  cases hs

/-- `LIBUSB_ENDPOINT_ADDRESS_MASK` takes the direction bit off again. -/
theorem epAddress_and {cmd : Command} (hin : cmd.isIn = true) (hep : cmd.ep.toNat < maxCountIn) :
    (cmd.epAddress &&& 0x0f#8).toNat = cmd.ep.toNat := by
  have h16 : cmd.ep.toNat < 2 ^ 4 := hep
  have hbv : (cmd.epAddress &&& 0x0f#8) = cmd.ep.setWidth 8 := by
    apply BitVec.eq_of_getLsbD_eq
    intro i hi
    have hlt : 4 ≤ i → cmd.ep.getLsbD i = false := fun h4 =>
      Nat.testBit_lt_two_pow (lt_of_lt_of_le h16 (Nat.pow_le_pow_right (by decide) h4))
    simp only [Command.epAddress, hin, ↓reduceIte, BitVec.getLsbD_and, BitVec.getLsbD_setWidth, hi,
      decide_true, Bool.true_and, BitVec.getLsbD_or]
    have hi8 : i = 0 ∨ i = 1 ∨ i = 2 ∨ i = 3 ∨ i = 4 ∨ i = 5 ∨ i = 6 ∨ i = 7 := by omega
    rcases hi8 with rfl | rfl | rfl | rfl | rfl | rfl | rfl | rfl
    · simp
    · simp
    · simp
    · simp
    · rw [hlt (by omega)]; rfl
    · rw [hlt (by omega)]; rfl
    · rw [hlt (by omega)]; rfl
    · rw [hlt (by omega)]; rfl
  rw [hbv, BitVec.toNat_setWidth]
  omega

/-- Where the block of a completed transfer goes, and what is in it. -/
theorem Pending.Made.data {p : Pending} (hp : p.Made d) {transfer : LibusbTransfer} {ep : ℕ}
    {data : TransferData} (hc : Completes p.transfer transfer)
    (hcb : Proxy.onTransferCompletedImpl E p.callback transfer = some (.data ep data))
    {finished : List Done} (hf : ⟨p.job, transfer⟩ ∈ finished) :
    Block.From E d finished ep ⟨⟨p.job, transfer⟩, data⟩ := by
  obtain ⟨hst, hcall⟩ := Proxy.reported_of_some hcb
  rw [Proxy.callback_eq_callbackOf hp.submitted] at hcall
  rcases hp.isEp with hin | hout
  · obtain ⟨-, -, hdir, hep⟩ := Job.isEpIn_eq hin
    rw [Proxy.callback_isIn hdir] at hcall
    obtain ⟨rfl, rfl⟩ := Proxy.Completion.data.inj hcall
    refine ⟨⟨p, hp, rfl, hc⟩, hf, hin, ?_, rfl, hst⟩
    rw [hc.endpoint, Proxy.endpoint_eq_epAddress hp.submitted, epAddress_and hdir hep]
  · obtain ⟨-, -, hdir, -⟩ := Job.isEpOut_eq hout
    rw [Proxy.callback_not_isIn hdir] at hcall
    cases hcall

theorem Pending.Made.isEpOut {p : Pending} (hp : p.Made d) {transfer : LibusbTransfer}
    {req : QueueReplyRequest}
    (hcb : Proxy.onTransferCompletedImpl E p.callback transfer = some (.reply req)) :
    p.job.isEpOut = true := by
  rcases hp.isEp with hin | hout
  · have hcall := (Proxy.reported_of_some hcb).2
    rw [Proxy.callback_eq_callbackOf hp.submitted, Proxy.callback_isIn (Job.isEpIn_eq hin).2.2.1] at hcall
    cases hcall
  · exact hout

theorem pendingOf_made {j : Job} {p : Option (Callback × LibusbTransfer)}
    (hp : Proxy.submitTransfer d j.cmd = .ok (some p)) (hj : j.isEpIn = true ∨ j.isEpOut = true) :
    ∀ q ∈ pendingOf j p, q.Made d := by
  intro q hq
  obtain ⟨⟨cb, x⟩, hx, rfl⟩ := List.mem_map.mp hq
  rw [Option.mem_toList] at hx
  exact ⟨by rw [hp, hx], hj⟩

/-! ### Every step keeps it -/

theorem held_init : Held E d (State.init d) where
  tree := rfl
  submitted := fun j h => by cases h
  unlinking := fun j status h => by cases h
  inCommands := fun e j h => by cases h
  feeder := fun e j h => by cases h
  inData := fun e b h => by cases h
  feederData := fun e b h => by cases h
  pending := fun p h => by cases h
  produced := fun r h => by cases h

/-- A family that changes in one place keeps what holds of each place. -/
theorem update_keeps {β : Type*} {f : ℕ → β} {k : ℕ} {v : β} (Q : ℕ → β → Prop) (hf : ∀ e, Q e (f e))
    (hv : Q k v) : ∀ e, Q e (Function.update f k v e) :=
  (Function.forall_update_iff f Q).mpr ⟨hv, fun e _ => hf e⟩

theorem forall_mem_concat {β : Type*} {Q : β → Prop} {l : List β} {x : β} (hl : ∀ y ∈ l, Q y) (hx : Q x) :
    ∀ y ∈ l ++ [x], Q y := by
  intro y hy
  rcases List.mem_append.mp hy with hy | hy
  · exact hl y hy
  · rw [List.mem_singleton.mp hy]
    exact hx

/-- A transfer finishes; what comes of it is added to this. -/
theorem Held.finish (h : Held E d s) (k : ℕ) (x : Done) :
    Held E d { s with pending := s.pending.eraseIdx k, finished := s.finished ++ [x] } := by
  have hmono : ∀ y ∈ s.finished, y ∈ s.finished ++ [x] := fun y hy => List.mem_append_left _ hy
  exact { h with
    inData := fun e b hb => (h.inData e b hb).mono hmono
    feederData := fun e b hb => (h.feederData e b hb).mono hmono
    pending := fun p hp => h.pending p (List.mem_of_mem_eraseIdx hp)
    produced := fun r hr => (h.produced r hr).mono hmono }

/-! What a move puts in one place; the other places stay as they are. -/

theorem Held.idle (h : Held E d s) : Held E d { s with exec := .idle } :=
  { h with submitted := fun _ hj => (nomatch hj), unlinking := fun _ _ hj => (nomatch hj) }

theorem Held.pushReply (h : Held E d s) {r : Reply} (hr : r.From E d s.finished) : Held E d (s.pushReply r) :=
  { h with produced := forall_mem_concat h.produced hr }

theorem Held.addPending (h : Held E d s) {ps : List Pending} (hps : ∀ p ∈ ps, p.Made d) :
    Held E d { s with pending := s.pending ++ ps } :=
  { h with pending := fun p hp => (List.mem_append.mp hp).elim (h.pending p) (hps p) }

theorem Held.setInCommands (h : Held E d s) {ep : ℕ} {js : List Job} (hjs : ∀ i ∈ js, i.At ep) :
    Held E d { s with inCommands := Function.update s.inCommands ep js } :=
  { h with inCommands := update_keeps (fun e (js : List Job) => ∀ i ∈ js, i.At e) h.inCommands hjs }

theorem Held.setInData (h : Held E d s) {ep : ℕ} {bs : List Block} (hbs : ∀ b ∈ bs, b.From E d s.finished ep) :
    Held E d { s with inData := Function.update s.inData ep bs } :=
  { h with inData := update_keeps (fun e (bs : List Block) => ∀ b ∈ bs, b.From E d s.finished e) h.inData hbs }

theorem Held.setFeeder (h : Held E d s) {ep : ℕ} {f : Feeder} (hj : ∀ i ∈ f.job?, i.At ep)
    (hb : ∀ b ∈ f.block?, b.From E d s.finished ep) :
    Held E d { s with feeder := Function.update s.feeder ep f } :=
  { h with
    feeder := update_keeps (fun e (f : Feeder) => ∀ i ∈ f.job?, i.At e) h.feeder hj
    feederData := update_keeps (fun e (f : Feeder) => ∀ b ∈ f.block?, b.From E d s.finished e) h.feederData hb }

theorem Held.step (h : Held E d s) (hst : Step E s a t) : Held E d t := by
  cases hst with
  | send | read | pushCommand => exact { h with }
  | pullCommand he hq =>
    exact { h with submitted := fun j hj => (nomatch hj), unlinking := fun j st hj => (nomatch hj) }
  | @control io j req dev rep he hs hep hc hrep =>
    obtain ⟨-, htree⟩ := Proxy.executeControlCommand_keeps hc
    have hdev : Held E d { s with exec := .idle, dev := dev } := { h.idle with tree := htree.trans h.tree }
    exact hdev.pushReply (.control h.tree hs hep hc hrep)
  | @submitIn j p he hj hp =>
    rw [Proxy.submitTransfer_tree h.tree] at hp
    exact { h.addPending (pendingOf_made hp (.inl hj)) with
      submitted := fun i hi => by cases hi; exact hj
      unlinking := fun j st hj => (nomatch hj) }
  | @pushIn j he =>
    have hjob : j.At j.cmd.ep.toNat := ⟨h.submitted j he, rfl⟩
    exact { h.idle.setInCommands (forall_mem_concat (h.inCommands _) hjob) with }
  | @submitOut j p he hj hp =>
    rw [Proxy.submitTransfer_tree h.tree] at hp
    exact h.idle.addPending (pendingOf_made hp (.inr hj))
  | @insertUnlinked j he hu =>
    exact { h with
      submitted := fun i hi => (nomatch hi)
      unlinking := fun i st hi => by cases hi; exact hu }
  | @replyUnlink j status rep he hrep => exact h.idle.pushReply (.unlink (h.unlinking j status he) hrep)
  | release hk hc hcb => exact h.finish _ _
  | @completeIn k p transfer ep data hk hc hcb =>
    have hp := h.pending p (List.mem_of_getElem? hk)
    have hfin := h.finish k ⟨p.job, transfer⟩
    have hblock : Block.From E d (s.finished ++ [⟨p.job, transfer⟩]) ep ⟨⟨p.job, transfer⟩, data⟩ :=
      hp.data hc hcb (by simp)
    exact { hfin.setInData (forall_mem_concat (hfin.inData _) hblock) with }
  | @completeOut k p transfer req rep hk hc hcb hrep =>
    have hp := h.pending p (List.mem_of_getElem? hk)
    have hout : Reply.From E d (s.finished ++ [⟨p.job, transfer⟩]) ⟨p.job, none, rep⟩ :=
      .out (x := ⟨p.job, transfer⟩) ⟨p, hp, rfl, hc⟩ (by simp) (hp.isEpOut hcb)
        (Proxy.callback_eq_callbackOf hp.submitted) hcb hrep
    exact (h.finish k ⟨p.job, transfer⟩).pushReply hout
  | @pullInCommand ep j queue hf hq hep =>
    have hall := h.inCommands ep
    rw [hq] at hall
    have hqueue := h.setInCommands fun i hi => hall i (List.mem_cons_of_mem _ hi)
    exact hqueue.setFeeder (fun i hi => by cases hi; exact hall j List.mem_cons_self) fun b hb => (nomatch hb)
  | @pullInData ep j b queue hf hq =>
    have hj := h.feeder_at hf rfl
    have hall := h.inData j.cmd.ep.toNat
    rw [hq] at hall
    have hqueue := h.setInData fun c hc => hall c (List.mem_cons_of_mem _ hc)
    exact hqueue.setFeeder (fun i hi => by cases hi; exact hj)
      fun c hc => by cases hc; exact hj.2 ▸ hall b List.mem_cons_self
  | @sendData ep j b rep hf hrep =>
    have hj := h.feeder_at hf rfl
    have hb := h.feederData ep b (by rw [hf]; rfl)
    have hidle : Held E d { s with feeder := Function.update s.feeder ep .idle } :=
      h.setFeeder (fun i hi => (nomatch hi)) fun b hb => (nomatch hb)
    exact hidle.pushReply (.inn hj.1 (hj.2 ▸ hb) hrep)
  | pullReply | checkDrop | checkPass | write => exact { h with }

theorem held_run (h : Run E ok d s) : Held E d s :=
  h.invariant held_init fun _ _ _ hs _ hst => hs.step (step_cases hst)

/-! ### Runs given by their moves -/

/-- Where the moves lead, if all of them are possible. -/
def State.follow (E : Order) (s : State) (acts : List Act) : State := (Runs.follow (Viu.step E) s acts).getD s

def State.after (E : Order) (d : Device) (acts : List Act) : State := (State.init d).follow E acts

theorem reach_follow {acts : List Act} (h : (Runs.follow (step E) s acts).isSome = true)
    (hm : Runs.Meets (step E) ok s acts) :
    Runs.Reach (fun s a t => step E s a = some t) ok s (s.follow E acts) := by
  obtain ⟨t, ht⟩ := Option.isSome_iff_exists.mp h
  rw [State.follow, ht]
  exact Runs.reach_follow acts ht hm

theorem run_after {acts : List Act} (h : (Runs.follow (step E) (State.init d) acts).isSome = true)
    (hm : Runs.Meets (step E) ok (State.init d) acts) : Run E ok d (State.after E d acts) :=
  reach_follow h hm

/-- A bulk endpoint. -/
def Endpoint.bulk (address : U8) : Endpoint := ⟨⟨7, 5, address, 2, 512, 0, 0, 0⟩, []⟩

/-- An iso endpoint. -/
def Endpoint.iso (address : U8) : Endpoint := ⟨⟨7, 5, address, 1, 512, 0, 0, 0⟩, []⟩

/-- A mock device with one altsetting, of these endpoints. -/
def Device.mock (ep : List Endpoint) : Device where
  isMock := true
  descriptorTree := {
    deviceDescriptor := ⟨18, 1, 0x200, 0, 0, 0, 64, 0, 0, 0, 0, 0, 0, 1⟩
    deviceConfig := ⟨⟨9, 2, 18, 1, 1, 0, 0, 0⟩, [], [⟨[⟨⟨9, 4, 0, 0, 0, 0, 0, 0, 0⟩, [], ep⟩]⟩]⟩
    stringDescriptors := []
    bosDescriptor := ⟨⟨5, 15, 5, 0⟩, []⟩
    reportDescriptor := [] }
  altSettings := []

/-- A plugin without handlers, and a libusb that refuses. -/
def Io.silent : Io where
  onControlSetup := none
  onSetConfiguration := none
  onSetInterface := none
  libusbControlTransfer := ⟨fun _ data _ => (LIBUSB_ERROR_OTHER, data), fun _ _ _ => rfl⟩
  libusbGetConfiguration := (LIBUSB_SUCCESS, 1)
  countInterfaces := fun _ => 1
  libusbReleaseInterface := fun _ => LIBUSB_ERROR_OTHER
  libusbSetConfiguration := fun _ => LIBUSB_ERROR_OTHER
  libusbClaimInterface := fun _ => LIBUSB_ERROR_OTHER
  libusbSetInterfaceAltSetting := fun _ _ => LIBUSB_ERROR_OTHER

/-- An answer of one byte, as the buffer has it. -/
def BufferCall.oneByte : BufferCall := ⟨fun _ data _ => (1, data), fun _ _ _ => rfl⟩

/-- A CMD_SUBMIT without payload; its setup bytes are GET_STATUS. -/
def Command.submit (seqnum direction ep : U32) (length : I32) : Command :=
  ⟨⟨⟨USBIP_CMD_SUBMIT, seqnum, 0, direction, ep⟩, ⟨0, length, 0, 0, 0, Vector.replicate 8 0⟩⟩, []⟩

/-- A control CMD_SUBMIT with these setup bytes. -/
def Command.control (direction : U32) (setup : Vector U8 8) (length : I32) : Command :=
  ⟨⟨⟨USBIP_CMD_SUBMIT, 1, 0, direction, 0⟩, ⟨0, length, 0, 0, 0, setup⟩⟩, []⟩

def Command.unlink (seqnum target : U32) : Command :=
  ⟨⟨⟨USBIP_CMD_UNLINK, seqnum, 0, 0, 0⟩, ⟨target, 0, 0, 0, 0, Vector.replicate 8 0⟩⟩, []⟩

/-- A command on its way to the execution thread. -/
def fetch (c : Command) : List Act := [.send c, .read, .pushCommand, .pullCommand]

/-- A reply on its way to the socket. -/
def deliver : List Act := [.pullReply, .check, .write]

/-- A block of endpoint `ep` on its way to `replies_queue_`. -/
def feed (ep : ℕ) : List Act := [.pullInCommand ep, .pullInData ep, .sendData ep]

end Viu
