/-
# What a step does

`Step E s a t` lists, move by move, what `step` needs and where it leads;
`step_cases` reads it off the function. The invariants are proved by cases on
it and never unfold `step`.
-/
import Viu.Basic

namespace Viu

open Bytes

variable {E : Order} {s t : State} {a : Act}

inductive Step (E : Order) (s : State) : Act → State → Prop
  | send (c : Command) : Step E s (.send c) { s with wire := s.wire ++ [⟨s.sent.length, c⟩] }
  | read {j : Job} {wire : List Job} (hr : s.reader = none) (hw : s.wire = j :: wire) :
      Step E s .read { s with wire := wire, reader := some j, received := s.received ++ [j] }
  | pushCommand {j : Job} (hr : s.reader = some j) :
      Step E s .pushCommand { s with reader := none, commandsQueue := s.commandsQueue ++ [j] }
  | pullCommand {j : Job} {queue : List Job} (he : s.exec = .idle) (hq : s.commandsQueue = j :: queue) :
      Step E s .pullCommand { s with exec := .pulled j, commandsQueue := queue }
  | control {io : Io} {j : Job} {req : QueueReplyRequest} {dev : Device} {rep : Command}
      (he : s.exec = .pulled j) (hs : j.cmd.isSubmit = true) (hep : j.cmd.ep = 0)
      (hc : Proxy.executeControlCommand E io s.dev j.cmd = .ok (req, dev))
      (hrep : queueReplyToHost E req = .ok rep) :
      Step E s (.control io) (State.pushReply { s with exec := .idle, dev := dev } ⟨j, none, rep⟩)
  | submitIn {j : Job} {p : Option (Callback × LibusbTransfer)} (he : s.exec = .pulled j)
      (hj : j.isEpIn = true) (hp : Proxy.submitTransfer s.dev j.cmd = .ok (some p)) :
      Step E s .submitIn { s with exec := .submitted j, pending := s.pending ++ pendingOf j p }
  | pushIn {j : Job} (he : s.exec = .submitted j) :
      Step E s .pushIn { s with
        exec := .idle
        inCommands := Function.update s.inCommands j.cmd.ep.toNat (s.inCommands j.cmd.ep.toNat ++ [j])
        queued := Function.update s.queued j.cmd.ep.toNat (s.queued j.cmd.ep.toNat ++ [j]) }
  | submitOut {j : Job} {p : Option (Callback × LibusbTransfer)} (he : s.exec = .pulled j)
      (hj : j.isEpOut = true) (hp : Proxy.submitTransfer s.dev j.cmd = .ok (some p)) :
      Step E s .submitOut { s with exec := .idle, pending := s.pending ++ pendingOf j p }
  | insertUnlinked {j : Job} (he : s.exec = .pulled j) (hu : j.cmd.isUnlink = true) :
      Step E s .insertUnlinked { s with
        exec := .unlinking j (if j.cmd.unlinkSeqnum ∈ s.unlinkedSeqnums then 0 else unlinkedStatus)
        unlinkedSeqnums := insert j.cmd.unlinkSeqnum s.unlinkedSeqnums }
  | replyUnlink {j : Job} {status : I32} {rep : Command} (he : s.exec = .unlinking j status)
      (hrep : queueReplyToHost E (unlinkReply j.cmd status) = .ok rep) :
      Step E s .replyUnlink (State.pushReply { s with exec := .idle } ⟨j, none, rep⟩)
  | release {k : ℕ} {p : Pending} {transfer : LibusbTransfer} (hk : s.pending[k]? = some p)
      (hc : Completes p.transfer transfer)
      (hcb : Proxy.onTransferCompletedImpl E p.callback transfer = none) :
      Step E s (.complete k transfer) { s with
        pending := s.pending.eraseIdx k
        finished := s.finished ++ [⟨p.job, transfer⟩] }
  | completeIn {k : ℕ} {p : Pending} {transfer : LibusbTransfer} {ep : ℕ} {data : TransferData}
      (hk : s.pending[k]? = some p) (hc : Completes p.transfer transfer)
      (hcb : Proxy.onTransferCompletedImpl E p.callback transfer = some (.data ep data)) :
      Step E s (.complete k transfer) (State.pushData { s with
        pending := s.pending.eraseIdx k
        finished := s.finished ++ [⟨p.job, transfer⟩] } ep ⟨⟨p.job, transfer⟩, data⟩)
  | completeOut {k : ℕ} {p : Pending} {transfer : LibusbTransfer} {req : QueueReplyRequest} {rep : Command}
      (hk : s.pending[k]? = some p) (hc : Completes p.transfer transfer)
      (hcb : Proxy.onTransferCompletedImpl E p.callback transfer = some (.reply req))
      (hrep : queueReplyToHost E req = .ok rep) :
      Step E s (.complete k transfer) (State.pushReply { s with
        pending := s.pending.eraseIdx k
        finished := s.finished ++ [⟨p.job, transfer⟩] } ⟨p.job, none, rep⟩)
  | pullInCommand {ep : ℕ} {j : Job} {queue : List Job} (hf : s.feeder ep = .idle)
      (hq : s.inCommands ep = j :: queue) (hep : ep < maxCountIn) :
      Step E s (.pullInCommand ep) { s with
        feeder := Function.update s.feeder ep (.command j)
        inCommands := Function.update s.inCommands ep queue }
  | pullInData {ep : ℕ} {j : Job} {b : Block} {queue : List Block} (hf : s.feeder ep = .command j)
      (hq : s.inData j.cmd.ep.toNat = b :: queue) :
      Step E s (.pullInData ep) { s with
        feeder := Function.update s.feeder ep (.data j b)
        inData := Function.update s.inData j.cmd.ep.toNat queue }
  | sendData {ep : ℕ} {j : Job} {b : Block} {rep : Command} (hf : s.feeder ep = .data j b)
      (hrep : queueReplyToHost E (sendDataToHost j.cmd b.data) = .ok rep) :
      Step E s (.sendData ep)
        (State.pushReply { s with feeder := Function.update s.feeder ep .idle } ⟨j, some b, rep⟩)
  | pullReply {r : Reply} {queue : List Reply} (hr : s.replier = .idle) (hq : s.repliesQueue = r :: queue) :
      Step E s .pullReply { s with replier := .pulled r, repliesQueue := queue }
  | checkDrop {r : Reply} (hr : s.replier = .pulled r) (hu : fromBig E r.rep.seqnum ∈ s.unlinkedSeqnums) :
      Step E s .check { s with
        replier := .idle
        unlinkedSeqnums := s.unlinkedSeqnums.erase (fromBig E r.rep.seqnum)
        dropped := s.dropped ++ [r] }
  | checkPass {r : Reply} (hr : s.replier = .pulled r) (hu : fromBig E r.rep.seqnum ∉ s.unlinkedSeqnums) :
      Step E s .check { s with replier := .checked r }
  | write {r : Reply} (hr : s.replier = .checked r) :
      Step E s .write { s with replier := .idle, log := s.log ++ [r] }

theorem onCompleted_cases {k : ℕ} {p : Pending} {transfer : LibusbTransfer} (hk : s.pending[k]? = some p)
    (hc : Completes p.transfer transfer)
    (h : State.onCompleted E { s with pending := s.pending.eraseIdx k } p transfer = some t) :
    Step E s (.complete k transfer) t := by
  unfold State.onCompleted at h
  dsimp only at h
  split at h
  · rename_i hcb
    cases h
    exact .release hk hc hcb
  · rename_i ep data hcb
    cases h
    exact .completeIn hk hc hcb
  · rename_i req hcb
    split at h
    · rename_i rep hrep
      cases h
      exact .completeOut hk hc hcb hrep
    · cases h

/-- The moves of the execution thread on a command it has pulled. -/
theorem exec_cases {j : Job} (he : s.exec = .pulled j)
    (ha : (∃ io, a = .control io) ∨ a = .submitIn ∨ a = .submitOut ∨ a = .insertUnlinked)
    (h : step E s a = some t) : Step E s a t := by
  rcases ha with ⟨io, rfl⟩ | rfl | rfl | rfl
  · simp only [step, he] at h
    split at h
    · rename_i hj
      split at h
      · rename_i req dev hc
        split at h
        · rename_i rep hrep
          cases h
          exact .control he hj.1 hj.2 hc hrep
        · cases h
      · cases h
    · cases h
  · simp only [step, he] at h
    split at h
    · rename_i hj
      split at h
      · rename_i p hp
        cases h
        exact .submitIn he hj hp
      · cases h
    · cases h
  · simp only [step, he] at h
    split at h
    · rename_i hj
      split at h
      · rename_i p hp
        cases h
        exact .submitOut he hj hp
      · cases h
    · cases h
  · simp only [step, he] at h
    split at h
    · rename_i hj
      cases h
      exact .insertUnlinked he hj
    · cases h

/-- The moves of the transfer thread `ep`. -/
theorem feeder_cases {ep : ℕ} (ha : a = .pullInCommand ep ∨ a = .pullInData ep ∨ a = .sendData ep)
    (h : step E s a = some t) : Step E s a t := by
  rcases ha with rfl | rfl | rfl
  · simp only [step] at h
    split at h
    · rename_i j queue hf hq
      split at h
      · rename_i hep
        cases h
        exact .pullInCommand hf hq hep
      · cases h
    · cases h
  · simp only [step] at h
    split at h
    · rename_i j hf
      split at h
      · rename_i b queue hq
        cases h
        exact .pullInData hf hq
      · cases h
    · cases h
  · simp only [step] at h
    split at h
    · rename_i j b hf
      split at h
      · rename_i rep hrep
        cases h
        exact .sendData hf hrep
      · cases h
    · cases h

/-- The moves of the reply thread. -/
theorem replier_cases (ha : a = .pullReply ∨ a = .check ∨ a = .write) (h : step E s a = some t) :
    Step E s a t := by
  rcases ha with rfl | rfl | rfl
  · simp only [step] at h
    split at h
    · rename_i r queue hr hq
      cases h
      exact .pullReply hr hq
    · cases h
  · simp only [step] at h
    split at h
    · rename_i r hr
      split at h
      · rename_i hu
        cases h
        exact .checkDrop hr hu
      · rename_i hu
        cases h
        exact .checkPass hr hu
    · cases h
  · simp only [step] at h
    split at h
    · rename_i r hr
      cases h
      exact .write hr
    · cases h

theorem step_cases (h : step E s a = some t) : Step E s a t := by
  have hpulled : ((∃ io, a = .control io) ∨ a = .submitIn ∨ a = .submitOut ∨ a = .insertUnlinked) →
      ∃ j, s.exec = .pulled j := by
    rintro (⟨io, rfl⟩ | rfl | rfl | rfl) <;>
    · simp only [step] at h
      split at h
      · rename_i j he
        exact ⟨j, he⟩
      · cases h
  cases a with
  | send c => cases h; exact .send c
  | read =>
    simp only [step] at h
    split at h
    · rename_i j wire hr hw
      cases h
      exact .read hr hw
    · cases h
  | pushCommand =>
    simp only [step] at h
    split at h
    · rename_i j hr
      cases h
      exact .pushCommand hr
    · cases h
  | pullCommand =>
    simp only [step] at h
    split at h
    · rename_i j queue he hq
      cases h
      exact .pullCommand he hq
    · cases h
  | control io =>
    obtain ⟨j, he⟩ := hpulled (.inl ⟨io, rfl⟩)
    exact exec_cases he (.inl ⟨io, rfl⟩) h
  | submitIn =>
    obtain ⟨j, he⟩ := hpulled (.inr (.inl rfl))
    exact exec_cases he (.inr (.inl rfl)) h
  | pushIn =>
    simp only [step] at h
    split at h
    · rename_i j he
      cases h
      exact .pushIn he
    · cases h
  | submitOut =>
    obtain ⟨j, he⟩ := hpulled (.inr (.inr (.inl rfl)))
    exact exec_cases he (.inr (.inr (.inl rfl))) h
  | insertUnlinked =>
    obtain ⟨j, he⟩ := hpulled (.inr (.inr (.inr rfl)))
    exact exec_cases he (.inr (.inr (.inr rfl))) h
  | replyUnlink =>
    simp only [step] at h
    split at h
    · rename_i j status he
      split at h
      · rename_i rep hrep
        cases h
        exact .replyUnlink he hrep
      · cases h
    · cases h
  | complete k transfer =>
    simp only [step] at h
    split at h
    · rename_i p hk
      split at h
      · rename_i hc
        exact onCompleted_cases hk hc h
      · cases h
    · cases h
  | pullInCommand ep => exact feeder_cases (.inl rfl) h
  | pullInData ep => exact feeder_cases (.inr (.inl rfl)) h
  | sendData ep => exact feeder_cases (.inr (.inr rfl)) h
  | pullReply => exact replier_cases (.inl rfl) h
  | check => exact replier_cases (.inr (.inl rfl)) h
  | write => exact replier_cases (.inr (.inr rfl)) h

end Viu
