/-
# The threads of `viu::device::basic`

The queues between the reader, the execution thread, the sixteen transfer
threads, the reply thread and the completion callbacks, as a step function
on one state. Each queue push or pull, each section under
`unlinked_set_mutex_` and each socket write is one step, so a run is any
interleaving of the threads.

A thread that is in the middle of an iteration keeps what it holds in the
state (`reader`, `Exec`, `Feeder`, `Replier`). A step is `none` where the
source blocks, throws, or is undefined. `onTransferCompletedImpl` erases
from the pending map and then pushes; only the push is seen here, and since
any pending transfer may complete next, its step does both.

The fields from `received` on record what has happened. No step reads them.
-/
import Mathlib.Data.Finset.Insert
import Mathlib.Data.Finset.Erase
import Viu.Lib.Run
import Viu.Proxy

namespace Viu

open Bytes

/-- A command of the host; `id` numbers the commands in the order sent. -/
structure Job where
  id : ℕ
  cmd : Command
  deriving DecidableEq, Repr

/-- An entry of `pending_transfers_` and the command it was made for. -/
structure Pending where
  job : Job
  callback : Callback
  transfer : LibusbTransfer
  deriving DecidableEq, Repr

/-- A completed transfer. -/
structure Done where
  job : Job
  transfer : LibusbTransfer
  deriving DecidableEq, Repr

/-- An element of `in_data_` and the transfer it came from. -/
structure Block where
  done : Done
  data : TransferData
  deriving DecidableEq, Repr

/-- An element of `replies_queue_`, the command it answers and, from a transfer
thread, the block it was made of. -/
structure Reply where
  job : Job
  block : Option Block
  rep : Command
  deriving DecidableEq, Repr

/-- What the execution thread holds. -/
inductive Exec
  | idle
  | pulled (j : Job)
  | submitted (j : Job)
  | unlinking (j : Job) (status : I32)
  deriving DecidableEq, Repr

/-- What a transfer thread holds. -/
inductive Feeder
  | idle
  | command (j : Job)
  | data (j : Job) (b : Block)
  deriving DecidableEq, Repr

/-- What the reply thread holds, before and after the unlinked check. -/
inductive Replier
  | idle
  | pulled (r : Reply)
  | checked (r : Reply)
  deriving DecidableEq, Repr

/-- `usb::endpoint::max_count_in`. -/
def maxCountIn : ℕ := 16

structure State where
  dev : Device
  wire : List Job
  reader : Option Job
  commandsQueue : List Job
  exec : Exec
  inCommands : ℕ → List Job
  inData : ℕ → List Block
  feeder : ℕ → Feeder
  pending : List Pending
  repliesQueue : List Reply
  replier : Replier
  unlinkedSeqnums : Finset U32
  log : List Reply
  /-- Read from the socket. -/
  received : List Job
  /-- Pushed to `in_commands_`. -/
  queued : ℕ → List Job
  /-- Pushed to `in_data_`. -/
  blocks : ℕ → List Block
  finished : List Done
  /-- Pushed to `replies_queue_`. -/
  produced : List Reply
  /-- Discarded by the reply thread. -/
  dropped : List Reply

namespace State

def init (d : Device) : State where
  dev := d
  wire := []
  reader := none
  commandsQueue := []
  exec := .idle
  inCommands := fun _ => []
  inData := fun _ => []
  feeder := fun _ => .idle
  pending := []
  repliesQueue := []
  replier := .idle
  unlinkedSeqnums := ∅
  log := []
  received := []
  queued := fun _ => []
  blocks := fun _ => []
  finished := []
  produced := []
  dropped := []

/-- All the host has sent. -/
def sent (s : State) : List Job := s.received ++ s.wire

def pushReply (s : State) (r : Reply) : State :=
  { s with repliesQueue := s.repliesQueue ++ [r], produced := s.produced ++ [r] }

def pushData (s : State) (ep : ℕ) (b : Block) : State :=
  { s with
    inData := Function.update s.inData ep (s.inData ep ++ [b])
    blocks := Function.update s.blocks ep (s.blocks ep ++ [b]) }

end State

/-- The value of `-ECONNRESET` in a reply. -/
def unlinkedStatus : I32 := BitVec.ofInt 32 (-ECONNRESET)

/-- The moves: the host's, then each thread's in the order of its iteration. -/
inductive Act
  | send (c : Command)
  | read
  | pushCommand
  | pullCommand
  | control (io : Io)
  | submitIn
  | pushIn
  | submitOut
  | insertUnlinked
  | replyUnlink
  | complete (k : ℕ) (transfer : LibusbTransfer)
  | pullInCommand (ep : ℕ)
  | pullInData (ep : ℕ)
  | sendData (ep : ℕ)
  | pullReply
  | check
  | write

/-- The endpoint branch of `execute_command`; `direction` is the test of
`execute_ep_command`. An IN command beyond the last queue is pushed outside
the array: undefined. -/
def Job.isEp (j : Job) : Bool := j.cmd.isSubmit ∧ j.cmd.ep ≠ 0

def Job.isEpIn (j : Job) : Bool := j.isEp ∧ j.cmd.isIn ∧ j.cmd.ep.toNat < maxCountIn

def Job.isEpOut (j : Job) : Bool := j.isEp ∧ ¬ j.cmd.isIn ∧ j.cmd.isOut

/-- What `submit_transfer` leaves in the pending map. -/
def pendingOf (j : Job) (p : Option (Callback × LibusbTransfer)) : List Pending :=
  p.toList.map fun (cb, transfer) => ⟨j, cb, transfer⟩

/-- The callback of a transfer that completed. -/
def State.onCompleted (E : Order) (s : State) (p : Pending) (transfer : LibusbTransfer) : Option State :=
  let done : Done := ⟨p.job, transfer⟩
  let s := { s with finished := s.finished ++ [done] }
  match Proxy.onTransferCompletedImpl E p.callback transfer with
  | none => some s
  | some (.data ep data) => some (s.pushData ep ⟨done, data⟩)
  | some (.reply req) =>
    match queueReplyToHost E req with
    | .ok rep => some (s.pushReply ⟨p.job, none, rep⟩)
    | .error _ => none

def step (E : Order) (s : State) : Act → Option State
  | .send c => some { s with wire := s.wire ++ [⟨s.sent.length, c⟩] }
  | .read =>
    match s.reader, s.wire with
    | none, j :: wire => some { s with wire := wire, reader := some j, received := s.received ++ [j] }
    | _, _ => none
  | .pushCommand =>
    match s.reader with
    | some j => some { s with reader := none, commandsQueue := s.commandsQueue ++ [j] }
    | none => none
  | .pullCommand =>
    match s.exec, s.commandsQueue with
    | .idle, j :: queue => some { s with exec := .pulled j, commandsQueue := queue }
    | _, _ => none
  | .control io =>
    match s.exec with
    | .pulled j =>
      if j.cmd.isSubmit ∧ j.cmd.ep = 0 then
        match Proxy.executeControlCommand E io s.dev j.cmd with
        | .ok (req, dev) =>
          match queueReplyToHost E req with
          | .ok rep => some (State.pushReply { s with exec := .idle, dev := dev } ⟨j, none, rep⟩)
          | .error _ => none
        | .error _ => none
      else none
    | _ => none
  | .submitIn =>
    match s.exec with
    | .pulled j =>
      if j.isEpIn then
        match Proxy.submitTransfer s.dev j.cmd with
        | .ok (some p) => some { s with exec := .submitted j, pending := s.pending ++ pendingOf j p }
        | _ => none
      else none
    | _ => none
  | .pushIn =>
    match s.exec with
    | .submitted j =>
      let ep := j.cmd.ep.toNat
      some { s with
        exec := .idle
        inCommands := Function.update s.inCommands ep (s.inCommands ep ++ [j])
        queued := Function.update s.queued ep (s.queued ep ++ [j]) }
    | _ => none
  | .submitOut =>
    match s.exec with
    | .pulled j =>
      if j.isEpOut then
        match Proxy.submitTransfer s.dev j.cmd with
        | .ok (some p) => some { s with exec := .idle, pending := s.pending ++ pendingOf j p }
        | _ => none
      else none
    | _ => none
  | .insertUnlinked =>
    match s.exec with
    | .pulled j =>
      if j.cmd.isUnlink then
        let status := if j.cmd.unlinkSeqnum ∈ s.unlinkedSeqnums then 0 else unlinkedStatus
        some { s with
          exec := .unlinking j status
          unlinkedSeqnums := insert j.cmd.unlinkSeqnum s.unlinkedSeqnums }
      else none
    | _ => none
  | .replyUnlink =>
    match s.exec with
    | .unlinking j status =>
      match queueReplyToHost E (unlinkReply j.cmd status) with
      | .ok rep => some (State.pushReply { s with exec := .idle } ⟨j, none, rep⟩)
      | .error _ => none
    | _ => none
  | .complete k transfer =>
    match s.pending[k]? with
    | some p =>
      if Completes p.transfer transfer then
        State.onCompleted E { s with pending := s.pending.eraseIdx k } p transfer
      else none
    | none => none
  | .pullInCommand ep =>
    match s.feeder ep, s.inCommands ep with
    | .idle, j :: queue =>
      if ep < maxCountIn then
        some { s with
          feeder := Function.update s.feeder ep (.command j)
          inCommands := Function.update s.inCommands ep queue }
      else none
    | _, _ => none
  | .pullInData ep =>
    match s.feeder ep with
    | .command j =>
      match s.inData j.cmd.ep.toNat with
      | b :: queue => some { s with
          feeder := Function.update s.feeder ep (.data j b)
          inData := Function.update s.inData j.cmd.ep.toNat queue }
      | [] => none
    | _ => none
  | .sendData ep =>
    match s.feeder ep with
    | .data j b =>
      match queueReplyToHost E (sendDataToHost j.cmd b.data) with
      | .ok rep =>
        some (State.pushReply { s with feeder := Function.update s.feeder ep .idle } ⟨j, some b, rep⟩)
      | .error _ => none
    | _ => none
  | .pullReply =>
    match s.replier, s.repliesQueue with
    | .idle, r :: queue => some { s with replier := .pulled r, repliesQueue := queue }
    | _, _ => none
  | .check =>
    match s.replier with
    | .pulled r =>
      let cmdSeqnum := fromBig E r.rep.seqnum
      if cmdSeqnum ∈ s.unlinkedSeqnums then
        some { s with
          replier := .idle
          unlinkedSeqnums := s.unlinkedSeqnums.erase cmdSeqnum
          dropped := s.dropped ++ [r] }
      else some { s with replier := .checked r }
    | _ => none
  | .write =>
    match s.replier with
    | .checked r => some { s with replier := .idle, log := s.log ++ [r] }
    | _ => none

end Viu
