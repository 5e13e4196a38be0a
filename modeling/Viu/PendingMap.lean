/-
# The pending transfers of a real device

`transfer::pending_map`, with its three users as threads: the execution thread
attaches and submits, the event thread completes what libusb has finished, and
one thread cancels. A section under the mutex is one step and so is each call
of libusb; the sweep of `cancel` keeps the mutex over its calls
(`State.locked`). libusb finishes a submitted transfer once, takes every
submission, and does nothing about a cancel of a transfer it does not have. An
assertion that fails ends the run (`failed`), as under `VIU_ASSERT_ABORT`.
-/
import Mathlib.Data.List.Sort
import Viu.Lib.Run
import Viu.Lib.Table
import Viu.Transfer

namespace Viu
namespace PendingMap

open Table

/-- A `libusb_transfer*`. -/
abbrev Xfer := ℕ

variable {κ : Type}

/-- Where the execution thread is in `submit_transfer_impl`. -/
inductive Exec
  | idle
  /-- Attached, before the section of `submit`. -/
  | attached (t : Xfer)
  /-- The section has found that transfers are not cancelled. -/
  | checked (t : Xfer)
  /-- The section has erased the transfer, which is to be released. -/
  | dropping (t : Xfer)
  deriving DecidableEq, Repr

/-- Where the event thread is in `on_transfer_completed_impl`. -/
inductive Event (κ : Type)
  | idle
  /-- libusb has finished the transfer and called. -/
  | completed (t : Xfer) (status : LibusbTransferStatus)
  | releasing (t : Xfer)
  | calling (e : Xfer × κ)
  deriving DecidableEq, Repr

/-- Where the cancelling thread is in `cancel`. -/
inductive Canceller
  | running
  /-- In the sweep, the mutex held, with these transfers to go. -/
  | sweeping (todo : List Xfer)
  | waiting
  /-- The map was empty; `clear` is next. -/
  | clearing
  | done
  deriving DecidableEq, Repr

structure State (κ : Type) where
  pendingTransfers : List (Xfer × κ)
  transfersCanceled : Bool
  exec : Exec
  event : Event κ
  canceller : Canceller
  /-- Submitted to libusb and not finished. -/
  inFlight : List Xfer
  /-- Cancelled after their submission. -/
  cancelled : List Xfer
  failed : Bool
  -- the record of the run
  attached : List (Xfer × κ)
  completed : List (Xfer × LibusbTransferStatus)
  released : List Xfer
  called : List (Xfer × κ)
  deriving DecidableEq, Repr

def State.init (κ : Type) : State κ := ⟨[], false, .idle, .idle, .running, [], [], false, [], [], [], []⟩

inductive Act (κ : Type)
  | attach (t : Xfer) (cb : κ)
  | submit
  | libusbSubmitTransfer
  | dropTransfer
  | libusbComplete (t : Xfer) (status : LibusbTransferStatus)
  | onTransferCompletedImpl
  | handOver
  | cancel
  | libusbCancelTransfer
  | endSweep
  | waitForCanceledTransfers
  | clear
  deriving DecidableEq, Repr

namespace State

variable (s : State κ)

/-- The mutex is held. -/
def locked : Bool :=
  match s.canceller with
  | .sweeping _ => true
  | _ => false

def fail : State κ := { s with failed := true }

/-- `insert`, and the assertion that it did. -/
def attach (t : Xfer) (cb : κ) : State κ :=
  if t ∈ keys s.pendingTransfers then s.fail
  else { s with
    pendingTransfers := s.pendingTransfers ++ [(t, cb)]
    attached := s.attached ++ [(t, cb)]
    exec := .attached t }

/-- The section of `submit`. -/
def submit (t : Xfer) : State κ :=
  if s.transfersCanceled then
    if t ∈ keys s.pendingTransfers then
      { s with pendingTransfers := remove s.pendingTransfers t, exec := .dropping t }
    else s.fail
  else { s with exec := .checked t }

/-- The section of `on_transfer_completed_impl`. -/
def onTransferCompletedImpl (t : Xfer) (status : LibusbTransferStatus) : State κ :=
  if status = .timedOut ∨ status = .cancelled then
    if t ∈ keys s.pendingTransfers then
      { s with pendingTransfers := remove s.pendingTransfers t, event := .releasing t }
    else s.fail
  else
    match s.pendingTransfers.lookup t with
    | some cb => { s with pendingTransfers := remove s.pendingTransfers t, event := .calling (t, cb) }
    | none => s.fail

end State

/-- A move that is not enabled gives `none`. -/
def step (s : State κ) (a : Act κ) : Option (State κ) :=
  if s.failed then none
  else
    match a, s.exec, s.event, s.canceller with
    | .attach t cb, .idle, _, _ =>
      -- a fresh transfer
      if s.locked = false ∧ t ∉ keys s.attached then some (s.attach t cb) else none
    | .submit, .attached t, _, _ => if s.locked = false then some (s.submit t) else none
    | .libusbSubmitTransfer, .checked t, _, _ => some { s with inFlight := s.inFlight ++ [t], exec := .idle }
    | .dropTransfer, .dropping t, _, _ => some { s with released := s.released ++ [t], exec := .idle }
    | .libusbComplete t status, _, .idle, _ =>
      if t ∈ s.inFlight then
        some { s with
          inFlight := s.inFlight.erase t
          event := .completed t status
          completed := s.completed ++ [(t, status)] }
      else none
    | .onTransferCompletedImpl, _, .completed t status, _ =>
      if s.locked = false then some (s.onTransferCompletedImpl t status) else none
    | .handOver, _, .releasing t, _ => some { s with released := s.released ++ [t], event := .idle }
    | .handOver, _, .calling e, _ => some { s with called := s.called ++ [e], event := .idle }
    | .cancel, _, _, .running =>
      -- in the order of the map
      some { s with canceller := .sweeping ((keys s.pendingTransfers).insertionSort (· ≤ ·)) }
    | .libusbCancelTransfer, _, _, .sweeping (t :: todo) =>
      some { s with
        cancelled := if t ∈ s.inFlight then s.cancelled ++ [t] else s.cancelled
        canceller := .sweeping todo }
    | .endSweep, _, _, .sweeping [] => some { s with transfersCanceled := true, canceller := .waiting }
    | .waitForCanceledTransfers, _, _, .waiting =>
      some { s with canceller := if s.pendingTransfers = [] then .clearing else .waiting }
    | .clear, _, _, .clearing => some { s with pendingTransfers := [], canceller := .done }
    | _, _, _, _ => none

/-! ### What a step does -/

variable {s u : State κ} {a : Act κ}

inductive Step (s : State κ) : Act κ → State κ → Prop
  | attach {t : Xfer} {cb : κ} (he : s.exec = .idle) (hl : s.locked = false) (hf : t ∉ keys s.attached)
      (hp : t ∉ keys s.pendingTransfers) :
      Step s (.attach t cb) { s with
        pendingTransfers := s.pendingTransfers ++ [(t, cb)]
        attached := s.attached ++ [(t, cb)]
        exec := .attached t }
  | attachTwice {t : Xfer} {cb : κ} (hf : t ∉ keys s.attached) (hp : t ∈ keys s.pendingTransfers) :
      Step s (.attach t cb) s.fail
  | submitCheck {t : Xfer} (he : s.exec = .attached t) (hl : s.locked = false) (hc : s.transfersCanceled = false) :
      Step s .submit { s with exec := .checked t }
  | submitDrop {t : Xfer} (he : s.exec = .attached t) (hc : s.transfersCanceled = true)
      (hp : t ∈ keys s.pendingTransfers) :
      Step s .submit { s with pendingTransfers := remove s.pendingTransfers t, exec := .dropping t }
  | submitMissing {t : Xfer} (he : s.exec = .attached t) (hc : s.transfersCanceled = true)
      (hp : t ∉ keys s.pendingTransfers) : Step s .submit s.fail
  | libusbSubmitTransfer {t : Xfer} (he : s.exec = .checked t) :
      Step s .libusbSubmitTransfer { s with inFlight := s.inFlight ++ [t], exec := .idle }
  | dropTransfer {t : Xfer} (he : s.exec = .dropping t) :
      Step s .dropTransfer { s with released := s.released ++ [t], exec := .idle }
  | libusbComplete {t : Xfer} {status : LibusbTransferStatus} (hv : s.event = .idle) (ht : t ∈ s.inFlight) :
      Step s (.libusbComplete t status) { s with
        inFlight := s.inFlight.erase t
        event := .completed t status
        completed := s.completed ++ [(t, status)] }
  | completeDrop {t : Xfer} {status : LibusbTransferStatus} (hv : s.event = .completed t status)
      (hs : status = .timedOut ∨ status = .cancelled) (hp : t ∈ keys s.pendingTransfers) :
      Step s .onTransferCompletedImpl
        { s with pendingTransfers := remove s.pendingTransfers t, event := .releasing t }
  | completeCall {t : Xfer} {status : LibusbTransferStatus} {cb : κ} (hv : s.event = .completed t status)
      (hs : ¬(status = .timedOut ∨ status = .cancelled)) (hp : (t, cb) ∈ s.pendingTransfers) :
      Step s .onTransferCompletedImpl
        { s with pendingTransfers := remove s.pendingTransfers t, event := .calling (t, cb) }
  | completeMissing {t : Xfer} {status : LibusbTransferStatus} (hv : s.event = .completed t status)
      (hp : t ∉ keys s.pendingTransfers) : Step s .onTransferCompletedImpl s.fail
  | handRelease {t : Xfer} (hv : s.event = .releasing t) :
      Step s .handOver { s with released := s.released ++ [t], event := .idle }
  | handCall {e : Xfer × κ} (hv : s.event = .calling e) :
      Step s .handOver { s with called := s.called ++ [e], event := .idle }
  | cancel (hc : s.canceller = .running) :
      Step s .cancel { s with canceller := .sweeping ((keys s.pendingTransfers).insertionSort (· ≤ ·)) }
  | libusbCancelTransfer {t : Xfer} {todo : List Xfer} (hc : s.canceller = .sweeping (t :: todo)) :
      Step s .libusbCancelTransfer { s with
        cancelled := if t ∈ s.inFlight then s.cancelled ++ [t] else s.cancelled
        canceller := .sweeping todo }
  | endSweep (hc : s.canceller = .sweeping []) :
      Step s .endSweep { s with transfersCanceled := true, canceller := .waiting }
  | waitForCanceledTransfers (hc : s.canceller = .waiting) :
      Step s .waitForCanceledTransfers
        { s with canceller := if s.pendingTransfers = [] then .clearing else .waiting }
  | clear (hc : s.canceller = .clearing) : Step s .clear { s with pendingTransfers := [], canceller := .done }

theorem attach_cases {t : Xfer} {cb : κ} (he : s.exec = .idle) (hl : s.locked = false) (hf : t ∉ keys s.attached) :
    Step s (.attach t cb) (s.attach t cb) := by
  unfold State.attach
  split
  · rename_i hp
    exact .attachTwice hf hp
  · rename_i hp
    exact .attach he hl hf hp

theorem submit_cases {t : Xfer} (he : s.exec = .attached t) (hl : s.locked = false) :
    Step s .submit (s.submit t) := by
  unfold State.submit
  split
  · rename_i hc
    split
    · rename_i hp
      exact .submitDrop he hc hp
    · rename_i hp
      exact .submitMissing he hc hp
  · rename_i hc
    exact .submitCheck he hl (Bool.eq_false_iff.mpr hc)

theorem onTransferCompletedImpl_cases {t : Xfer} {status : LibusbTransferStatus}
    (hv : s.event = .completed t status) : Step s .onTransferCompletedImpl (s.onTransferCompletedImpl t status) := by
  unfold State.onTransferCompletedImpl
  split
  · rename_i hs
    split
    · rename_i hp
      exact .completeDrop hv hs hp
    · rename_i hp
      exact .completeMissing hv hp
  · rename_i hs
    split
    · rename_i cb hcb
      exact .completeCall hv hs (lookup_some hcb)
    · rename_i hnone
      refine .completeMissing hv fun hp => ?_
      obtain ⟨cb, hcb⟩ := lookup_of_mem_keys hp
      rw [hnone] at hcb
      cases hcb

theorem step_cases (h : step s a = some u) : s.failed = false ∧ Step s a u := by
  unfold step at h
  split at h
  · cases h
  · rename_i hfailed
    refine ⟨Bool.eq_false_iff.mpr hfailed, ?_⟩
    split at h
    · rename_i t cb he
      split at h
      · rename_i hok
        cases h
        exact attach_cases he hok.1 hok.2
      · cases h
    · rename_i t he
      split at h
      · rename_i hl
        cases h
        exact submit_cases he hl
      · cases h
    · rename_i t he
      cases h
      exact .libusbSubmitTransfer he
    · rename_i t he
      cases h
      exact .dropTransfer he
    · rename_i t status hv
      split at h
      · rename_i ht
        cases h
        exact .libusbComplete hv ht
      · cases h
    · rename_i t status hv
      split at h
      · cases h
        exact onTransferCompletedImpl_cases hv
      · cases h
    · rename_i t hv
      cases h
      exact .handRelease hv
    · rename_i e hv
      cases h
      exact .handCall hv
    · rename_i hc
      cases h
      exact .cancel hc
    · rename_i t todo hc
      cases h
      exact .libusbCancelTransfer hc
    · rename_i hc
      cases h
      exact .endSweep hc
    · rename_i hc
      cases h
      exact .waitForCanceledTransfers hc
    · rename_i hc
      cases h
      exact .clear hc
    · cases h

end PendingMap
end Viu
