/-
# The transfers of a mock device

Who holds a transfer of a mock device, and whether it is still allocated
(`live`). The execution thread fills and attaches; the plugin keeps the raw
pointer it is given and calls `fill`, `read` and `complete` from threads of
its own; `cancel` releases all that the map holds in its one section, for they
are all mocks. `complete` uses the transfer twice: when the plugin calls, and
in the section of `on_transfer_completed_impl`.

A call on a transfer that has been released is recorded, and ends the run like
an assertion that fails (`stopped`).
-/
import Viu.PendingMap

namespace Viu
namespace MockMap

open Table

abbrev Xfer := PendingMap.Xfer

/-- Where the execution thread is in `submit_transfer_impl`. -/
inductive Exec (κ : Type)
  | idle
  /-- Filled, with its callback. -/
  | filled (e : Xfer × κ)
  /-- In the map, before `on_transfer_request`. -/
  | attached (t : Xfer)
  deriving DecidableEq, Repr

def Exec.isIdle {κ : Type} : Exec κ → Bool
  | .idle => true
  | .filled _ | .attached _ => false

/-- Attached and not yet given to the plugin. -/
def Exec.given {κ : Type} : Exec κ → List Xfer
  | .attached t => [t]
  | .idle | .filled _ => []

/-- Where the cancelling thread is in `cancel`. -/
inductive Canceller
  | running
  | waiting
  /-- The map was empty; `clear` is next. -/
  | clearing
  | done
  deriving DecidableEq, Repr

variable {κ : Type}

structure State (κ : Type) where
  /-- Allocated and not released. -/
  live : List Xfer
  pendingTransfers : List (Xfer × κ)
  exec : Exec κ
  /-- The plugin has these pointers. -/
  held : List Xfer
  /-- In `complete`, before the section. -/
  completing : List Xfer
  /-- In `complete`, taken out of the map. -/
  calling : List (Xfer × κ)
  canceller : Canceller
  destroyed : Bool
  stopped : Bool
  -- the record of the run
  filled : List Xfer
  swept : List Xfer
  called : List (Xfer × κ)
  /-- The calls of `complete`; cancel had returned. -/
  completes : List (Xfer × Bool)
  /-- The uses of a transfer by the plugin's calls; it was live. -/
  uses : List (Xfer × Bool)
  deriving DecidableEq, Repr

def State.init (κ : Type) : State κ :=
  ⟨[], [], .idle, [], [], [], .running, false, false, [], [], [], [], []⟩

inductive Act (κ : Type)
  | fillTransfer (t : Xfer) (cb : κ)
  | attach (t : Xfer)
  | onTransferRequest (t : Xfer)
  | fill (t : Xfer)
  | read (t : Xfer)
  | complete (t : Xfer)
  | onTransferCompletedImpl (t : Xfer)
  | handOver (t : Xfer)
  | cancel
  | waitForCanceledTransfers
  | clear
  | destroy
  deriving DecidableEq, Repr

namespace State

variable (s : State κ)

/-- `insert`, and the assertion that it did. -/
def attach (e : Xfer × κ) : State κ :=
  if e.1 ∈ keys s.pendingTransfers then { s with stopped := true }
  else { s with pendingTransfers := s.pendingTransfers ++ [e], exec := .attached e.1 }

/-- A call of the plugin reads or writes the transfer. -/
def use (t : Xfer) : State κ :=
  { s with uses := s.uses ++ [(t, decide (t ∈ s.live))], stopped := decide (t ∉ s.live) }

/-- `control::complete` up to the section: it writes the status, and calls back. -/
def complete (t : Xfer) : State κ :=
  { s.use t with
    completing := s.completing ++ [t]
    completes := s.completes ++ [(t, decide (s.canceller = .done))] }

/-- The section of `on_transfer_completed_impl`; the status is COMPLETED. -/
def onTransferCompletedImpl (t : Xfer) : State κ :=
  match s.pendingTransfers.lookup t with
  | some cb => { s.use t with
      pendingTransfers := remove s.pendingTransfers t
      completing := s.completing.erase t
      calling := s.calling ++ [(t, cb)] }
  | none => { s.use t with stopped := true }

/-- The section of `cancel`. The flag it sets is not read for a mock. -/
def cancel : State κ :=
  { s with
    live := s.live.filter (· ∉ keys s.pendingTransfers)
    swept := s.swept ++ keys s.pendingTransfers
    pendingTransfers := []
    canceller := .waiting }

end State

/-- A move that is not enabled gives `none`. -/
def step (s : State κ) (a : Act κ) : Option (State κ) :=
  if s.stopped then none
  else
    match a with
    | .fillTransfer t cb =>
      -- a fresh transfer
      if s.exec.isIdle ∧ s.destroyed = false ∧ t ∉ s.filled then
        some { s with live := s.live ++ [t], filled := s.filled ++ [t], exec := .filled (t, cb) }
      else none
    | .attach t =>
      match s.exec with
      | .filled e => if e.1 = t then some (s.attach e) else none
      | _ => none
    | .onTransferRequest t =>
      if t ∈ s.exec.given then some { s with held := s.held ++ [t], exec := .idle } else none
    | .fill t | .read t => if t ∈ s.held ∧ s.destroyed = false then some (s.use t) else none
    | .complete t =>
      -- at most once
      if t ∈ s.held ∧ s.destroyed = false ∧ t ∉ keys s.completes then some (s.complete t) else none
    | .onTransferCompletedImpl t => if t ∈ s.completing then some (s.onTransferCompletedImpl t) else none
    | .handOver t =>
      match s.calling.lookup t with
      | some cb => some { s with
          live := s.live.erase t
          calling := remove s.calling t
          called := s.called ++ [(t, cb)] }
      | none => none
    | .cancel => if s.canceller = .running then some s.cancel else none
    | .waitForCanceledTransfers =>
      if s.canceller = .waiting then
        some { s with canceller := if s.pendingTransfers = [] then .clearing else .waiting }
      else none
    | .clear =>
      if s.canceller = .clearing then some { s with pendingTransfers := [], canceller := .done } else none
    | .destroy =>
      -- no call of the device is under way
      if s.canceller = .done ∧ s.exec.isIdle ∧ s.completing = [] ∧ s.calling = [] then
        some { s with destroyed := true }
      else none

/-! ### What a step does -/

inductive Step (s : State κ) : Act κ → State κ → Prop
  | fillTransfer {t : Xfer} {cb : κ} (he : s.exec = .idle) (hd : s.destroyed = false) (hf : t ∉ s.filled) :
      Step s (.fillTransfer t cb)
        { s with live := s.live ++ [t], filled := s.filled ++ [t], exec := .filled (t, cb) }
  | attach {e : Xfer × κ} (he : s.exec = .filled e) (hp : e.1 ∉ keys s.pendingTransfers) :
      Step s (.attach e.1) { s with pendingTransfers := s.pendingTransfers ++ [e], exec := .attached e.1 }
  | attachTwice {e : Xfer × κ} (he : s.exec = .filled e) (hp : e.1 ∈ keys s.pendingTransfers) :
      Step s (.attach e.1) { s with stopped := true }
  | onTransferRequest {t : Xfer} (he : s.exec = .attached t) :
      Step s (.onTransferRequest t) { s with held := s.held ++ [t], exec := .idle }
  | use {a : Act κ} {t : Xfer} (ha : a = .fill t ∨ a = .read t) (hh : t ∈ s.held) (hd : s.destroyed = false) :
      Step s a (s.use t)
  | complete {t : Xfer} (hh : t ∈ s.held) (hd : s.destroyed = false) (hc : t ∉ keys s.completes) :
      Step s (.complete t) (s.complete t)
  | takeOut {t : Xfer} {cb : κ} (hc : t ∈ s.completing) (hp : (t, cb) ∈ s.pendingTransfers) :
      Step s (.onTransferCompletedImpl t) { s.use t with
        pendingTransfers := remove s.pendingTransfers t
        completing := s.completing.erase t
        calling := s.calling ++ [(t, cb)] }
  | missing {t : Xfer} (hc : t ∈ s.completing) (hp : t ∉ keys s.pendingTransfers) :
      Step s (.onTransferCompletedImpl t) { s.use t with stopped := true }
  | handOver {t : Xfer} {cb : κ} (hc : (t, cb) ∈ s.calling) :
      Step s (.handOver t) { s with
        live := s.live.erase t
        calling := remove s.calling t
        called := s.called ++ [(t, cb)] }
  | cancel (hc : s.canceller = .running) : Step s .cancel s.cancel
  | waitForCanceledTransfers (hc : s.canceller = .waiting) :
      Step s .waitForCanceledTransfers
        { s with canceller := if s.pendingTransfers = [] then .clearing else .waiting }
  | clear (hc : s.canceller = .clearing) : Step s .clear { s with pendingTransfers := [], canceller := .done }
  | destroy (hc : s.canceller = .done) (he : s.exec = .idle) : Step s .destroy { s with destroyed := true }

variable {s u : State κ} {a : Act κ}

theorem Exec.eq_idle {e : Exec κ} (h : e.isIdle) : e = .idle := by
  cases e with
  | idle => rfl
  | filled | attached => cases h

theorem Exec.eq_attached {e : Exec κ} {t : Xfer} (h : t ∈ e.given) : e = .attached t := by
  cases e with
  | attached x => rw [List.mem_singleton.mp h]
  | idle | filled => cases h

theorem attach_cases {e : Xfer × κ} (he : s.exec = .filled e) : Step s (.attach e.1) (s.attach e) := by
  unfold State.attach
  by_cases hp : e.1 ∈ keys s.pendingTransfers
  · rw [if_pos hp]
    exact .attachTwice he hp
  · rw [if_neg hp]
    exact .attach he hp

theorem onTransferCompletedImpl_cases {t : Xfer} (hc : t ∈ s.completing) :
    Step s (.onTransferCompletedImpl t) (s.onTransferCompletedImpl t) := by
  unfold State.onTransferCompletedImpl
  split
  · rename_i cb hcb
    exact .takeOut hc (lookup_some hcb)
  · rename_i hnone
    refine .missing hc fun hp => ?_
    obtain ⟨cb, hcb⟩ := lookup_of_mem_keys hp
    exact nomatch hnone.symm.trans hcb

theorem step_cases (h : step s a = some u) : s.stopped = false ∧ Step s a u := by
  unfold step at h
  by_cases hstop : s.stopped
  · rw [if_pos hstop] at h
    cases h
  rw [if_neg hstop] at h
  refine ⟨Bool.eq_false_iff.mpr hstop, ?_⟩
  cases a with
  | fillTransfer t cb =>
    obtain ⟨hok, ⟨⟩⟩ := Option.ite_none_right_eq_some.mp h
    exact .fillTransfer (Exec.eq_idle hok.1) hok.2.1 hok.2.2
  | attach t =>
    dsimp only at h
    split at h
    · rename_i e he
      obtain ⟨rfl, ⟨⟩⟩ := Option.ite_none_right_eq_some.mp h
      exact attach_cases he
    · cases h
  | onTransferRequest t =>
    obtain ⟨he, ⟨⟩⟩ := Option.ite_none_right_eq_some.mp h
    exact .onTransferRequest (Exec.eq_attached he)
  | fill t =>
    obtain ⟨hok, ⟨⟩⟩ := Option.ite_none_right_eq_some.mp h
    exact .use (.inl rfl) hok.1 hok.2
  | read t =>
    obtain ⟨hok, ⟨⟩⟩ := Option.ite_none_right_eq_some.mp h
    exact .use (.inr rfl) hok.1 hok.2
  | complete t =>
    obtain ⟨hok, ⟨⟩⟩ := Option.ite_none_right_eq_some.mp h
    exact .complete hok.1 hok.2.1 hok.2.2
  | onTransferCompletedImpl t =>
    obtain ⟨hc, ⟨⟩⟩ := Option.ite_none_right_eq_some.mp h
    exact onTransferCompletedImpl_cases hc
  | handOver t =>
    dsimp only at h
    split at h
    · rename_i cb hcb
      cases h
      exact .handOver (lookup_some hcb)
    · cases h
  | cancel =>
    obtain ⟨hc, ⟨⟩⟩ := Option.ite_none_right_eq_some.mp h
    exact .cancel hc
  | waitForCanceledTransfers =>
    obtain ⟨hc, ⟨⟩⟩ := Option.ite_none_right_eq_some.mp h
    exact .waitForCanceledTransfers hc
  | clear =>
    obtain ⟨hc, ⟨⟩⟩ := Option.ite_none_right_eq_some.mp h
    exact .clear hc
  | destroy =>
    obtain ⟨hok, ⟨⟩⟩ := Option.ite_none_right_eq_some.mp h
    exact .destroy hok.1 (Exec.eq_idle hok.2.1)

end MockMap
end Viu
