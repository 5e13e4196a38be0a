/-
# What the cancel sweep misses

`cancel` asks libusb to cancel what the map holds and sets the flag, all in one
section; a transfer attached later meets the flag in `submit`. The gap is
between the section of `submit` and `libusb_submit_transfer`: a cancel that
comes there finds the transfer not submitted, does nothing, and the
submission follows.

Outside that gap the sweep misses nothing (`misses_nothing`); one cancel in it
is enough for a transfer to end up submitted and not cancelled
(`missed_of_between`).
-/
import Viu.PendingOwners

namespace Viu
namespace PendingMap

open Table

variable {κ : Type} {s u : State κ} {a : Act κ} {t : Xfer} {todo : List Xfer}

/-- Once the sweep is over, what is submitted was cancelled after its submission. -/
def MissesNothing (s : State κ) : Prop := s.transfersCanceled = true → ∀ t ∈ s.inFlight, t ∈ s.cancelled

/-- The next transfer of the sweep. -/
def Canceller.next : Canceller → List Xfer
  | .sweeping (t :: _) => [t]
  | .running | .sweeping [] | .waiting | .clearing | .done => []

/-- The cancel does not come between the check of `submit` and the submission. -/
def NotBetween (s : State κ) (a : Act κ) : Prop :=
  a = .libusbCancelTransfer → ∀ t ∈ s.canceller.next, s.exec ≠ .checked t

instance [DecidableEq κ] (s : State κ) (a : Act κ) : Decidable (NotBetween s a) :=
  inferInstanceAs (Decidable (_ → _))

/-- During the sweep what is submitted is cancelled or still to come, and so is
what is about to be submitted; after it nothing is about to be. -/
structure Swept (s : State κ) : Prop where
  during : ∀ todo, s.canceller = .sweeping todo →
    (∀ t ∈ s.inFlight, t ∈ todo ∨ t ∈ s.cancelled) ∧ ∀ t, s.exec = .checked t → t ∈ todo
  after : s.transfersCanceled = true → (∀ t ∈ s.inFlight, t ∈ s.cancelled) ∧ ∀ t, s.exec ≠ .checked t

theorem swept_init : Swept (State.init κ) where
  during _ h := (nomatch h)
  after h := (nomatch h)

/-- What libusb has and what the execution thread has checked is in the map. -/
theorem Owned.mem_of_inFlight (h : Owned s) (ht : t ∈ s.inFlight) : t ∈ keys s.pendingTransfers :=
  h.mem_of_users (List.mem_append_left _ (List.mem_append_right _ ht))

theorem Owned.mem_of_checked (h : Owned s) (he : s.exec = .checked t) : t ∈ keys s.pendingTransfers :=
  h.mem_of_exec (by rw [he]; exact List.mem_singleton_self t)

theorem not_sweeping_of_unlocked (hl : s.locked = false) : s.canceller ≠ .sweeping todo := by
  intro hc
  rw [State.locked, hc] at hl
  cases hl

theorem wait_ne_sweeping {c : Prop} [Decidable c] : (if c then Canceller.clearing else .waiting) ≠ .sweeping todo := by
  split <;> simp

theorem swept_step (ho : Owned s ∨ s.canceller = .done) (h : Swept s) (ha : NotBetween s a) (hst : Step s a u) :
    Swept u := by
  cases hst with
  | attach he hl =>
    refine ⟨fun todo hc => absurd hc (not_sweeping_of_unlocked hl), fun hcan => ?_⟩
    exact ⟨(h.after hcan).1, fun t ht => nomatch ht⟩
  | submitCheck he hl hc =>
    refine ⟨fun todo hs => absurd hs (not_sweeping_of_unlocked hl), fun hcan => ?_⟩
    exact nomatch hc.symm.trans hcan
  | submitDrop | dropTransfer =>
    refine ⟨fun todo hc => ⟨(h.during todo hc).1, fun t ht => (nomatch ht)⟩, fun hcan => ?_⟩
    exact ⟨(h.after hcan).1, fun t ht => nomatch ht⟩
  | @libusbSubmitTransfer t he =>
    refine ⟨fun todo hc => ⟨fun t' ht => ?_, fun t' ht => (nomatch ht)⟩, fun hcan => ?_⟩
    · rcases List.mem_append.mp ht with ht | ht
      · exact (h.during todo hc).1 t' ht
      · rw [List.mem_singleton.mp ht]
        exact .inl ((h.during todo hc).2 t he)
    · exact absurd he ((h.after hcan).2 t)
  | libusbComplete hv ht =>
    refine ⟨fun todo hc => ⟨fun t' ht' => ?_, (h.during todo hc).2⟩, fun hcan => ⟨fun t' ht' => ?_, (h.after hcan).2⟩⟩
    · exact (h.during todo hc).1 t' (List.mem_of_mem_erase ht')
    · exact (h.after hcan).1 t' (List.mem_of_mem_erase ht')
  | cancel hc =>
    have ho : Owned s := ho.resolve_right fun hdone => nomatch hc.symm.trans hdone
    refine ⟨fun todo hs => ?_, h.after⟩
    cases hs
    have hsort : ∀ {x}, x ∈ keys s.pendingTransfers → x ∈ (keys s.pendingTransfers).insertionSort (· ≤ ·) :=
      fun hx => (List.mem_insertionSort _).mpr hx
    exact ⟨fun t ht => .inl (hsort (ho.mem_of_inFlight ht)), fun t he => hsort (ho.mem_of_checked he)⟩
  | @libusbCancelTransfer t todo hc =>
    have hne : s.exec ≠ .checked t := ha rfl t (by rw [hc]; exact List.mem_singleton_self t)
    obtain ⟨hfly, hexec⟩ := h.during _ hc
    refine ⟨fun todo' hc' => ?_, fun hcan => ⟨fun t' ht' => ?_, (h.after hcan).2⟩⟩
    · cases hc'
      refine ⟨fun t' ht' => ?_, fun t' he => ?_⟩
      · by_cases htt : t' = t
        · subst htt
          exact .inr (by simp [ht'])
        · rcases hfly t' ht' with hmem | hmem
          · exact .inl ((List.mem_cons.mp hmem).resolve_left htt)
          · exact .inr (by split <;> simp [hmem])
      · refine (List.mem_cons.mp (hexec t' he)).resolve_left fun htt => ?_
        rw [htt] at he
        exact hne he
    · have hmem := (h.after hcan).1 t' ht'
      split <;> simp [hmem]
  | endSweep hc =>
    obtain ⟨hfly, hexec⟩ := h.during _ hc
    refine ⟨fun todo hc' => (nomatch hc'), fun _ => ⟨fun t ht => ?_, fun t he => nomatch hexec t he⟩⟩
    exact (hfly t ht).resolve_left List.not_mem_nil
  | waitForCanceledTransfers hc =>
    exact ⟨fun todo hs => absurd hs wait_ne_sweeping, h.after⟩
  | clear => exact ⟨fun todo hs => (nomatch hs), h.after⟩
  | _ => exact ⟨h.during, h.after⟩

/-- A sweep none of whose cancels comes between check and submission misses
nothing. -/
theorem misses_nothing (h : Reaches NotBetween s) : MissesNothing s := by
  have hs : Swept s := h.invariant_of (J := fun s => Owned s ∨ s.canceller = .done)
    (fun _ hr => owned_or_done hr.any) swept_init fun s a u ho hs ha hst => swept_step ho hs ha (step_cases hst).2
  exact fun hcan => (hs.after hcan).1

/-- The transfer attached, both sides of the check, is cancelled by the sweep. -/
def cancelledBySweep : List (Act Unit) :=
  [.attach 0 (), .submit, .cancel, .libusbSubmitTransfer, .libusbCancelTransfer, .endSweep, .attach 1 (), .submit]

theorem misses_nothing_cancelledBySweep :
    ∃ s, Runs.follow step (State.init Unit) cancelledBySweep = some s ∧ s.inFlight = [0] ∧ MissesNothing s :=
  ⟨_, rfl, rfl, misses_nothing (Runs.reach_follow cancelledBySweep rfl (by decide))⟩

/-- Cancelled first, submitted then. -/
def cancelledBetween : List (Act Unit) :=
  [.attach 0 (), .submit, .cancel, .libusbCancelTransfer, .endSweep, .libusbSubmitTransfer]

theorem not_missesNothing_cancelledBetween : ¬ ∀ s : State Unit, Reaches Runs.Any s → MissesNothing s := by
  intro h
  have hrun : Reaches Runs.Any (κ := Unit) _ := Runs.reach_follow cancelledBetween rfl (by decide)
  exact nomatch h _ hrun rfl 0 (List.mem_singleton_self 0)

/-! ### In the gap -/

/-- What was cancelled is not on its way to the submission. -/
theorem not_exec_of_cancelled (h : Reaches Runs.Any s) :
    ∀ x ∈ s.cancelled, x ∈ keys s.attached ∧ x ∉ s.exec.users := by
  refine h.invariant_of (J := fun s => Owned s ∨ s.canceller = .done)
    (I := fun s => ∀ x ∈ s.cancelled, x ∈ keys s.attached ∧ x ∉ s.exec.users)
    (fun _ hr => owned_or_done hr) (fun _ hx => nomatch hx) fun s a u ho hs _ hst x hx => ?_
  cases (step_cases hst).2 with
  | @attach t cb he hl hf =>
    rw [keys_append]
    refine ⟨List.mem_append_left _ (hs x hx).1, fun hmem => hf ?_⟩
    rw [← List.mem_singleton.mp hmem]
    exact (hs x hx).1
  | submitCheck he =>
    refine ⟨(hs x hx).1, fun hmem => (hs x hx).2 ?_⟩
    rw [he]
    exact hmem
  | submitDrop | libusbSubmitTransfer | dropTransfer => exact ⟨(hs x hx).1, List.not_mem_nil⟩
  | @libusbCancelTransfer t todo hc =>
    have ho : Owned s := ho.resolve_right fun hdone => nomatch hc.symm.trans hdone
    by_cases hfly : t ∈ s.inFlight
    · rw [if_pos hfly] at hx
      rcases List.mem_append.mp hx with hx | hx
      · exact hs x hx
      · rw [List.mem_singleton.mp hx]
        have hkey := ho.mem_of_inFlight hfly
        refine ⟨ho.attached_of_mem hkey, fun hmem => ?_⟩
        have hone := (ho.alone hkey).2.2.2
        have hcount : 0 < s.exec.users.count t := List.count_pos_iff.mpr hmem
        have hcount' := List.count_pos_iff.mpr hfly
        rw [count_users] at hone
        omega
    · rw [if_neg hfly] at hx
      exact hs x hx
  | _ => exact hs x hx

/-- The sweep comes to a transfer once. -/
theorem nodup_of_sweeping (h : Reaches Runs.Any s) (hc : s.canceller = .sweeping todo) : todo.Nodup := by
  refine h.invariant_of (J := fun s => Owned s ∨ s.canceller = .done)
    (I := fun s => ∀ todo, s.canceller = .sweeping todo → todo.Nodup)
    (fun _ hr => owned_or_done hr) (fun _ hc => nomatch hc) (fun s a u ho hs _ hst todo hc => ?_) todo hc
  cases (step_cases hst).2 with
  | cancel hrun =>
    have ho : Owned s := ho.resolve_right fun hdone => nomatch hrun.symm.trans hdone
    have hkeys : (keys s.pendingTransfers).Nodup := by
      have hplaces := ho.nodup_places
      simp only [State.places, List.append_assoc] at hplaces
      exact hplaces.sublist (List.sublist_append_left _ _)
    cases hc
    exact (List.perm_insertionSort _ _).nodup_iff.mpr hkeys
  | libusbCancelTransfer hsweep =>
    cases hc
    exact (hs _ hsweep).of_cons
  | waitForCanceledTransfers => exact absurd hc wait_ne_sweeping
  | endSweep | clear => cases hc
  | _ => exact hs todo hc

/-- The sweep can go on to its end with the submission still to come. -/
theorem sweep_run : ∀ (todo : List Xfer) {s : State κ}, s.failed = false → s.canceller = .sweeping todo →
    s.exec = .checked t → t ∉ s.inFlight → t ∉ s.cancelled → t ∉ todo →
      ∃ v, Runs.Reach (fun s a u => step s a = some u) NotBetween s v ∧ v.failed = false ∧
        v.canceller = .sweeping [] ∧ v.exec = .checked t ∧ t ∉ v.cancelled
  | [], s, hf, hc, he, _, hcan, _ => ⟨s, .init, hf, hc, he, hcan⟩
  | x :: todo, s, hf, hc, he, hfly, hcan, hnot => by
    rw [List.mem_cons, not_or] at hnot
    have hcan' : t ∉ if x ∈ s.inFlight then s.cancelled ++ [x] else s.cancelled := by
      by_cases hx : x ∈ s.inFlight
      · rw [if_pos hx, List.mem_append, List.mem_singleton, not_or]
        exact ⟨hcan, hnot.1⟩
      · rw [if_neg hx]
        exact hcan
    have hst : step s .libusbCancelTransfer = some { s with
        cancelled := if x ∈ s.inFlight then s.cancelled ++ [x] else s.cancelled
        canceller := .sweeping todo } := by
      simp [step, hf, hc]
    have hok : NotBetween s .libusbCancelTransfer := by
      intro _ y hy hexec
      rw [hc] at hy
      rw [List.mem_singleton.mp hy, he] at hexec
      exact hnot.1 (Exec.checked.inj hexec)
    obtain ⟨v, hv, hrest⟩ := sweep_run todo (s := { s with
      cancelled := if x ∈ s.inFlight then s.cancelled ++ [x] else s.cancelled
      canceller := .sweeping todo }) hf rfl he hfly hcan' hnot.2
    exact ⟨v, (Runs.Reach.init.step hok hst).trans hv, hrest⟩

/-- One cancel between check and submission can lead to a transfer that is
submitted and was not cancelled: no other of the run comes there. -/
theorem missed_of_between (h : Reaches NotBetween s) (hst : step s a = some u) (ha : ¬ NotBetween s a) :
    ∃ v, Runs.Reach (fun s a u => step s a = some u) NotBetween u v ∧ ¬ MissesNothing v := by
  obtain ⟨rfl, t, hnext, he⟩ : a = .libusbCancelTransfer ∧ ∃ t ∈ s.canceller.next, s.exec = .checked t := by
    simpa [NotBetween] using ha
  obtain ⟨hf, hstep⟩ := step_cases hst
  cases hstep with
  | @libusbCancelTransfer x todo hc =>
    have ho : Owned s := (owned_or_done h.any).resolve_right fun hdone => nomatch hc.symm.trans hdone
    have hnot : x ∉ todo := (List.nodup_cons.mp (nodup_of_sweeping h.any hc)).1
    rw [hc] at hnext
    obtain rfl := List.mem_singleton.mp hnext
    have hexec : t ∈ s.exec.users := by
      rw [he]
      exact List.mem_singleton_self t
    have hfly : t ∉ s.inFlight := fun hmem => by
      have hone := (ho.alone (ho.mem_of_exec hexec)).2.2.2
      have hcount := List.count_pos_iff.mpr hexec
      have hcount' := List.count_pos_iff.mpr hmem
      rw [count_users] at hone
      omega
    have hcan : t ∉ s.cancelled := fun hmem => (not_exec_of_cancelled h.any t hmem).2 hexec
    rw [if_neg hfly]
    obtain ⟨v, hv, hfv, hcv, hev, hcanv⟩ := sweep_run todo (s := { s with canceller := .sweeping todo })
      hf rfl he hfly hcan hnot
    have hend : step v .endSweep = some { v with transfersCanceled := true, canceller := .waiting } := by
      simp [step, hfv, hcv]
    have hsub : step { v with transfersCanceled := true, canceller := .waiting } .libusbSubmitTransfer =
        some { v with
          transfersCanceled := true
          canceller := .waiting
          inFlight := v.inFlight ++ [t]
          exec := .idle } := by
      simp [step, hfv, hev]
    have hrun := hv.step (a := .endSweep) (fun ha => nomatch ha) hend
    refine ⟨_, hrun.step (a := .libusbSubmitTransfer) (fun ha => nomatch ha) hsub, fun hmiss => ?_⟩
    exact hcanv (hmiss rfl t (List.mem_append_right _ (List.mem_singleton_self t)))

end PendingMap
end Viu
