/-
# Submissions that libusb refuses

When `libusb_submit_transfer` returns an error, `submit` asserts that it did
not, and a Release build goes on. The transfer is in the map and libusb does
not have it, so no event takes it out: it is never released, its callback never
runs, and the wait loop of `cancel` never finds the map empty (`Stuck`). To the
threads of the device it is a transfer that does not complete; what they reply
to an endpoint submit never has a negative status.
-/
import Viu.Outcome
import Viu.PendingOwners

namespace Viu

open Bytes

/-! ### The command of the transfer -/

section reply

variable {E : Order} {d : Device} {D : State} {ok : State → Act → Prop} {p : Pending} {r : Reply} {j : Job}

/-- One RET_SUBMIT, with a negative status. -/
def Refused (E : Order) (D : State) (j : Job) : Prop :=
  ∃ r, (D.produced.filter fun r => decide (r.job = j)) = [r] ∧ isRetSubmit E j.cmd.seqnum r.rep = true ∧
    (r.rep.status E).toInt < 0

theorem not_refused (h : Run E ok d D) (hj : j.isEpIn = true ∨ j.isEpOut = true) : ¬ Refused E D j := by
  rintro ⟨r, hone, -, hneg⟩
  have hmem : r ∈ D.produced.filter fun r => decide (r.job = j) := by rw [hone]; exact List.mem_cons_self
  obtain ⟨hr, hrj⟩ := List.mem_filter.mp hmem
  have hzero : r.rep.status E = 0 := status_eq_zero h hr (by rwa [of_decide_eq_true hrj])
  rw [hzero] at hneg
  exact absurd hneg (by decide)

/-- Before its transfer completes an OUT submit is not replied to. -/
theorem job_ne_of_pending (h : Run E ok d D) (hp : p ∈ D.pending) (hout : p.job.isEpOut = true)
    (hr : r ∈ D.produced) : r.job ≠ p.job := by
  intro hj
  have hc := conserved h fun i => decide (i = p.job)
  have hnd : D.received.Nodup := (List.nodup_append.mp (sent_nodup h)).1
  have hone : D.received.countP (fun i => decide (i = p.job)) ≤ 1 := by
    refine le_trans (le_of_eq (List.countP_congr fun i _ => ?_)) (List.nodup_iff_count_le_one.mp hnd p.job)
    simp
  have hmade : 0 < D.made fun i => decide (i = p.job) :=
    List.countP_pos_iff.mpr ⟨r, hr, decide_eq_true hj⟩
  have hpend : 0 < D.pending.countP fun q => q.job.isEpOut && decide (q.job = p.job) :=
    List.countP_pos_iff.mpr ⟨p, hp, by simp [hout]⟩
  simp only [Conserved, State.inFlight] at hc
  omega

end reply

namespace PendingMap

open Table

variable {κ : Type} {s u v : State κ} {a : Act κ} {t : Xfer} {res : I32}

/-! ### The Release build -/

/-- The moves, with libusb's refusal of a submission. -/
inductive Move (κ : Type)
  | act (a : Act κ)
  /-- `libusb_submit_transfer` returns `res`. -/
  | refuse (res : I32)
  deriving DecidableEq, Repr

/-- After an assertion that failed; `find` without a result is undefined. -/
def State.goOn (s : State κ) : Act κ → State κ
  | .attach t cb => { s with attached := s.attached ++ [(t, cb)], exec := .attached t }
  | .submit =>
    match s.exec with
    | .attached t => { s with exec := .dropping t }
    | _ => s.fail
  | .onTransferCompletedImpl =>
    match s.event with
    | .completed t status =>
      if status = .timedOut ∨ status = .cancelled then { s with event := .releasing t } else s.fail
    | _ => s.fail
  | _ => s.fail

def release (s : State κ) : Move κ → Option (State κ)
  | .act a => (step s a).map fun u => if u.failed then s.goOn a else u
  | .refuse res =>
    match s.exec with
    | .checked _ =>
      -- the assertion is all there is
      if s.failed = false ∧ res ≠ LIBUSB_SUCCESS then some { s with exec := .idle } else none
    | _ => none

theorem goOn_same : (s.goOn a).canceller = s.canceller ∧ (s.goOn a).transfersCanceled = s.transfersCanceled := by
  unfold State.goOn
  split
  · exact ⟨rfl, rfl⟩
  · split <;> exact ⟨rfl, rfl⟩
  · split
    · split <;> exact ⟨rfl, rfl⟩
    · exact ⟨rfl, rfl⟩
  · exact ⟨rfl, rfl⟩

theorem goOn_exec (h : (s.goOn a).exec = .checked t) : s.exec = .checked t := by
  unfold State.goOn at h
  split at h
  · cases h
  · split at h
    · cases h
    · exact h
  · split at h
    · split at h <;> exact h
    · exact h
  · exact h

/-- `u` follows `s`. -/
abbrev Follows (s u : State κ) : Prop := Runs.Reach (fun s m u => release s m = some u) Runs.Any s u

theorem refuse_cases (h : release s (.refuse res) = some u) :
    ∃ t, s.exec = .checked t ∧ u = { s with exec := .idle } := by
  simp only [release] at h
  split at h
  · rename_i t he
    obtain ⟨-, ⟨⟩⟩ := Option.ite_none_right_eq_some.mp h
    exact ⟨t, he, rfl⟩
  · cases h

/-- Where the invariant holds no other assertion fails. -/
theorem Owned.act_cases (h : Owned s) (hst : release s (.act a) = some u) : Step s a u := by
  obtain ⟨w, hw, rfl⟩ := Option.map_eq_some_iff.mp hst
  obtain ⟨hs, hstep⟩ := step_cases hw
  have hok : w.failed = false := by
    by_cases ha : a = .clear
    · subst ha
      cases hstep
      exact hs
    · exact (owned_step h hstep fun hc => absurd hc ha).asserted
  rw [hok]
  exact hstep

/-- The transfer stays in the map, without a user. -/
theorem Owned.refuse (h : Owned s) (he : s.exec = .checked t) : Owned { s with exec := .idle } := by
  refine { h with balance := fun x => ?_, users := fun x => ?_ }
  · have hb := h.balance x
    rw [count_places, he] at hb
    rw [count_places]
    exact hb
  · have hu := h.users x
    rw [count_users, he] at hu
    rw [count_users]
    simp only [Exec.users, List.count_nil] at hu ⊢
    omega

/-- The sweep is over. -/
def Canceller.swept : Canceller → Bool
  | .running | .sweeping _ => false
  | .waiting | .clearing | .done => true

/-- The wait loop is over. -/
def Canceller.over : Canceller → Bool
  | .running | .sweeping _ | .waiting => false
  | .clearing | .done => true

theorem swept_of_over {c : Canceller} (h : c.over = true) : c.swept = true := by
  cases c with
  | clearing | done => rfl
  | _ => cases h

/-- What holds in every run of the Release build. -/
structure Sound (s : State κ) : Prop where
  owned : Owned s ∨ s.canceller = .done
  flag : s.canceller.swept = true → s.transfersCanceled = true
  unchecked : s.canceller.over = true → ∀ t, s.exec ≠ .checked t

theorem sound_init : Sound (State.init κ) where
  owned := .inl owned_init
  flag h := nomatch h
  unchecked h := nomatch h

theorem Sound.owned_of (h : Sound s) {c : Canceller} (hc : s.canceller = c) (hne : c ≠ .done) : Owned s :=
  h.owned.resolve_right fun hdone => hne (hc.symm.trans hdone)

theorem Sound.step (h : Sound s) (hst : Step s a u) : Sound u := by
  refine ⟨?_, ?_, ?_⟩
  · rcases h.owned with ho | hdone
    · by_cases ha : a = .clear
      · subst ha
        cases hst
        exact .inr rfl
      · exact .inl (owned_step ho hst fun hc => absurd hc ha)
    · exact .inr (hst.done hdone)
  · cases hst with
    | cancel | libusbCancelTransfer => exact fun hc => nomatch hc
    | endSweep => exact fun _ => rfl
    | waitForCanceledTransfers hc | clear hc => exact fun _ => h.flag (by rw [hc]; rfl)
    | _ => exact h.flag
  · cases hst with
    | submitCheck he hl hc =>
      intro hover
      exact nomatch hc.symm.trans (h.flag (swept_of_over hover))
    | cancel | libusbCancelTransfer | endSweep => exact fun hc => nomatch hc
    | waitForCanceledTransfers hc =>
      intro hover t he
      have hmem : t ∈ keys s.pendingTransfers :=
        (h.owned_of hc (fun hd => nomatch hd)).mem_of_exec (by rw [he]; exact List.mem_singleton_self t)
      have hne : s.pendingTransfers ≠ [] := by
        rintro hnil
        rw [hnil] at hmem
        cases hmem
      rw [if_neg hne] at hover
      cases hover
    | clear hc => exact fun _ => h.unchecked (by rw [hc]; rfl)
    | attach | submitDrop | libusbSubmitTransfer | dropTransfer => exact fun _ t he => nomatch he
    | _ => exact h.unchecked

theorem Sound.refuse (h : Sound s) (he : s.exec = .checked t) : Sound { s with exec := .idle } where
  owned := h.owned.imp_left fun ho => ho.refuse he
  flag := h.flag
  unchecked _ _ hidle := nomatch hidle

theorem Sound.release {m : Move κ} (h : Sound s) (hst : release s m = some u) : Sound u := by
  cases m with
  | refuse res =>
    obtain ⟨t, he, rfl⟩ := refuse_cases hst
    exact h.refuse he
  | act a =>
    rcases h.owned with ho | hdone
    · exact h.step (ho.act_cases hst)
    · obtain ⟨w, hw, rfl⟩ := Option.map_eq_some_iff.mp hst
      split
      · -- an assertion may fail after `clear`
        obtain ⟨hcan, hflag⟩ := goOn_same (s := s) (a := a)
        refine ⟨.inr (hcan.trans hdone), fun hs => ?_, fun hover t he => ?_⟩
        · rw [hflag]
          rw [hcan] at hs
          exact h.flag hs
        · rw [hcan] at hover
          exact h.unchecked hover t (goOn_exec he)
      · exact h.step (step_cases hw).2

theorem sound_of_follows (h : Follows (State.init κ) s) : Sound s :=
  h.invariant sound_init fun _ _ _ hs _ hst => hs.release hst

/-! ### The transfer is stuck -/

/-- In the map, without a user, and the wait loop not over. -/
structure Stuck (t : Xfer) (s : State κ) : Prop where
  owned : Owned s
  pending : t ∈ keys s.pendingTransfers
  unused : t ∉ s.users
  waiting : s.canceller.over = false

theorem stuck_of_refuse (h : Sound s) (he : s.exec = .checked t) : Stuck t { s with exec := .idle } := by
  have hover : s.canceller.over = false := Bool.eq_false_iff.mpr fun hover => h.unchecked hover t he
  have ho : Owned s := h.owned.resolve_right fun hdone => by
    rw [hdone] at hover
    cases hover
  have hpend : t ∈ keys s.pendingTransfers := ho.mem_of_exec (by rw [he]; exact List.mem_singleton_self t)
  refine ⟨ho.refuse he, hpend, fun huse => ?_, hover⟩
  -- the execution thread was its user
  have hone := (ho.alone hpend).2.2.2
  have hpos := List.count_pos_iff.mpr huse
  rw [count_users, he] at hone
  rw [count_users] at hpos
  simp only [Exec.users, List.count_nil, List.count_singleton_self] at hone hpos
  omega

theorem Stuck.ne_of_exec (h : Stuck t s) {x : Xfer} (hx : x ∈ s.exec.users) : t ≠ x := by
  rintro rfl
  exact h.unused (List.mem_append_left _ (List.mem_append_left _ hx))

theorem Stuck.ne_of_event (h : Stuck t s) {x : Xfer} (hx : x ∈ s.event.users) : t ≠ x := by
  rintro rfl
  exact h.unused (List.mem_append_right _ hx)

theorem mem_keys_remove {m : List (Xfer × κ)} {x : Xfer} (h : t ∈ keys m) (hne : t ≠ x) : t ∈ keys (remove m x) := by
  obtain ⟨e, he, rfl⟩ := List.mem_map.mp h
  exact mem_keys_of_mem (mem_remove.mpr ⟨he, hne⟩)

/-- The parts of `users`. -/
theorem not_mem_users : t ∉ s.users ↔ t ∉ s.exec.users ∧ t ∉ s.inFlight ∧ t ∉ s.event.users := by
  simp only [State.users, List.mem_append, not_or, and_assoc]

/-- The loop waits, so the map is not cleared. -/
theorem Stuck.ne_clear (h : Stuck t s) (hst : Step s a u) : a ≠ .clear := by
  rintro rfl
  cases hst with
  | clear hc =>
    have hw := h.waiting
    rw [hc] at hw
    cases hw

theorem Stuck.pending_step (h : Stuck t s) (hst : Step s a u) : t ∈ keys u.pendingTransfers := by
  cases hst with
  | attach =>
    rw [keys_append]
    exact List.mem_append_left _ h.pending
  | submitDrop he => exact mem_keys_remove h.pending (h.ne_of_exec (by rw [he]; exact List.mem_singleton_self _))
  | completeDrop hv | completeCall hv =>
    exact mem_keys_remove h.pending (h.ne_of_event (by rw [hv]; exact List.mem_singleton_self _))
  | clear hc => exact absurd rfl (h.ne_clear (.clear hc))
  | _ => exact h.pending

/-- No thread comes by it again: only a transfer that is in flight completes. -/
theorem Stuck.unused_step (h : Stuck t s) (hst : Step s a u) : t ∉ u.users := by
  obtain ⟨hexec, hfly, hevent⟩ := not_mem_users.mp h.unused
  apply not_mem_users.mpr
  cases hst with
  | @attach x cb he hl hf =>
    refine ⟨fun hx => hf ?_, hfly, hevent⟩
    rw [← List.mem_singleton.mp hx]
    exact h.owned.attached_of_mem h.pending
  | submitCheck he =>
    rw [he] at hexec
    exact ⟨hexec, hfly, hevent⟩
  | submitDrop | dropTransfer => exact ⟨List.not_mem_nil, hfly, hevent⟩
  | libusbSubmitTransfer he =>
    rw [he] at hexec
    refine ⟨List.not_mem_nil, fun hx => ?_, hevent⟩
    exact (List.mem_append.mp hx).elim hfly hexec
  | @libusbComplete x status hv hx =>
    refine ⟨hexec, fun hx' => hfly (List.mem_of_mem_erase hx'), fun ht => hfly ?_⟩
    rw [List.mem_singleton.mp ht]
    exact hx
  | completeDrop | completeCall | handRelease | handCall => exact ⟨hexec, hfly, List.not_mem_nil⟩
  | _ => exact ⟨hexec, hfly, hevent⟩

theorem Stuck.waiting_step (h : Stuck t s) (hst : Step s a u) : u.canceller.over = false := by
  have hne : s.pendingTransfers ≠ [] := fun hnil => by
    have hp := h.pending
    rw [hnil] at hp
    cases hp
  cases hst with
  | cancel | libusbCancelTransfer | endSweep => rfl
  | waitForCanceledTransfers =>
    rw [if_neg hne]
    rfl
  | clear hc => exact absurd rfl (h.ne_clear (.clear hc))
  | _ => exact h.waiting

theorem Stuck.step (h : Stuck t s) (hst : Step s a u) : Stuck t u where
  owned := owned_step h.owned hst fun hc => absurd hc (h.ne_clear hst)
  pending := h.pending_step hst
  unused := h.unused_step hst
  waiting := h.waiting_step hst

/-- Whatever follows, it stays so. -/
theorem stuck_run (h : Stuck t u) (hv : Follows u v) : Stuck t v := by
  refine hv.invariant h fun s m w hs _ hst => ?_
  cases m with
  | act a => exact hs.step (hs.owned.act_cases hst)
  | refuse res =>
    obtain ⟨x, he, rfl⟩ := refuse_cases hst
    obtain ⟨-, hfly, hevent⟩ := not_mem_users.mp hs.unused
    exact ⟨hs.owned.refuse he, hs.pending, not_mem_users.mpr ⟨List.not_mem_nil, hfly, hevent⟩, hs.waiting⟩

/-! ### What a refused submission leaves -/

/-- The moves of the thread in `cancel`. -/
def Move.isCancelling : Move κ → Bool
  | .act .libusbCancelTransfer | .act .endSweep | .act .waitForCanceledTransfers | .act .clear => true
  | _ => false

/-- Once all but `t` are out of the map a cancel under way comes to its end. -/
def CancelReturns (t : Xfer) (u : State κ) : Prop :=
  ∀ v, Follows u v → v.canceller ≠ .running → (∀ x ∈ keys v.pendingTransfers, x = t) →
    ∃ w, Runs.Reach (fun s m u => release s m = some u) (fun _ m => m.isCancelling = true) v w ∧ w.canceller = .done

/-- The submission of `t`, the transfer of `j`, has left nothing behind. `D` is
what the threads of the device have come to. -/
structure LeavesNothing (E : Order) (D : Viu.State) (s u : State κ) (t : Xfer) (j : Job) : Prop where
  removed : t ∉ keys u.pendingTransfers
  releasedOnce : u.released.count t = 1
  others : remove u.pendingTransfers t = remove s.pendingTransfers t
  refused : ∃ D', Runs.Reach (fun s a u => Viu.step E s a = some u) Runs.Any D D' ∧ Refused E D' j
  cancelReturns : CancelReturns t u

/-- **A refused submission** leaves the transfer behind, in every run of the
Release build: it stays in the map, no cancel returns, and the command is never
refused; as long as the transfer does not complete an OUT submit has no reply. -/
theorem refused_stays {s u : State Job} (h : Follows (State.init Job) s) (hst : release s (.refuse res) = some u) :
    ∃ t j, s.exec = .checked t ∧ (t, j) ∈ s.pendingTransfers ∧ u.pendingTransfers = s.pendingTransfers ∧
      (∀ v, Follows u v →
        t ∈ keys v.pendingTransfers ∧ t ∉ v.released ∧ t ∉ keys v.called ∧ v.canceller ≠ .done) ∧
      ∀ E ok d D, Run E ok d D → ∀ p ∈ D.pending, p.job = j →
        (∀ D', Runs.Reach (fun s a u => Viu.step E s a = some u) Runs.Any D D' → ¬ Refused E D' j) ∧
        (∀ r ∈ D.produced, r.job = j → j.isEpIn = true) ∧ ¬ LeavesNothing E D s u t j := by
  obtain ⟨t, he, rfl⟩ := refuse_cases hst
  have hstuck := stuck_of_refuse (sound_of_follows h) he
  obtain ⟨⟨t, j⟩, hmem, rfl⟩ := List.mem_map.mp hstuck.pending
  refine ⟨t, j, he, hmem, rfl, fun v hv => ?_, fun E ok d D hD p hp hj => ?_⟩
  · have hs := stuck_run hstuck hv
    obtain ⟨-, hreleased, hcalled, -⟩ := hs.owned.alone hs.pending
    refine ⟨hs.pending, hreleased, hcalled, fun hdone => ?_⟩
    have hw := hs.waiting
    rw [hdone] at hw
    cases hw
  · subst hj
    have hep := ((held_run hD).pending p hp).isEp
    refine ⟨fun D' hD' => not_refused (hD.any.trans hD') hep, fun r hr hrj => ?_, ?_⟩
    · apply hep.resolve_right
      intro hout
      exact job_ne_of_pending hD hp hout hr hrj
    · exact fun hleaves => hleaves.removed hstuck.pending

/-- The host's IN submit. -/
def oneIn : Job := ⟨0, .submit 1 USBIP_DIR_IN 1 2⟩

/-- What the threads have done for it. -/
def submittedOne : Viu.State :=
  Viu.State.after .little { Device.mock [.bulk 0x81] with isMock := false } (fetch oneIn.cmd ++ [.submitIn, .pushIn])

/-- Its transfer is attached, and about to be submitted. -/
def aboutToSubmit : List (Move Job) := [.act (.attach 0 oneIn), .act .submit]

/-- `LIBUSB_ERROR_NO_DEVICE`. -/
def LIBUSB_ERROR_NO_DEVICE : I32 := BitVec.ofInt 32 (-4)

theorem refused_stays_noDevice : ∃ s u : State Job, Runs.follow release (State.init Job) aboutToSubmit = some s ∧
    release s (.refuse LIBUSB_ERROR_NO_DEVICE) = some u ∧
    ∀ v, Follows u v → keys v.pendingTransfers ≠ [] ∧ v.canceller ≠ .done := by
  refine ⟨_, _, rfl, rfl, ?_⟩
  have hrun : Follows (State.init Job) _ := Runs.reach_follow aboutToSubmit rfl (.any _ _)
  obtain ⟨t, j, -, -, -, hstay, -⟩ := @refused_stays LIBUSB_ERROR_NO_DEVICE _ _ hrun rfl
  exact fun v hv => ⟨List.ne_nil_of_mem (hstay v hv).1, (hstay v hv).2.2.2⟩

/-- The device has gone. -/
theorem not_leavesNothing_noDevice : ¬ ∀ (s u : State Job) (res : I32) (t : Xfer) (j : Job) (E : Order) (d : Device)
    (D : Viu.State) (p : Pending), Follows (State.init Job) s → release s (.refuse res) = some u →
      s.exec = .checked t → (t, j) ∈ s.pendingTransfers → Run E Runs.Any d D → p ∈ D.pending → p.job = j →
        LeavesNothing E D s u t j := by
  intro h
  have hrun : Follows (State.init Job) _ := Runs.reach_follow aboutToSubmit rfl (.any _ _)
  have hD : Run .little Runs.Any { Device.mock [.bulk 0x81] with isMock := false } submittedOne :=
    run_after (by decide +kernel) (.any _ _)
  obtain ⟨p, hp, hj⟩ : ∃ p ∈ submittedOne.pending, p.job = oneIn := by decide +kernel
  have hleaves := h _ _ LIBUSB_ERROR_NO_DEVICE 0 oneIn .little _ submittedOne p hrun rfl rfl
    (List.mem_singleton_self _) hD hp hj
  exact hleaves.removed (List.mem_singleton_self _)

end PendingMap
end Viu
