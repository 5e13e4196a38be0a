/-
# Pending transfers are conserved

A transfer is in one place: in the map, in the hand of the thread that has
taken it out, released, or given to its callback (`State.places`). The
invariant counts: a transfer is in as many places as it was attached times
(`Owned.balance`), and whoever may still look one up finds it in the map
(`Owned.users`), so that no assertion fails.

`cancel` breaks it. The wait loop gives the mutex back before `clear` takes
it, and a transfer attached in between leaves the map with nobody to release
it. `conserved_iff_clear` says that this is all that can go wrong.
-/
import Viu.PendingMap

namespace Viu
namespace PendingMap

open Table

variable {κ : Type} {s u : State κ} {a : Act κ} {x : Xfer}

/-! ### Where a transfer is -/

def Exec.hand : Exec → List Xfer
  | .idle | .attached _ | .checked _ => []
  | .dropping t => [t]

def Event.hand : Event κ → List Xfer
  | .idle | .completed _ _ => []
  | .releasing t => [t]
  | .calling e => [e.1]

/-- Taken out of the map, to be released or handed over next. -/
def State.hand (s : State κ) : List Xfer := s.exec.hand ++ s.event.hand

def State.places (s : State κ) : List Xfer :=
  keys s.pendingTransfers ++ s.hand ++ s.released ++ keys s.called

theorem count_places : s.places.count x =
    (keys s.pendingTransfers).count x + (s.exec.hand.count x + s.event.hand.count x) + s.released.count x +
      (keys s.called).count x := by
  simp only [State.places, State.hand, List.count_append]

def Exec.users : Exec → List Xfer
  | .idle | .dropping _ => []
  | .attached t | .checked t => [t]

def Event.users : Event κ → List Xfer
  | .idle | .releasing _ | .calling _ => []
  | .completed t _ => [t]

/-- Will be looked up in the map. -/
def State.users (s : State κ) : List Xfer := s.exec.users ++ s.inFlight ++ s.event.users

theorem count_users : s.users.count x = s.exec.users.count x + s.inFlight.count x + s.event.users.count x := by
  simp only [State.users, List.count_append]

/-- Completed, with a status for which the callback runs. -/
def State.Finished (s : State κ) (t : Xfer) : Prop :=
  ∃ status, (t, status) ∈ s.completed ∧ status ≠ .timedOut ∧ status ≠ .cancelled

/-- What the code promises of the transfers. -/
structure Conserved (s : State κ) : Prop where
  releasedOnce : s.released.Nodup
  calledOnce : (keys s.called).Nodup
  apart : ∀ t ∈ s.released, t ∉ keys s.called
  /-- Nothing leaves the map but to be released or handed to its callback. -/
  kept : ∀ t ∈ keys s.attached, t ∈ keys s.pendingTransfers ∨ t ∈ s.hand ∨ t ∈ s.released ∨ t ∈ keys s.called
  /-- With the callback it was attached with. -/
  finished : ∀ e ∈ s.called, e ∈ s.attached ∧ s.Finished e.1
  asserted : s.failed = false

/-! ### The invariant -/

structure Owned (s : State κ) : Prop where
  nodup : (keys s.attached).Nodup
  balance : ∀ x, s.places.count x = (keys s.attached).count x
  users : ∀ x, s.users.count x ≤ (keys s.pendingTransfers).count x
  pending : ∀ e ∈ s.pendingTransfers, e ∈ s.attached
  event : ∀ t status, s.event = .completed t status → (t, status) ∈ s.completed
  calling : ∀ e, s.event = .calling e → e ∈ s.attached ∧ s.Finished e.1
  called : ∀ e ∈ s.called, e ∈ s.attached ∧ s.Finished e.1
  asserted : s.failed = false

theorem Owned.nodup_places (h : Owned s) : s.places.Nodup := by
  refine List.nodup_iff_count_le_one.mpr fun x => ?_
  rw [h.balance x]
  exact List.nodup_iff_count_le_one.mp h.nodup x

theorem Owned.mem_of_users (h : Owned s) (hx : x ∈ s.users) : x ∈ keys s.pendingTransfers := by
  have hpos := List.count_pos_iff.mpr hx
  have hle := h.users x
  exact List.count_pos_iff.mp (by omega)

theorem Owned.attached_of_mem (h : Owned s) (hx : x ∈ keys s.pendingTransfers) : x ∈ keys s.attached := by
  obtain ⟨e, he, rfl⟩ := List.mem_map.mp hx
  exact mem_keys_of_mem (h.pending e he)

/-- What is in the map is nowhere else, and has one user at most. -/
theorem Owned.alone (h : Owned s) (hx : x ∈ keys s.pendingTransfers) :
    x ∉ s.hand ∧ x ∉ s.released ∧ x ∉ keys s.called ∧ s.users.count x ≤ 1 := by
  have hone := List.nodup_iff_count_le_one.mp h.nodup_places x
  have huse := h.users x
  have hapart := h.nodup_places
  simp only [State.places, List.append_assoc] at hapart
  have hout : x ∉ s.hand ++ (s.released ++ keys s.called) := List.disjoint_of_nodup_append hapart hx
  rw [List.mem_append, List.mem_append, not_or, not_or] at hout
  rw [count_places] at hone
  exact ⟨hout.1, hout.2.1, hout.2.2, by omega⟩

theorem Owned.conserved (h : Owned s) : Conserved s where
  releasedOnce := h.nodup_places.sublist ((List.sublist_append_right _ _).trans (List.sublist_append_left _ _))
  calledOnce := h.nodup_places.sublist (List.sublist_append_right _ _)
  apart := fun _ ht => List.disjoint_of_nodup_append h.nodup_places (List.mem_append_right _ ht)
  kept := by
    intro t ht
    have hpos : 0 < s.places.count t := by
      rw [h.balance t]
      exact List.count_pos_iff.mpr ht
    have hmem := List.count_pos_iff.mp hpos
    simpa only [State.places, List.mem_append, or_assoc] using hmem
  finished := h.called
  asserted := h.asserted

theorem owned_init : Owned (State.init κ) where
  nodup := List.nodup_nil
  balance _ := rfl
  users _ := le_rfl
  pending _ h := (nomatch h)
  event _ _ h := (nomatch h)
  calling _ h := (nomatch h)
  called _ h := (nomatch h)
  asserted := rfl

/-- Attached and used by the execution thread. -/
theorem Owned.mem_of_exec (h : Owned s) (hx : x ∈ s.exec.users) : x ∈ keys s.pendingTransfers :=
  h.mem_of_users (List.mem_append_left _ (List.mem_append_left _ hx))

theorem Owned.mem_of_event (h : Owned s) (hx : x ∈ s.event.users) : x ∈ keys s.pendingTransfers :=
  h.mem_of_users (List.mem_append_right _ hx)

theorem Owned.count_remove (h : Owned s) {t : Xfer} (ht : t ∈ keys s.pendingTransfers) :
    (keys (remove s.pendingTransfers t)).count x + [t].count x = (keys s.pendingTransfers).count x := by
  have hpos := List.count_pos_iff.mpr ht
  have hone := List.nodup_iff_count_le_one.mp h.nodup_places t
  rw [count_places] at hone
  exact count_keys_remove_add (by omega)

theorem State.Finished.append {t : Xfer} (h : s.Finished t) (e : Xfer × LibusbTransferStatus) :
    ∃ status, (t, status) ∈ s.completed ++ [e] ∧ status ≠ .timedOut ∧ status ≠ .cancelled := by
  obtain ⟨status, hm, hs⟩ := h
  exact ⟨status, List.mem_append_left _ hm, hs⟩

/-! ### What the steps do to it -/

theorem owned_attach {t : Xfer} {cb : κ} (h : Owned s) (he : s.exec = .idle) (hf : t ∉ keys s.attached) :
    Owned { s with
      pendingTransfers := s.pendingTransfers ++ [(t, cb)]
      attached := s.attached ++ [(t, cb)]
      exec := .attached t } := by
  refine { h with nodup := ?_, balance := fun x => ?_, users := fun x => ?_, pending := fun e hm => ?_
                  calling := fun e hv => ?_, called := fun e hm => ?_ }
  · have hkeys : keys (s.attached ++ [(t, cb)]) = keys s.attached ++ [t] := keys_append _
    rw [hkeys]
    exact nodup_append_one h.nodup hf
  · have hb := h.balance x
    rw [count_places, he] at hb
    rw [count_places, count_keys_append, count_keys_append]
    simp only [Exec.hand, List.count_nil] at hb ⊢
    omega
  · have hu := h.users x
    rw [count_users, he] at hu
    rw [count_users, count_keys_append]
    simp only [Exec.users, List.count_nil] at hu ⊢
    omega
  · rcases List.mem_append.mp hm with hm | hm
    · exact List.mem_append_left _ (h.pending e hm)
    · exact List.mem_append_right _ hm
  · exact ⟨List.mem_append_left _ (h.calling e hv).1, (h.calling e hv).2⟩
  · exact ⟨List.mem_append_left _ (h.called e hm).1, (h.called e hm).2⟩

/-- A user of the transfer takes it out of the map, and has it in hand. -/
theorem owned_takeOut {t : Xfer} {e : Exec} {v : Event κ} (h : Owned s) (hp : t ∈ keys s.pendingTransfers)
    (hhand : ∀ x, e.hand.count x + v.hand.count x = s.exec.hand.count x + s.event.hand.count x + [t].count x)
    (husers : ∀ x, e.users.count x + v.users.count x + [t].count x = s.exec.users.count x + s.event.users.count x)
    (hv : ∀ t status, v = .completed t status → s.event = .completed t status)
    (hcalling : ∀ c, v = .calling c → c ∈ s.attached ∧ s.Finished c.1) :
    Owned { s with pendingTransfers := remove s.pendingTransfers t, exec := e, event := v } := by
  refine { h with balance := fun x => ?_, users := fun x => ?_, pending := fun c hm => ?_
                  event := fun t' status hc => h.event t' status (hv t' status hc), calling := hcalling }
  · have hb := h.balance x
    have hrem := h.count_remove hp (x := x)
    have hx := hhand x
    rw [count_places] at hb ⊢
    dsimp only
    omega
  · have hu := h.users x
    have hrem := h.count_remove hp (x := x)
    have hx := husers x
    rw [count_users] at hu ⊢
    dsimp only
    omega
  · exact h.pending c (mem_remove.mp hm).1

theorem owned_libusbSubmitTransfer {t : Xfer} (h : Owned s) (he : s.exec = .checked t) :
    Owned { s with inFlight := s.inFlight ++ [t], exec := .idle } := by
  refine { h with balance := fun x => ?_, users := fun x => ?_ }
  · have hb := h.balance x
    rw [count_places, he] at hb
    rw [count_places]
    exact hb
  · have hu := h.users x
    rw [count_users, he] at hu
    rw [count_users]
    simp only [Exec.users, List.count_nil, List.count_append] at hu ⊢
    omega

theorem owned_libusbComplete {t : Xfer} {status : LibusbTransferStatus} (h : Owned s) (hv : s.event = .idle)
    (ht : t ∈ s.inFlight) :
    Owned { s with
      inFlight := s.inFlight.erase t
      event := .completed t status
      completed := s.completed ++ [(t, status)] } := by
  refine { h with balance := fun x => ?_, users := fun x => ?_, event := fun t' status' he => ?_
                  calling := fun e he => ?_, called := fun e hm => ?_ }
  · have hb := h.balance x
    rw [count_places, hv] at hb
    rw [count_places]
    exact hb
  · have hu := h.users x
    have herase := count_erase_add ht (x := x)
    rw [count_users, hv] at hu
    rw [count_users]
    simp only [Event.users, List.count_nil] at hu ⊢
    omega
  · cases he
    exact List.mem_append_right _ (List.mem_singleton_self _)
  · cases he
  · exact ⟨(h.called e hm).1, (h.called e hm).2.append _⟩

/-- A thread releases what it has in hand. -/
theorem owned_release {t : Xfer} {e : Exec} {v : Event κ} (h : Owned s)
    (hhand : ∀ x, e.hand.count x + v.hand.count x + [t].count x = s.exec.hand.count x + s.event.hand.count x)
    (husers : ∀ x, e.users.count x + v.users.count x = s.exec.users.count x + s.event.users.count x)
    (hv : ∀ t status, v = .completed t status → s.event = .completed t status)
    (hcalling : ∀ c, v = .calling c → s.event = .calling c) :
    Owned { s with released := s.released ++ [t], exec := e, event := v } := by
  refine { h with balance := fun x => ?_, users := fun x => ?_
                  event := fun t' status hc => h.event t' status (hv t' status hc)
                  calling := fun c hc => h.calling c (hcalling c hc) }
  · have hb := h.balance x
    have hx := hhand x
    rw [count_places] at hb ⊢
    simp only [List.count_append]
    omega
  · have hu := h.users x
    have hx := husers x
    rw [count_users] at hu ⊢
    dsimp only
    omega

theorem owned_handCall {e : Xfer × κ} (h : Owned s) (hv : s.event = .calling e) :
    Owned { s with called := s.called ++ [e], event := .idle } := by
  refine { h with balance := fun x => ?_, users := fun x => ?_, event := fun _ _ he => ?_
                  calling := fun e he => ?_, called := fun e' hm => ?_ }
  · have hb := h.balance x
    rw [count_places, hv] at hb
    rw [count_places, count_keys_append]
    simp only [Event.hand, List.count_nil] at hb ⊢
    omega
  · have hu := h.users x
    rw [count_users, hv] at hu
    rw [count_users]
    exact hu
  · cases he
  · cases he
  · rcases List.mem_append.mp hm with hm | hm
    · exact h.called e' hm
    · rw [List.mem_singleton.mp hm]
      exact h.calling e hv

/-- A step keeps the invariant, unless `clear` throws a transfer away. -/
theorem owned_step (h : Owned s) (hst : Step s a u) (hclear : a = .clear → s.pendingTransfers = []) : Owned u := by
  cases hst with
  | attach he hl hf hp => exact owned_attach h he hf
  | attachTwice hf hp => exact absurd (h.attached_of_mem hp) hf
  | submitCheck he hl hc =>
    have hb := h.balance
    have hu := h.users
    simp only [count_places, he] at hb
    simp only [count_users, he] at hu
    refine { h with balance := fun x => ?_, users := fun x => ?_ }
    · rw [count_places]
      exact hb x
    · rw [count_users]
      exact hu x
  | @submitDrop t he hc hp =>
    refine owned_takeOut h hp (fun x => ?_) (fun x => ?_) (fun _ _ hv => hv) h.calling
    · simp only [he, Exec.hand, List.count_nil]
      omega
    · simp only [he, Exec.users, List.count_nil]
      omega
  | submitMissing he hc hp =>
    exact absurd (h.mem_of_exec (by rw [he]; exact List.mem_singleton_self _)) hp
  | libusbSubmitTransfer he => exact owned_libusbSubmitTransfer h he
  | dropTransfer he =>
    refine owned_release h (fun x => ?_) (fun x => ?_) (fun _ _ hv => hv) (fun _ hv => hv)
    · simp only [he, Exec.hand, List.count_nil]
      omega
    · simp only [he, Exec.users]
  | libusbComplete hv ht => exact owned_libusbComplete h hv ht
  | @completeDrop t status hv hs hp =>
    refine owned_takeOut h hp (fun x => ?_) (fun x => ?_) (fun _ _ hv => nomatch hv) (fun _ hv => nomatch hv)
    · simp only [hv, Event.hand, List.count_nil]
      omega
    · simp only [hv, Event.users, List.count_nil]
      omega
  | @completeCall t status cb hv hs hp =>
    have hkey : t ∈ keys s.pendingTransfers := mem_keys_of_mem hp
    refine owned_takeOut h hkey (fun x => ?_) (fun x => ?_) (fun _ _ hv => nomatch hv) (fun c hc => ?_)
    · simp only [hv, Event.hand, List.count_nil]
      omega
    · simp only [hv, Event.users, List.count_nil]
      omega
    · cases hc
      exact ⟨h.pending _ hp, status, h.event t status hv, not_or.mp hs⟩
  | @completeMissing t status hv hp =>
    exact absurd (h.mem_of_event (by rw [hv]; exact List.mem_singleton_self _)) hp
  | handRelease hv =>
    refine owned_release h (fun x => ?_) (fun x => ?_) (fun _ _ hv => nomatch hv) (fun _ hv => nomatch hv)
    · simp only [hv, Event.hand, List.count_nil]
      omega
    · simp only [hv, Event.users]
  | handCall hv => exact owned_handCall h hv
  | cancel | libusbCancelTransfer | endSweep | waitForCanceledTransfers => exact { h with }
  | clear hc =>
    have hnil := hclear rfl
    exact { h with
      balance := fun x => by simpa only [State.places, State.hand, hnil] using h.balance x
      users := fun x => by simpa only [State.users, hnil] using h.users x
      pending := fun e hm => (nomatch hm) }

/-! ### Runs -/

/-- `clear` finds nothing attached since the wait loop's last look. -/
def ClearsNothing (s : State κ) (a : Act κ) : Prop := a = .clear → s.pendingTransfers = []

abbrev Reaches (ok : State κ → Act κ → Prop) (s : State κ) : Prop :=
  Runs.Reach (fun s a u => step s a = some u) ok (State.init κ) s

theorem owned_of_reaches (h : Reaches ClearsNothing s) : Owned s :=
  h.invariant owned_init fun _ _ _ hs ha hst => owned_step hs (step_cases hst).2 ha

theorem Step.done (h : Step s a u) (hdone : s.canceller = .done) : u.canceller = .done := by
  cases h with
  | cancel hc | libusbCancelTransfer hc | endSweep hc | waitForCanceledTransfers hc | clear hc =>
    exact nomatch hdone.symm.trans hc
  | _ => exact hdone

/-- Up to `clear` the invariant holds in every run. -/
theorem owned_or_done (h : Reaches Runs.Any s) : Owned s ∨ s.canceller = .done := by
  refine h.invariant (I := fun s => Owned s ∨ s.canceller = .done) (.inl owned_init) fun s a u hs _ hst => ?_
  have hstep := (step_cases hst).2
  rcases hs with hs | hdone
  · by_cases ha : a = .clear
    · subst ha
      cases hstep
      exact .inr rfl
    · exact .inl (owned_step hs hstep fun h => absurd h ha)
  · exact .inr (hstep.done hdone)

/-- A transfer that `clear` throws away is in no other place. -/
theorem not_conserved_of_clear (h : Owned s) (hst : step s .clear = some u) (hp : s.pendingTransfers ≠ []) :
    ¬ Conserved u := by
  obtain ⟨e, hm⟩ := List.exists_mem_of_ne_nil _ hp
  have hkey : e.1 ∈ keys s.pendingTransfers := mem_keys_of_mem hm
  obtain ⟨hhand, hreleased, hcalled, -⟩ := h.alone hkey
  have hstep := (step_cases hst).2
  cases hstep with
  | clear =>
    intro hu
    rcases hu.kept e.1 (h.attached_of_mem hkey) with hin | hin | hin | hin
    · cases hin
    · exact hhand hin
    · exact hreleased hin
    · exact hcalled hin

/-- As long as `clear` throws nothing away the transfers are conserved, and a
step breaks it only there. -/
theorem conserved_iff_clear (h : Reaches ClearsNothing s) :
    Conserved s ∧ ∀ a u, step s a = some u → (Conserved u ↔ ClearsNothing s a) := by
  have hs := owned_of_reaches h
  refine ⟨hs.conserved, fun a u hst => ⟨fun hu ha => ?_, fun ha => ?_⟩⟩
  · by_contra hp
    subst ha
    exact not_conserved_of_clear hs hst hp hu
  · exact (owned_step hs (step_cases hst).2 ha).conserved

/-- No attach comes between the wait loop's last look and `clear`. -/
def NoLateAttach (s : State κ) (a : Act κ) : Prop := ∀ t cb, a = .attach t cb → s.canceller ≠ .clearing

/-- The map stays as empty as the wait loop has seen it. -/
theorem empty_of_clearing (h : Reaches NoLateAttach s) (hc : s.canceller = .clearing) : s.pendingTransfers = [] := by
  refine h.invariant (I := fun s => s.canceller = .clearing → s.pendingTransfers = []) (fun hc => nomatch hc)
    (fun s a u hs ha hst hc => ?_) hc
  have hremove : ∀ t, s.pendingTransfers = [] → remove s.pendingTransfers t = [] := fun t hnil => by
    rw [hnil]
    rfl
  cases (step_cases hst).2 with
  | attach => exact absurd hc (ha _ _ rfl)
  | submitDrop | completeDrop | completeCall => exact hremove _ (hs hc)
  | waitForCanceledTransfers =>
    by_cases hnil : s.pendingTransfers = []
    · exact hnil
    · simp [hnil] at hc
  | cancel | libusbCancelTransfer | endSweep | clear => cases hc
  | _ => exact hs hc

theorem clearsNothing_of_noLateAttach (h : Reaches NoLateAttach s) : Reaches ClearsNothing s := by
  refine h.invariant_of (J := fun s => s.canceller = .clearing → s.pendingTransfers = [])
    (fun _ hr => empty_of_clearing hr) .init fun s a u hs hr _ hst => hr.step (fun ha => ?_) hst
  subst ha
  cases (step_cases hst).2 with
  | clear hc => exact hs hc

instance [DecidableEq κ] (s : State κ) (a : Act κ) : Decidable (ClearsNothing s a) :=
  inferInstanceAs (Decidable (_ → _))

/-- A callback, a cancelled transfer, and one attached after the sweep. -/
def threeTransfers : List (Act Unit) :=
  [.attach 0 (), .submit, .libusbSubmitTransfer, .attach 1 (), .submit, .libusbSubmitTransfer,
    .libusbComplete 0 .completed, .onTransferCompletedImpl, .cancel, .handOver, .libusbCancelTransfer,
    .libusbComplete 1 .cancelled, .endSweep, .onTransferCompletedImpl, .attach 2 (), .waitForCanceledTransfers,
    .handOver, .submit, .dropTransfer, .waitForCanceledTransfers, .clear]

theorem conserved_threeTransfers : ∃ s, Runs.follow step (State.init Unit) threeTransfers = some s ∧
    s.canceller = .done ∧ s.released = [1, 2] ∧ s.called = [(0, ())] ∧ Conserved s :=
  ⟨_, rfl, rfl, rfl, rfl, (conserved_iff_clear (Runs.reach_follow threeTransfers rfl (by decide))).1⟩

/-- Attached between the wait loop's last look and `clear`. -/
def lateAttach : List (Act Unit) :=
  [.cancel, .endSweep, .waitForCanceledTransfers, .attach 0 (), .clear, .submit]

/-- The transfer is lost, and the assertion in `submit` fails. -/
theorem not_conserved_lateAttach : ¬ ∀ s : State Unit, Reaches Runs.Any s → Conserved s := by
  intro h
  have hrun : Reaches Runs.Any (κ := Unit) _ := Runs.reach_follow lateAttach rfl (by decide)
  have hfailed := (h _ hrun).asserted
  cases hfailed

end PendingMap
end Viu
