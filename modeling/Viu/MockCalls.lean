/-
# The plugin's calls and cancel

The plugin's pointers are outside the map, and `device::transfer_control_of`
does not look whether the transfer is still pending: nothing in the code keeps
a call off a transfer that `cancel` has released. `Guarded` is what a guard in
front of each step would have to ask of the state. Steps that it lets pass keep
every pointer with one owner (`Owned`), so every call finds its transfer live
and the map is empty in the end; any other step can be the one that goes wrong
(`not_safe_of_not_guarded`).
-/
import Viu.MockMap

namespace Viu
namespace MockMap

open Table

variable {κ : Type} {s u : State κ} {a : Act κ} {t x : Xfer}

structure Safe (s : State κ) : Prop where
  /-- Every call of the plugin is on a live transfer. -/
  live : ∀ c ∈ s.uses, c.2 = true
  /-- A `complete` after cancel has returned takes nothing out of the map and
  runs no callback, .. -/
  late : ∀ t, (t, true) ∈ s.completes → t ∉ keys s.calling ∧ t ∉ keys s.called
  /-- .. nor does it fail an assertion. -/
  asserted : s.stopped = false
  /-- Nothing is left in the map of a destroyed device. -/
  emptied : s.destroyed = true → s.pendingTransfers = []

/-- What a guard in front of the step would have to ask of the state. -/
def Guarded (s : State κ) : Act κ → Prop
  | .fill t | .read t | .complete t => t ∉ s.swept ∧ t ∉ keys s.called
  | .cancel => s.completing = []
  | .attach _ => s.canceller ≠ .done
  | .clear => s.pendingTransfers = []
  | .fillTransfer _ _ | .onTransferRequest _ | .onTransferCompletedImpl _ | .handOver _
  | .waitForCanceledTransfers | .destroy => True

abbrev Reaches (ok : State κ → Act κ → Prop) (s : State κ) : Prop :=
  Runs.Reach (fun s a u => step s a = some u) ok (State.init κ) s

/-! ### The invariant -/

/-- Filled and not attached. -/
def Exec.own : Exec κ → List Xfer
  | .filled e => [e.1]
  | .idle | .attached _ => []

structure Owned (s : State κ) : Prop where
  nodup : s.filled.Nodup
  /-- A transfer is live, swept or was handed to its callback, .. -/
  balance : ∀ x, s.live.count x + s.swept.count x + (keys s.called).count x = s.filled.count x
  /-- .. and a live one has one owner. -/
  owner : ∀ x, s.exec.own.count x + (keys s.pendingTransfers).count x + (keys s.calling).count x = s.live.count x
  handed : ∀ x, s.exec.own.count x + s.exec.given.count x + s.held.count x ≤ s.filled.count x
  /-- What the plugin has and has not completed is in the map, unless it was swept. -/
  waits : ∀ x, x ∈ s.exec.given ++ s.held → x ∉ s.swept → x ∉ keys s.completes → x ∈ keys s.pendingTransfers
  completing : ∀ x, s.completing.count x ≤ (keys s.pendingTransfers).count x
  completed : ∀ x ∈ s.completing, x ∈ keys s.completes
  given : ∀ x ∈ keys s.pendingTransfers, x ∈ s.exec.given ++ s.held
  underWay : ∀ x ∈ keys s.pendingTransfers, x ∈ keys s.completes → x ∈ s.completing
  held : ∀ x ∈ keys s.completes, x ∈ s.held
  early : ∀ c ∈ s.completes, c.2 = false
  uses : ∀ c ∈ s.uses, c.2 = true
  done : s.canceller = .done → s.pendingTransfers = []
  destroyed : s.destroyed = true → s.canceller = .done ∧ s.exec = .idle
  asserted : s.stopped = false

theorem owned_init : Owned (State.init κ) where
  nodup := List.nodup_nil
  balance _ := rfl
  owner _ := rfl
  handed _ := le_rfl
  waits _ h := (nomatch h)
  completing _ := le_rfl
  completed _ h := (nomatch h)
  given _ h := (nomatch h)
  underWay _ h := (nomatch h)
  held _ h := (nomatch h)
  early _ h := (nomatch h)
  uses _ h := (nomatch h)
  done h := (nomatch h)
  destroyed h := (nomatch h)
  asserted := rfl

theorem Owned.safe (h : Owned s) : Safe s where
  live := h.uses
  late _ ht := nomatch h.early _ ht
  asserted := h.asserted
  emptied hd := h.done (h.destroyed hd).1

theorem Owned.count_live_le_one (h : Owned s) : s.live.count x ≤ 1 := by
  have hb := h.balance x
  have hone := List.nodup_iff_count_le_one.mp h.nodup x
  omega

theorem Owned.live_of_pending (h : Owned s) (hx : x ∈ keys s.pendingTransfers) : x ∈ s.live := by
  have hpos := List.count_pos_iff.mpr hx
  have ho := h.owner x
  exact List.count_pos_iff.mp (by omega)

theorem Owned.pending_of_completing (h : Owned s) (hx : x ∈ s.completing) : x ∈ keys s.pendingTransfers := by
  have hpos := List.count_pos_iff.mpr hx
  have hle := h.completing x
  exact List.count_pos_iff.mp (by omega)

/-- A pointer of the plugin is live exactly until the sweep or the callback. -/
theorem Owned.live_iff_of_held (h : Owned s) (hx : x ∈ s.held) : x ∈ s.live ↔ x ∉ s.swept ∧ x ∉ keys s.called := by
  have hb := h.balance x
  have hh := h.handed x
  have hone := List.nodup_iff_count_le_one.mp h.nodup x
  have hpos := List.count_pos_iff.mpr hx
  rw [← List.count_pos_iff, ← List.count_eq_zero, ← List.count_eq_zero]
  omega

theorem Owned.unreleased_of_live (h : Owned s) (hx : x ∈ s.live) : x ∉ s.swept ∧ x ∉ keys s.called := by
  have hb := h.balance x
  have hone := List.nodup_iff_count_le_one.mp h.nodup x
  have hpos := List.count_pos_iff.mpr hx
  rw [← List.count_eq_zero, ← List.count_eq_zero]
  omega

theorem Owned.not_pending_of_filled {e : Xfer × κ} (h : Owned s) (he : s.exec = .filled e) :
    e.1 ∉ keys s.pendingTransfers := by
  intro hp
  have hpos := List.count_pos_iff.mpr hp
  have hone := h.count_live_le_one (x := e.1)
  have ho := h.owner e.1
  rw [he, Exec.own, List.count_singleton_self] at ho
  omega

theorem use_of_live (ht : t ∈ s.live) : s.use t = { s with uses := s.uses ++ [(t, true)], stopped := false } := by
  simp [State.use, ht]

theorem Owned.count_remove (h : Owned s) (ht : t ∈ keys s.pendingTransfers) :
    (keys (remove s.pendingTransfers t)).count x + [t].count x = (keys s.pendingTransfers).count x := by
  have hpos := List.count_pos_iff.mpr ht
  have hone := h.count_live_le_one (x := t)
  have ho := h.owner t
  exact count_keys_remove_add (by omega)

/-- A call on a live transfer is only recorded. -/
theorem Owned.use (h : Owned s) (ht : t ∈ s.live) : Owned (s.use t) := by
  rw [use_of_live ht]
  refine { h with uses := fun c hc => ?_, asserted := rfl }
  rcases List.mem_append.mp hc with hc | hc
  · exact h.uses c hc
  · rw [List.mem_singleton.mp hc]

theorem owned_fillTransfer {cb : κ} (h : Owned s) (he : s.exec = .idle) (hd : s.destroyed = false)
    (hf : t ∉ s.filled) :
    Owned { s with live := s.live ++ [t], filled := s.filled ++ [t], exec := .filled (t, cb) } := by
  refine { h with nodup := ?_, balance := fun x => ?_, owner := fun x => ?_, handed := fun x => ?_
                  waits := fun x hx => ?_, given := fun x hx => ?_
                  destroyed := fun hdes => nomatch hd.symm.trans hdes }
  · exact nodup_append_one h.nodup hf
  · have hb := h.balance x
    simp only [List.count_append] at hb ⊢
    omega
  · have ho := h.owner x
    rw [he] at ho
    simp only [Exec.own, List.count_append, List.count_nil] at ho ⊢
    omega
  · have hh := h.handed x
    rw [he] at hh
    simp only [Exec.own, Exec.given, List.count_append, List.count_nil] at hh ⊢
    omega
  · exact h.waits x (List.mem_append_right _ hx)
  · have hmem := h.given x hx
    rw [he] at hmem
    exact hmem

theorem owned_attach {e : Xfer × κ} (h : Owned s) (he : s.exec = .filled e) (hd : s.canceller ≠ .done) :
    Owned { s with pendingTransfers := s.pendingTransfers ++ [e], exec := .attached e.1 } := by
  refine { h with owner := fun x => ?_, handed := fun x => ?_, waits := fun x hx hs hc => ?_
                  completing := fun x => ?_, given := fun x hx => ?_, underWay := fun x hx hc => ?_
                  done := fun hdone => absurd hdone hd, destroyed := fun hdes => absurd (h.destroyed hdes).1 hd }
  · have ho := h.owner x
    rw [he] at ho
    rw [count_keys_append]
    simp only [Exec.own, List.count_nil] at ho ⊢
    omega
  · have hh := h.handed x
    rw [he] at hh
    simp only [Exec.own, Exec.given, List.count_nil] at hh ⊢
    omega
  · rw [keys_append]
    rcases List.mem_append.mp hx with hx | hx
    · exact List.mem_append_right _ hx
    · exact List.mem_append_left _ (h.waits x (List.mem_append_right _ hx) hs hc)
  · have hle := h.completing x
    rw [count_keys_append]
    dsimp only
    omega
  · rw [keys_append] at hx
    rcases List.mem_append.mp hx with hx | hx
    · have hmem := h.given x hx
      rw [he] at hmem
      exact List.mem_append_right _ hmem
    · exact List.mem_append_left _ hx
  · rw [keys_append] at hx
    rcases List.mem_append.mp hx with hx | hx
    · exact h.underWay x hx hc
    · obtain rfl : x = e.1 := List.mem_singleton.mp hx
      have hh := h.handed e.1
      have hone := List.nodup_iff_count_le_one.mp h.nodup e.1
      have hpos := List.count_pos_iff.mpr (h.held e.1 hc)
      rw [he, Exec.own, List.count_singleton_self] at hh
      omega

theorem owned_onTransferRequest (h : Owned s) (he : s.exec = .attached t) :
    Owned { s with held := s.held ++ [t], exec := .idle } := by
  have hmem : ∀ x, x ∈ s.exec.given ++ s.held ↔ x ∈ Exec.given (.idle : Exec κ) ++ (s.held ++ [t]) := fun x => by
    rw [he]
    simp only [Exec.given, List.mem_append, List.not_mem_nil, false_or, or_comm]
  refine { h with owner := fun x => ?_, handed := fun x => ?_, waits := fun x hx => h.waits x ((hmem x).mpr hx)
                  given := fun x hx => (hmem x).mp (h.given x hx)
                  held := fun x hx => List.mem_append_left _ (h.held x hx)
                  destroyed := fun hd => ⟨(h.destroyed hd).1, rfl⟩ }
  · have ho := h.owner x
    rw [he] at ho
    exact ho
  · have hh := h.handed x
    rw [he] at hh
    simp only [Exec.own, Exec.given, List.count_append, List.count_nil] at hh ⊢
    omega

theorem owned_complete (h : Owned s) (hh : t ∈ s.held) (hc : t ∉ keys s.completes) (hs : t ∉ s.swept) :
    Owned (s.complete t) := by
  have hpend := h.waits t (List.mem_append_right _ hh) hs hc
  have huse := h.use (h.live_of_pending hpend)
  have hkeys : keys (s.complete t).completes = keys s.completes ++ [t] := keys_append _
  refine { huse with waits := fun x hx hsx hcx => ?_, completing := fun x => ?_, completed := fun x hx => ?_
                     underWay := fun x hx hcx => ?_, held := fun x hx => ?_, early := fun c hm => ?_ }
  · rw [hkeys, List.mem_append, not_or] at hcx
    exact h.waits x hx hsx hcx.1
  · have hle := h.completing x
    have hnot : s.completing.count t = 0 := List.count_eq_zero.mpr fun hm => hc (h.completed t hm)
    by_cases hx : x = t
    · subst hx
      have hpos := List.count_pos_iff.mpr hpend
      simp only [State.complete, State.use, List.count_append, List.count_singleton_self]
      omega
    · have hone : [t].count x = 0 := List.count_eq_zero.mpr fun hm => hx (List.mem_singleton.mp hm)
      simp only [State.complete, State.use, List.count_append]
      omega
  · rw [hkeys]
    rcases List.mem_append.mp hx with hx | hx
    · exact List.mem_append_left _ (h.completed x hx)
    · exact List.mem_append_right _ hx
  · rw [hkeys] at hcx
    rcases List.mem_append.mp hcx with hcx | hcx
    · exact List.mem_append_left _ (h.underWay x hx hcx)
    · exact List.mem_append_right _ hcx
  · rw [hkeys] at hx
    rcases List.mem_append.mp hx with hx | hx
    · exact h.held x hx
    · rw [List.mem_singleton.mp hx]
      exact hh
  · rcases List.mem_append.mp hm with hm | hm
    · exact h.early c hm
    · rw [List.mem_singleton.mp hm]
      refine decide_eq_false fun hdone => ?_
      rw [h.done hdone] at hpend
      cases hpend

theorem owned_takeOut {cb : κ} (h : Owned s) (hc : t ∈ s.completing) (hp : (t, cb) ∈ s.pendingTransfers) :
    Owned { s.use t with
      pendingTransfers := remove s.pendingTransfers t
      completing := s.completing.erase t
      calling := s.calling ++ [(t, cb)] } := by
  have hkey : t ∈ keys s.pendingTransfers := mem_keys_of_mem hp
  have huse := h.use (h.live_of_pending hkey)
  refine { huse with owner := fun x => ?_, waits := fun x hx hs hcx => ?_, completing := fun x => ?_
                     completed := fun x hx => ?_, given := fun x hx => ?_, underWay := fun x hx hcx => ?_
                     done := fun hd => ?_ }
  · have ho := h.owner x
    have hrem := h.count_remove hkey (x := x)
    rw [count_keys_append]
    simp only [State.use]
    omega
  · obtain ⟨e, he, rfl⟩ := List.mem_map.mp (h.waits x hx hs hcx)
    refine mem_keys_of_mem (mem_remove.mpr ⟨he, fun het => hcx ?_⟩)
    rw [het]
    exact h.completed t hc
  · have hle := h.completing x
    have hrem := h.count_remove hkey (x := x)
    have herase := count_erase_add hc (x := x)
    dsimp only
    omega
  · exact h.completed x (List.mem_of_mem_erase hx)
  · obtain ⟨e, he, rfl⟩ := List.mem_map.mp hx
    exact h.given e.1 (mem_keys_of_mem (mem_remove.mp he).1)
  · obtain ⟨e, he, rfl⟩ := List.mem_map.mp hx
    obtain ⟨he, hne⟩ := mem_remove.mp he
    exact (List.mem_erase_of_ne hne).mpr (h.underWay e.1 (mem_keys_of_mem he) hcx)
  · rw [h.done hd] at hkey
    cases hkey

theorem owned_handOver {cb : κ} (h : Owned s) (hc : (t, cb) ∈ s.calling) :
    Owned { s with
      live := s.live.erase t
      calling := remove s.calling t
      called := s.called ++ [(t, cb)] } := by
  have hpos : 0 < (keys s.calling).count t := List.count_pos_iff.mpr (mem_keys_of_mem hc)
  have hone := h.count_live_le_one (x := t)
  have hot := h.owner t
  have hlive : t ∈ s.live := List.count_pos_iff.mp (by omega)
  have hcalling : (keys s.calling).count t = 1 := by omega
  refine { h with balance := fun x => ?_, owner := fun x => ?_ }
  · have hb := h.balance x
    have herase := count_erase_add hlive (x := x)
    rw [count_keys_append]
    dsimp only
    omega
  · have ho := h.owner x
    have herase := count_erase_add hlive (x := x)
    have hrem := count_keys_remove_add hcalling (x := x)
    dsimp only
    omega

theorem owned_cancel (h : Owned s) (hrun : s.canceller = .running) (hc : s.completing = []) : Owned s.cancel := by
  have hcount : ∀ x, (s.live.filter (· ∉ keys s.pendingTransfers)).count x + (keys s.pendingTransfers).count x =
      s.live.count x := by
    refine fun x => count_filter_not_mem_add fun hx => ?_
    have hpos := List.count_pos_iff.mpr hx
    have hone := h.count_live_le_one (x := x)
    have ho := h.owner x
    omega
  refine { h with balance := fun x => ?_, owner := fun x => ?_, waits := fun x hx hs hcx => ?_
                  completing := fun x => ?_, given := fun x hx => ?_, underWay := fun x hx => ?_
                  done := fun hd => ?_, destroyed := fun hd => ?_ }
  · have hb := h.balance x
    have hx := hcount x
    simp only [State.cancel, List.count_append]
    omega
  · have ho := h.owner x
    have hx := hcount x
    simp only [State.cancel, keys, List.map_nil, List.count_nil] at hx ho ⊢
    omega
  · rw [State.cancel, List.mem_append, not_or] at hs
    exact absurd (h.waits x hx hs.1 hcx) hs.2
  · simp only [State.cancel, hc, List.count_nil]
    omega
  · cases hx
  · cases hx
  · cases hd
  · have hdone := (h.destroyed hd).1
    rw [hrun] at hdone
    cases hdone

/-- A step that a guard would let pass keeps the invariant. -/
theorem owned_step (h : Owned s) (hok : Guarded s a) (hst : Step s a u) : Owned u := by
  cases hst with
  | fillTransfer he hd hf => exact owned_fillTransfer h he hd hf
  | attach he hp => exact owned_attach h he hok
  | attachTwice he hp => exact absurd hp (h.not_pending_of_filled he)
  | onTransferRequest he => exact owned_onTransferRequest h he
  | use ha hh hd =>
    refine h.use ((h.live_iff_of_held hh).mpr ?_)
    rcases ha with rfl | rfl
    · exact hok
    · exact hok
  | complete hh hd hc => exact owned_complete h hh hc hok.1
  | takeOut hc hp => exact owned_takeOut h hc hp
  | missing hc hp => exact absurd (h.pending_of_completing hc) hp
  | handOver hc => exact owned_handOver h hc
  | cancel hc => exact owned_cancel h hc hok
  | waitForCanceledTransfers hc =>
    refine { h with done := fun hd => ?_, destroyed := fun hd => nomatch hc.symm.trans (h.destroyed hd).1 }
    by_cases hnil : s.pendingTransfers = []
    · exact hnil
    · simp [hnil] at hd
  | clear hc =>
    have hnil : s.pendingTransfers = [] := hok
    have ho := h.owner
    have hw := h.waits
    have hle := h.completing
    rw [hnil] at ho hw hle
    exact { h with owner := ho, waits := hw, completing := hle
                   given := fun x hx => (nomatch hx), underWay := fun x hx => (nomatch hx)
                   done := fun _ => rfl, destroyed := fun hd => nomatch hc.symm.trans (h.destroyed hd).1 }
  | destroy hc he => exact { h with destroyed := fun _ => ⟨hc, he⟩ }

theorem owned_of_reaches (h : Reaches Guarded s) : Owned s :=
  h.invariant owned_init fun _ _ _ hs hok hst => owned_step hs hok (step_cases hst).2

/-! ### Unguarded -/

theorem not_safe_of_use (ht : t ∉ s.live) (hu : u.uses = s.uses ++ [(t, decide (t ∈ s.live))]) : ¬ Safe u := by
  intro hsafe
  have hmem : (t, decide (t ∈ s.live)) ∈ u.uses := by
    rw [hu]
    exact List.mem_append_right _ (List.mem_singleton_self _)
  exact ht (of_decide_eq_true (hsafe.live _ hmem))

/-- The section does not find what is no longer in the map. -/
theorem not_safe_of_missing (hstop : s.stopped = false) (hc : t ∈ s.completing) (hp : s.pendingTransfers = []) :
    ∃ v, step s (.onTransferCompletedImpl t) = some v ∧ ¬ Safe v := by
  refine ⟨{ s.use t with stopped := true }, ?_, fun hsafe => nomatch hsafe.asserted⟩
  simp [step, hstop, hc, State.onTransferCompletedImpl, hp]

/-- A `complete` after cancel has returned is never without effect: it is a call on a
released transfer, or it runs the callback, or it fails the assertion because
the map has lost the transfer. -/
theorem not_safe_of_late_complete (hst : step s (.complete t) = some u) (hdone : s.canceller = .done) :
    ∃ v, Runs.Reach (fun s a u => step s a = some u) Guarded u v ∧ ¬ Safe v := by
  cases (step_cases hst).2 with
  | complete hh hd hc =>
    by_cases hlive : t ∈ s.live
    · have hsection : step (s.complete t) (.onTransferCompletedImpl t) =
          some ((s.complete t).onTransferCompletedImpl t) := by
        simp [step, State.complete, State.use, hlive]
      refine ⟨_, .step .init (show Guarded _ (.onTransferCompletedImpl t) from trivial) hsection, fun hsafe => ?_⟩
      have hlate : (t, true) ∈ (s.complete t).completes := by simp [State.complete, hdone]
      unfold State.onTransferCompletedImpl at hsafe
      split at hsafe
      · rename_i cb hcb
        refine (hsafe.late t hlate).1 ?_
        rw [keys_append]
        exact List.mem_append_right _ (List.mem_singleton_self t)
      · exact nomatch hsafe.asserted
    · exact ⟨_, .init, not_safe_of_use hlive rfl⟩
  | use ha => rcases ha with h | h <;> cases h

theorem not_safe_of_complete (hstop : s.stopped = false) (hd : s.destroyed = false) (hdone : s.canceller = .done)
    (hh : t ∈ s.held) (hc : t ∉ keys s.completes) (hok : t ∉ s.swept ∧ t ∉ keys s.called) :
    ∃ v, Runs.Reach (fun s a u => step s a = some u) Guarded s v ∧ ¬ Safe v := by
  have hst : step s (.complete t) = some (s.complete t) := by
    simp [step, hstop, hd, hh, hc]
  obtain ⟨v, hv, hsafe⟩ := not_safe_of_late_complete hst hdone
  exact ⟨v, (Runs.Reach.init.step (show Guarded s (.complete t) from hok) hst).trans hv, hsafe⟩

/-- As `not_safe_of_complete`, for a transfer the plugin has or is given next. -/
theorem not_safe_of_late (hstop : s.stopped = false) (hd : s.destroyed = false) (hdone : s.canceller = .done)
    (hg : t ∈ s.exec.given ++ s.held) (hc : t ∉ keys s.completes)
    (hok : t ∉ s.swept ∧ t ∉ keys s.called) :
    ∃ v, Runs.Reach (fun s a u => step s a = some u) Guarded s v ∧ ¬ Safe v := by
  rcases List.mem_append.mp hg with hg | hg
  · have hexec := Exec.eq_attached hg
    have hst : step s (.onTransferRequest t) = some { s with held := s.held ++ [t], exec := .idle } := by
      simp [step, hstop, hexec, Exec.given]
    obtain ⟨v, hv, hsafe⟩ := not_safe_of_complete (s := { s with held := s.held ++ [t], exec := .idle })
      hstop hd hdone (List.mem_append_right _ (List.mem_singleton_self t)) hc hok
    exact ⟨v, (Runs.Reach.init.step (a := .onTransferRequest t) trivial hst).trans hv, hsafe⟩
  · exact not_safe_of_complete hstop hd hdone hg hc hok

/-- A step that the guard would stop can be the one that goes wrong, though it would let
the rest of the run pass. -/
theorem not_safe_of_not_guarded (h : Reaches Guarded s) (hst : step s a = some u) (ha : ¬ Guarded s a) :
    ∃ v, Runs.Reach (fun s a u => step s a = some u) Guarded u v ∧ ¬ Safe v := by
  have hs := owned_of_reaches h
  cases (step_cases hst).2 with
  | @use a t hact hh hd =>
    have hlive : t ∉ s.live := by
      rw [hs.live_iff_of_held hh]
      rcases hact with rfl | rfl
      · exact ha
      · exact ha
    exact ⟨_, .init, not_safe_of_use hlive rfl⟩
  | complete hh hd hc =>
    have hlive : _ ∉ s.live := (hs.live_iff_of_held hh).not.mpr ha
    exact ⟨_, .init, not_safe_of_use hlive rfl⟩
  | cancel hc =>
    obtain ⟨t, ht⟩ := List.exists_mem_of_ne_nil _ ha
    obtain ⟨v, hv, hsafe⟩ := not_safe_of_missing (s := s.cancel) hs.asserted ht rfl
    exact ⟨v, .step .init (show Guarded _ (.onTransferCompletedImpl t) from trivial) hv, hsafe⟩
  | @attach e he hp =>
    have hdone : s.canceller = .done := not_not.mp ha
    have ho := hs.owner e.1
    have hh := hs.handed e.1
    have hone := List.nodup_iff_count_le_one.mp hs.nodup e.1
    rw [he, Exec.own, List.count_singleton_self] at ho hh
    have hlive : e.1 ∈ s.live := List.count_pos_iff.mp (by omega)
    have hd : s.destroyed = false := Bool.eq_false_iff.mpr fun hd => nomatch he.symm.trans (hs.destroyed hd).2
    have hc : e.1 ∉ keys s.completes := fun hmem => by
      have hpos := List.count_pos_iff.mpr (hs.held e.1 hmem)
      omega
    exact not_safe_of_late hs.asserted hd hdone (List.mem_append_left _ (List.mem_singleton_self e.1)) hc
      (hs.unreleased_of_live hlive)
  | clear hc =>
    obtain ⟨e, he⟩ := List.exists_mem_of_ne_nil _ ha
    have hkey : e.1 ∈ keys s.pendingTransfers := mem_keys_of_mem he
    have hlive := hs.live_of_pending hkey
    have hd : s.destroyed = false := Bool.eq_false_iff.mpr fun hd => nomatch hc.symm.trans (hs.destroyed hd).1
    by_cases hcomp : e.1 ∈ keys s.completes
    · obtain ⟨v, hv, hsafe⟩ := not_safe_of_missing (s := { s with pendingTransfers := [], canceller := .done })
        hs.asserted (hs.underWay e.1 hkey hcomp) rfl
      exact ⟨v, .step .init (show Guarded _ (.onTransferCompletedImpl e.1) from trivial) hv, hsafe⟩
    · exact not_safe_of_late hs.asserted hd rfl (hs.given e.1 hkey) hcomp (hs.unreleased_of_live hlive)
  | attachTwice he hp => exact absurd hp (hs.not_pending_of_filled he)
  | _ => exact absurd trivial ha

end MockMap
end Viu
